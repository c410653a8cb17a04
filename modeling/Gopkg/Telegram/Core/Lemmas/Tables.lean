import Gopkg.Lts.Slots
import Gopkg.Telegram.Core.Manager

/-!
# The tables of the manager

The bots that `m.bots` and the `startBot` goroutines know have been created for their partner, and a partner
with a `startBot` goroutine has a health record.
-/

namespace Gopkg.Telegram.Core

open Client Lts

variable {m m' : Manager} {t evs : List Event} {id : String} {b : Nat}

/-! ## Bots -/

theorem made_stopBot (m : Manager) (b i : Nat) : (m.stopBot b).made[i]? =
    m.made[i]?.map fun bot => if b = i then { bot with stopped := true } else bot :=
  List.getElem?_modify ..

theorem made_stopBot_eq {bot : PartnerBot} (h : m.made[b]? = some bot) :
    (m.stopBot b).made[b]? = some { bot with stopped := true } := by
  rw [made_stopBot, h, Option.map_some, if_pos rfl]

theorem made_stopBot_ne {i : Nat} (h : b ≠ i) : (m.stopBot b).made[i]? = m.made[i]? := by
  rw [made_stopBot]
  simp only [h, ↓reduceIte, Option.map_id']

/-- Stopping a bot changes no configuration. -/
theorem cfg_stopBot {i : Nat} {bot : PartnerBot} (h : m.made[i]? = some bot) :
    ∃ bot', (m.stopBot b).made[i]? = some bot' ∧ bot'.cfg = bot.cfg := by
  rw [made_stopBot, h, Option.map_some]
  refine ⟨_, rfl, ?_⟩
  split <;> rfl

/-- A bot that runs on was running, and is not the one that was stopped. -/
theorem live_of_stopBot {i : Nat} {bot : PartnerBot} (h : (m.stopBot b).made[i]? = some bot)
    (hlive : bot.stopped = false) : b ≠ i ∧ m.made[i]? = some bot := by
  by_cases hi : b = i
  · rw [made_stopBot] at h
    obtain ⟨old, _, rfl⟩ := Option.map_eq_some_iff.mp h
    rw [if_pos hi] at hlive
    exact nomatch hlive
  · rw [made_stopBot_ne hi] at h
    exact ⟨hi, h⟩

/-! ## The loop over the bots -/

/-- A property that the body keeps for an entry of the map is kept by the loop. -/
theorem eachBot_induct {P : Manager → Prop} {body : Manager → String → Nat → Manager} (h₀ : P m)
    (hbots : ∀ m id b id', id' ≠ id → (body m id b).bots.lookup id' = m.bots.lookup id')
    (hbody : ∀ m id b, P m → m.bots.lookup id = some b → P (body m id b)) : P (m.eachBot body) := by
  have key : ∀ (l : List (Sigma fun _ : String => Nat)) (m : Manager), l.NodupKeys → P m →
      (∀ e ∈ l, m.bots.lookup e.1 = some e.2) → P (l.foldl (fun m e => body m e.1 e.2) m) := by
    intro l
    induction l with
    | nil => exact fun m _ hm _ => hm
    | cons e l ih =>
        intro m hnodup hm hl
        rw [List.nodupKeys_cons] at hnodup
        refine ih _ hnodup.2 (hbody m e.1 e.2 hm (hl e List.mem_cons_self)) fun e' he' => ?_
        -- the body leaves the entries that are still to come
        have hne : e'.1 ≠ e.1 := fun heq => hnodup.1 (heq ▸ List.mem_keys_of_mem he')
        rw [hbots _ _ _ _ hne]
        exact hl e' (List.mem_cons_of_mem _ he')
  exact key _ m m.bots.nodupKeys h₀ fun e he => AList.mem_lookup_iff.mpr he

/-- A body that deletes its entry leaves the map empty. -/
theorem lookup_eachBot {body : Manager → String → Nat → Manager}
    (hbody : ∀ m id b, (body m id b).bots = m.bots.erase id) (m : Manager) (id : String) :
    (m.eachBot body).bots.lookup id = none := by
  have key : ∀ (l : List (Sigma fun _ : String => Nat)) (m : Manager), id ∈ l.keys ∨ m.bots.lookup id = none →
      (l.foldl (fun m e => body m e.1 e.2) m).bots.lookup id = none := by
    intro l
    induction l with
    | nil => exact fun m h => h.resolve_left (by simp)
    | cons e l ih =>
        intro m h
        refine ih _ ?_
        rw [hbody]
        by_cases he : id = e.1
        · rw [he]
          exact .inr (AList.lookup_erase _ _)
        · rw [AList.lookup_erase_ne he]
          rcases h with h | h
          · rw [List.keys_cons, List.mem_cons] at h
            exact .inl (h.resolve_left he)
          · exact .inr h
  refine key _ m ?_
  by_cases hid : id ∈ m.bots
  · exact .inl (AList.mem_keys.mp hid)
  · exact .inr (AList.lookup_eq_none.mpr hid)

/-! ## `syncBot` and `Stop` -/

theorem retireBot_tokens (m : Manager) (id : String) : (m.retireBot id).tokens = m.tokens := by
  unfold Manager.retireBot
  split <;> rfl

theorem retireBot_routines (m : Manager) (id : String) : (m.retireBot id).routines = m.routines := by
  unfold Manager.retireBot
  split <;> rfl

/-- The partner has the token already, or the old bot is stopped and a goroutine is started. -/
theorem syncBot_cases (m : Manager) (cfg : PartnerBotConfig) :
    (m.syncBot cfg = m ∧ m.tokens.lookup cfg.partnerID = some cfg.botToken) ∨
    ∃ m₁ : Manager, m.syncBot cfg = m₁.launchBot cfg ∧ m₁.tokens = m.tokens ∧ m₁.routines = m.routines := by
  unfold Manager.syncBot
  cases ht : m.tokens.lookup cfg.partnerID with
  | none => exact .inr ⟨m, rfl, rfl, rfl⟩
  | some token =>
      by_cases htoken : token = cfg.botToken
      · exact .inl ⟨if_pos htoken, congrArg some htoken⟩
      · exact .inr ⟨_, if_neg htoken, retireBot_tokens m _, retireBot_routines m _⟩

theorem stop_frame (m : Manager) :
    m.stop.tokens = m.tokens ∧ m.stop.routines = m.routines ∧ m.stop.loader = m.loader :=
  eachBot_induct (P := fun m' => m'.tokens = m.tokens ∧ m'.routines = m.routines ∧ m'.loader = m.loader)
    ⟨rfl, rfl, rfl⟩ (fun _ _ _ _ hid => AList.lookup_erase_ne hid) fun _ _ _ h _ => h

/-! ## A pass with nobody in between -/

theorem syncBot_loader (m : Manager) (cfg : PartnerBotConfig) (l : LoaderPc) :
    { m with loader := l }.syncBot cfg = { m.syncBot cfg with loader := l } := by
  simp only [Manager.syncBot, Manager.retireBot]
  split
  · split
    · rfl
    · split <;> rfl
  · rfl

theorem removeInactive_loader (m : Manager) (activeIDs : List String) (l : LoaderPc) :
    { m with loader := l }.removeInactive activeIDs = { m.removeInactive activeIDs with loader := l } := by
  simp only [Manager.removeInactive, Manager.eachBot]
  induction m.bots.entries generalizing m with
  | nil => rfl
  | cons e es ih =>
      rw [List.foldl_cons, List.foldl_cons]
      split
      · exact ih m
      · exact ih (m.removeBot e.1 e.2)

theorem sync_run {ph : Phase} (rest : List PartnerBotConfig) : ∀ (m : Manager) (passed : List PartnerBotConfig),
    ∃ t, Run Step { m with loader := .syncing ph passed rest } t
      { rest.foldl Manager.syncBot m with loader := .syncing ph (passed ++ rest) [] } := by
  induction rest with
  | nil =>
      intro m passed
      rw [List.append_nil]
      exact ⟨[], .refl⟩
  | cons cfg rest ih =>
      intro m passed
      obtain ⟨t, hr⟩ := ih (m.syncBot cfg) (passed ++ [cfg])
      rw [List.append_assoc] at hr
      have hs : Step { m with loader := .syncing ph passed (cfg :: rest) } _ _ := .load (.L_Sync rfl)
      rw [syncBot_loader] at hs
      exact ⟨_, hr.cons hs⟩

/-- `loadAndSync` is what the steps of a pass do one after the other. -/
theorem loadAndSync_run {ph : Phase} (m : Manager) (resp : Http GetBotsResponse) (hl : m.loader = .fetching ph) :
    ∃ t l, Run Step m t { (m.loadAndSync resp).2 with loader := l } := by
  unfold Manager.loadAndSync
  cases hresp : getTelegramBots resp with
  | error err => exact ⟨_, _, .single (.load (.L_Refused resp hl hresp))⟩
  | ok configs =>
      have hload : Step m _ _ := .load (.L_Loaded resp hl hresp)
      obtain ⟨t, hsync⟩ := sync_run configs m []
      have hsweep : Step { configs.foldl Manager.syncBot m with loader := .syncing ph ([] ++ configs) [] } _ _ :=
        .load (.L_Sweep rfl)
      rw [removeInactive_loader] at hsweep
      exact ⟨_, _, (hsync.cons hload).snoc hsweep⟩

theorem loadAndSync_refused (m : Manager) {r : GetBotsResponse} {e : APIError} (hs : r.success = false)
    (he : r.error = some e) :
    m.loadAndSync (.body (.ok r)) = (.error s!"fetch bot configs: {e.text}", m) := by
  simp only [Manager.loadAndSync, getTelegramBots_decoded, hs, he, accept_refused, Except.map]

theorem loadAndSync_no_error (m : Manager) {r : GetBotsResponse} (he : r.error = none) :
    (m.loadAndSync (.body (.ok r))).1 = .ok () := by
  simp only [Manager.loadAndSync, getTelegramBots_decoded, he, accept_no_error, Except.map]

/-! ## Well-formed tables -/

/-- The bot of the goroutine, from its registration until it is stopped. -/
def StartPc.bot? : StartPc → Option Nat
  | .registered b | .spawned b | .running b => some b
  | .creating | .sleeping | .checkTracked | .checkToken | .exited => none

structure Wf (m : Manager) : Prop where
  bots : ∀ id b, m.bots.lookup id = some b → ∃ bot, m.made[b]? = some bot ∧ bot.cfg.partnerID = id
  routines : ∀ r ∈ m.routines, ∀ b, r.pc.bot? = some b → ∃ bot, m.made[b]? = some bot ∧ bot.cfg = r.cfg
  health : ∀ r ∈ m.routines, ∃ h, m.health.lookup r.cfg.partnerID = some h

theorem Wf.new : Wf newBotManager := ⟨nofun, nofun, nofun⟩

theorem Wf.stopBot (h : Wf m) (b : Nat) : Wf (m.stopBot b) := by
  refine ⟨fun id b' hb => ?_, fun r hr b' hpc => ?_, h.health⟩
  · obtain ⟨bot, hbot, hid⟩ := h.bots id b' hb
    obtain ⟨bot', hbot', hcfg⟩ := cfg_stopBot hbot
    exact ⟨bot', hbot', hcfg ▸ hid⟩
  · obtain ⟨bot, hbot, hr⟩ := h.routines r hr b' hpc
    obtain ⟨bot', hbot', hcfg⟩ := cfg_stopBot hbot
    exact ⟨bot', hbot', hcfg.trans hr⟩

/-- Entries of `m.bots` may go, and health records may change. -/
theorem Wf.shrink (h : Wf m) (hmade : m'.made = m.made) (hroutines : m'.routines = m.routines)
    (hbots : ∀ id b, m'.bots.lookup id = some b → m.bots.lookup id = some b)
    (hhealth : ∀ id h, m.health.lookup id = some h → ∃ h', m'.health.lookup id = some h') : Wf m' := by
  constructor
  · rw [hmade]
    exact fun id b hb => h.bots id b (hbots id b hb)
  · rw [hmade, hroutines]
    exact h.routines
  · rw [hroutines]
    intro r hr
    obtain ⟨old, hold⟩ := h.health r hr
    exact hhealth _ _ hold

theorem lookup_of_erase {V : Type} {s : PartnerMap V} {id' : String} {v : V} (h : (s.erase id).lookup id' = some v) :
    s.lookup id' = some v := by
  by_cases hid : id' = id
  · rw [hid, AList.lookup_erase] at h
    exact nomatch h
  · rwa [AList.lookup_erase_ne hid] at h

theorem lookup_insert_exists {V : Type} {s : PartnerMap V} (id' : String) {v w : V} (h : s.lookup id' = some v) :
    ∃ v', (s.insert id w).lookup id' = some v' := by
  by_cases hid : id' = id
  · rw [hid]
    exact ⟨w, AList.lookup_insert s⟩
  · exact ⟨v, (AList.lookup_insert_ne hid).trans h⟩

theorem markDown_exists {health : PartnerMap BotHealth} (id' : String) {h : BotHealth}
    (hh : health.lookup id' = some h) : ∃ h', (Manager.markDown health id).lookup id' = some h' := by
  unfold Manager.markDown
  split
  · exact lookup_insert_exists id' hh
  · exact ⟨h, hh⟩

theorem Wf.removeBot (h : Wf m) (id : String) (b : Nat) : Wf (m.removeBot id b) :=
  (h.stopBot b).shrink rfl rfl (fun _ _ => lookup_of_erase) fun id' _ => markDown_exists id'

theorem Wf.haltBot (h : Wf m) (id : String) (b : Nat) : Wf (m.haltBot id b) :=
  (h.stopBot b).shrink rfl rfl (fun _ _ => lookup_of_erase) fun _ old hold => ⟨old, hold⟩

theorem Wf.removeInactive (h : Wf m) (activeIDs : List String) : Wf (m.removeInactive activeIDs) := by
  refine eachBot_induct h (fun m id b id' hid => ?_) fun m id b hm _ => ?_
  · split
    · rfl
    · exact AList.lookup_erase_ne hid
  · split
    · exact hm
    · exact hm.removeBot id b

theorem Wf.stop (h : Wf m) : Wf m.stop := by
  have hwf : Wf (m.eachBot Manager.haltBot) :=
    eachBot_induct h (fun m id b id' hid => AList.lookup_erase_ne hid) fun m id b hm _ => hm.haltBot id b
  exact ⟨hwf.bots, hwf.routines, hwf.health⟩

theorem Wf.retireBot (h : Wf m) (id : String) : Wf (m.retireBot id) := by
  unfold Manager.retireBot
  split
  · exact (h.stopBot _).shrink rfl rfl (fun _ _ hb => hb) fun _ old hold => ⟨old, hold⟩
  · exact h

theorem Wf.launchBot (h : Wf m) (cfg : PartnerBotConfig) : Wf (m.launchBot cfg) := by
  refine ⟨h.bots, fun r hr b hpc => ?_, fun r hr => ?_⟩
  · rcases List.mem_append.mp hr with hr | hr
    · exact h.routines r hr b hpc
    · rw [List.mem_singleton.mp hr] at hpc
      exact nomatch hpc
  · rcases List.mem_append.mp hr with hr | hr
    · obtain ⟨old, hold⟩ := h.health r hr
      exact lookup_insert_exists _ hold
    · rw [List.mem_singleton.mp hr]
      exact ⟨_, AList.lookup_insert _⟩

theorem Wf.syncBot (h : Wf m) (cfg : PartnerBotConfig) : Wf (m.syncBot cfg) := by
  unfold Manager.syncBot
  split
  · split
    · exact h
    · exact (h.retireBot _).launchBot cfg
  · exact h.launchBot cfg

/-- A goroutine moves to a place where it knows no bot that it did not know before. -/
theorem Wf.setRoutine (h : Wf m) {k : Nat} {cfg : PartnerBotConfig} {pc pc' : StartPc}
    (hk : m.routines[k]? = some ⟨cfg, pc⟩)
    (hpc : ∀ b, pc'.bot? = some b → ∃ bot, m.made[b]? = some bot ∧ bot.cfg = cfg) :
    Wf (m.setRoutine k ⟨cfg, pc'⟩) := by
  refine ⟨h.bots, fun r hr b => ?_, fun r hr => ?_⟩
  · rcases List.mem_or_eq_of_mem_set hr with hr | rfl
    · exact h.routines r hr b
    · exact hpc b
  · rcases List.mem_or_eq_of_mem_set hr with hr | rfl
    · exact h.health r hr
    · exact h.health ⟨cfg, pc⟩ (List.mem_of_getElem? hk)

theorem Wf.registerBot (h : Wf m) (cfg : PartnerBotConfig) : Wf (m.registerBot cfg) := by
  have hmade : ∀ {i : Nat} {bot : PartnerBot}, m.made[i]? = some bot →
      (m.registerBot cfg).made[i]? = some bot := by
    intro i bot hi
    obtain ⟨hlt, _⟩ := List.getElem?_eq_some_iff.mp hi
    exact (List.getElem?_append_left hlt).trans hi
  refine ⟨fun id b hb => ?_, fun r hr b hpc => ?_, fun r hr => ?_⟩
  · by_cases hid : id = cfg.partnerID
    · subst hid
      have hb : some m.made.length = some b := (AList.lookup_insert _).symm.trans hb
      cases hb
      exact ⟨⟨cfg, false⟩, List.getElem?_concat_length, rfl⟩
    · have hb : m.bots.lookup id = some b := (AList.lookup_insert_ne hid).symm.trans hb
      obtain ⟨bot, hbot, hid⟩ := h.bots id b hb
      exact ⟨bot, hmade hbot, hid⟩
  · obtain ⟨bot, hbot, hcfg⟩ := h.routines r hr b hpc
    exact ⟨bot, hmade hbot, hcfg⟩
  · obtain ⟨old, hold⟩ := h.health r hr
    exact lookup_insert_exists _ hold

theorem Wf.failBot (h : Wf m) (id : String) (old : BotHealth) (status : Status) : Wf (m.failBot id old status) :=
  h.shrink rfl rfl (fun _ _ hb => hb) fun _ _ hold => lookup_insert_exists _ hold

theorem Wf.startStep (h : Wf m) (hs : StartStep m evs m') : Wf m' := by
  cases hs with
  | G_Fail hk _ _ | G_GiveUp hk _ _ =>
      refine (h.failBot _ _ _).setRoutine hk fun b hpc => ?_
      exact nomatch hpc
  | @G_Create k cfg _ hk _ =>
      refine (h.registerBot cfg).setRoutine hk fun b hpc => ?_
      cases hpc
      exact ⟨⟨cfg, false⟩, List.getElem?_concat_length, rfl⟩
  | @G_Spawn k b cfg hk =>
      have hspawned : Wf (m.setRoutine k ⟨cfg, .spawned b⟩) :=
        h.setRoutine hk fun b' hpc => h.routines _ (List.mem_of_getElem? hk) b' hpc
      exact ⟨hspawned.bots, hspawned.routines, hspawned.health⟩
  | G_Start hk => exact h.setRoutine hk fun b hpc => h.routines _ (List.mem_of_getElem? hk) b hpc
  | G_Return hk _ _ | G_Removed hk _ | G_Tracked hk _ | G_Changed hk _ | G_Unchanged hk _ | G_Wake hk =>
      refine h.setRoutine hk fun b hpc => ?_
      exact nomatch hpc

theorem Wf.step (h : Wf m) (hs : Step m evs m') : Wf m' := by
  cases hs with
  | start hs => exact h.startStep hs
  | load hs =>
      cases hs with
      | @L_Sync _ _ _ cfg _ =>
          have := h.syncBot cfg
          exact ⟨this.bots, this.routines, this.health⟩
      | @L_Sweep _ passed _ =>
          have := h.removeInactive (passed.map (·.partnerID))
          exact ⟨this.bots, this.routines, this.health⟩
      | L_Refused _ _ _ | L_Loaded _ _ _ | L_Retry _ | L_Cancelled _ _ | L_Tick _ | L_Done _ _ =>
          exact ⟨h.bots, h.routines, h.health⟩
  | outer hs =>
      cases hs with
      | M_Stop => exact h.stop
      | M_Cancel | M_Ready _ | M_Webhook _ => exact ⟨h.bots, h.routines, h.health⟩

theorem Wf.run (hr : Run Step newBotManager t m) : Wf m := hr.stateInvariant .new fun _ _ _ h hs => h.step hs

end Gopkg.Telegram.Core
