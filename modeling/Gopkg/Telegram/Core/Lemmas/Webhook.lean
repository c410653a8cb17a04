import Gopkg.Telegram.Core.Lemmas.Tables

/-!
# Where webhook requests go

A configuration that a `startBot` goroutine or a bot holds was loaded, and a partner is ready only when it was marked
so after a bot of it had been registered.
-/

namespace Gopkg.Telegram.Core

open Client Lts

/-- An answer of the identity service had this configuration. -/
def Loaded (t : List Event) (cfg : PartnerBotConfig) : Prop := ∃ configs, .loaded configs ∈ t ∧ cfg ∈ configs

/-- The configurations of the bots that have been created. -/
def Manager.configs (m : Manager) : List PartnerBotConfig := m.made.map (·.cfg)

/-- A bot of the partner was registered. -/
def RegisteredFor (t : List Event) (m : Manager) (id : String) : Prop :=
  ∃ k b cfg, .registered k b ∈ t ∧ m.configs[b]? = some cfg ∧ cfg.partnerID = id

/-- The partner was marked ready, and a bot of it had been registered before. -/
def MarkedFor (t : List Event) (m : Manager) (id : String) : Prop :=
  ∃ before after, t = before ++ .markedReady id :: after ∧ RegisteredFor before m id

variable {m m' m'' : Manager} {t evs : List Event} {id : String} {cfg : PartnerBotConfig}

theorem Loaded.append (h : Loaded t cfg) (evs : List Event) : Loaded (t ++ evs) cfg := by
  obtain ⟨configs, hloaded, hmem⟩ := h
  exact ⟨configs, List.mem_append_left _ hloaded, hmem⟩

theorem RegisteredFor.append (h : RegisteredFor t m id) (evs : List Event) : RegisteredFor (t ++ evs) m id := by
  obtain ⟨k, b, cfg, hregistered, hcfg⟩ := h
  exact ⟨k, b, cfg, List.mem_append_left _ hregistered, hcfg⟩

theorem RegisteredFor.mono (h : RegisteredFor t m id) (hm : m.configs <+: m'.configs) : RegisteredFor t m' id := by
  obtain ⟨k, b, cfg, hregistered, hcfg, hid⟩ := h
  obtain ⟨more, hmore⟩ := hm
  refine ⟨k, b, cfg, hregistered, ?_, hid⟩
  rw [← hmore, List.getElem?_append_left (List.getElem?_eq_some_iff.mp hcfg).1]
  exact hcfg

theorem MarkedFor.append (h : MarkedFor t m id) (evs : List Event) : MarkedFor (t ++ evs) m id := by
  obtain ⟨before, after, rfl, hregistered⟩ := h
  exact ⟨before, after ++ evs, by simp, hregistered⟩

theorem MarkedFor.mono (h : MarkedFor t m id) (hm : m.configs <+: m'.configs) : MarkedFor t m' id := by
  obtain ⟨before, after, heq, hregistered⟩ := h
  exact ⟨before, after, heq, hregistered.mono hm⟩

/-! ## Stopping bots -/

/-- Bots are stopped and entries are taken out: nobody is marked ready and nothing is created. -/
structure Calms (m m' : Manager) : Prop where
  configs : m'.configs = m.configs
  routines : m'.routines = m.routines
  readying : m'.readying = m.readying
  loader : m'.loader = m.loader
  ready : ∀ id, m'.ready.lookup id = some true → m.ready.lookup id = some true

theorem Calms.refl (m : Manager) : Calms m m := ⟨rfl, rfl, rfl, rfl, fun _ => id⟩

theorem Calms.trans (h : Calms m m') (h' : Calms m' m'') : Calms m m'' where
  configs := h'.configs.trans h.configs
  routines := h'.routines.trans h.routines
  readying := h'.readying.trans h.readying
  loader := h'.loader.trans h.loader
  ready := fun id hid => h.ready id (h'.ready id hid)

theorem configs_stopBot (m : Manager) (b : Nat) : (m.stopBot b).configs = m.configs := by
  have hcfg : ∀ bot : PartnerBot, ∀ i, (if b = i then { bot with stopped := true } else bot).cfg = bot.cfg := by
    intro bot i
    split <;> rfl
  refine List.ext_getElem? fun i => ?_
  simp only [Manager.configs, List.getElem?_map, made_stopBot, Option.map_map, Function.comp_def, hcfg]

theorem Calms.removeBot (m : Manager) (id : String) (b : Nat) : Calms m (m.removeBot id b) :=
  ⟨configs_stopBot m b, rfl, rfl, rfl, fun _ => lookup_of_erase⟩

theorem Calms.haltBot (m : Manager) (id : String) (b : Nat) : Calms m (m.haltBot id b) :=
  ⟨configs_stopBot m b, rfl, rfl, rfl, fun _ => lookup_of_erase⟩

/-- Marking a partner not ready makes nobody ready. -/
theorem ready_of_unready {ready : PartnerMap Bool} {id' : String}
    (h : (ready.insert id false).lookup id' = some true) : ready.lookup id' = some true := by
  by_cases hid : id' = id
  · rw [hid, AList.lookup_insert] at h
    exact nomatch h
  · rwa [AList.lookup_insert_ne hid] at h

theorem Calms.retireBot (m : Manager) (id : String) : Calms m (m.retireBot id) := by
  unfold Manager.retireBot
  split
  · exact ⟨configs_stopBot m _, rfl, rfl, rfl, fun _ => ready_of_unready⟩
  · exact .refl m

theorem Calms.removeInactive (m : Manager) (activeIDs : List String) : Calms m (m.removeInactive activeIDs) := by
  refine eachBot_induct (P := Calms m) (.refl m) (fun m id b id' hid => ?_) fun m' id b h _ => ?_
  · split
    · rfl
    · exact AList.lookup_erase_ne hid
  · split
    · exact h
    · exact h.trans (.removeBot m' id b)

theorem Calms.stop (m : Manager) : Calms m m.stop := by
  have h : Calms m (m.eachBot Manager.haltBot) :=
    eachBot_induct (.refl m) (fun _ _ _ _ hid => AList.lookup_erase_ne hid) fun m' id b h _ =>
      h.trans (.haltBot m' id b)
  exact ⟨h.configs, h.routines, h.readying, h.loader, h.ready⟩

/-! ## The invariant -/

/-- The configurations of the pass that are not synced yet. -/
def LoaderPc.left : LoaderPc → List PartnerBotConfig
  | .syncing _ _ rest => rest
  | _ => []

structure Known (t : List Event) (m : Manager) : Prop where
  left : ∀ cfg ∈ m.loader.left, Loaded t cfg
  routines : ∀ r ∈ m.routines, Loaded t r.cfg
  made : ∀ cfg ∈ m.configs, Loaded t cfg
  registered : ∀ r ∈ m.routines, ∀ b, r.pc = .registered b → ∃ k, .registered k b ∈ t
  readying : ∀ id ∈ m.readying, RegisteredFor t m id
  ready : ∀ id, m.ready.lookup id = some true → MarkedFor t m id

theorem Known.new : Known [] newBotManager := ⟨nofun, nofun, nofun, nofun, nofun, nofun⟩

theorem Known.append (h : Known t m) (evs : List Event) : Known (t ++ evs) m where
  left := fun cfg hcfg => (h.left cfg hcfg).append evs
  routines := fun r hr => (h.routines r hr).append evs
  made := fun cfg hcfg => (h.made cfg hcfg).append evs
  registered := fun r hr b hpc => (h.registered r hr b hpc).imp fun _ => List.mem_append_left evs
  readying := fun id hid => (h.readying id hid).append evs
  ready := fun id hid => (h.ready id hid).append evs

theorem Known.calm (h : Known t m) (hm : Calms m m') : Known t m' := by
  have hconfigs : m.configs <+: m'.configs := hm.configs ▸ List.prefix_refl _
  refine ⟨hm.loader ▸ h.left, hm.routines ▸ h.routines, hm.configs ▸ h.made, hm.routines ▸ h.registered,
    fun id hid => ?_, fun id hid => ?_⟩
  · exact (h.readying id (hm.readying ▸ hid)).mono hconfigs
  · exact (h.ready id (hm.ready id hid)).mono hconfigs

theorem Known.setLoader {l : LoaderPc} (h : Known t m) (hl : ∀ cfg ∈ l.left, Loaded t cfg) :
    Known t { m with loader := l } :=
  ⟨hl, h.routines, h.made, h.registered, h.readying, h.ready⟩

theorem Known.passOver {l : LoaderPc} (h : Known t m) (hl : l.left = []) : Known t { m with loader := l } :=
  h.setLoader (hl ▸ List.forall_mem_nil _)

theorem Known.setRoutine {k : Nat} {pc pc' : StartPc} (h : Known t m) (hk : m.routines[k]? = some ⟨cfg, pc⟩)
    (hpc : ∀ b, pc' = .registered b → .registered k b ∈ t) : Known t (m.setRoutine k ⟨cfg, pc'⟩) := by
  refine ⟨h.left, fun r hr => ?_, h.made, fun r hr => ?_, h.readying, h.ready⟩
  · rcases List.mem_or_eq_of_mem_set hr with hr | rfl
    · exact h.routines r hr
    · exact h.routines ⟨cfg, pc⟩ (List.mem_of_getElem? hk)
  · rcases List.mem_or_eq_of_mem_set hr with hr | rfl
    · exact h.registered r hr
    · exact fun b hb => ⟨k, hpc b hb⟩

theorem Known.failBot (h : Known t m) (id : String) (old : BotHealth) (status : Status) :
    Known t (m.failBot id old status) :=
  ⟨h.left, h.routines, h.made, h.registered, h.readying, h.ready⟩

theorem Known.registerBot (h : Known t m) (hcfg : Loaded t cfg) : Known t (m.registerBot cfg) := by
  have hconfigs : (m.registerBot cfg).configs = m.configs ++ [cfg] := List.map_append
  have hmore : m.configs <+: (m.registerBot cfg).configs := hconfigs ▸ List.prefix_append m.configs [cfg]
  refine ⟨h.left, h.routines, fun cfg' hmem => ?_, h.registered, fun id hid => (h.readying id hid).mono hmore,
    fun id hid => (h.ready id (ready_of_unready hid)).mono hmore⟩
  · rw [hconfigs, List.mem_append, List.mem_singleton] at hmem
    rcases hmem with hmem | rfl
    · exact h.made cfg' hmem
    · exact hcfg

theorem Known.launchBot (h : Known t m) (hcfg : Loaded t cfg) : Known t (m.launchBot cfg) := by
  refine ⟨h.left, fun r hr => ?_, h.made, fun r hr => ?_, h.readying, h.ready⟩
  · rcases List.mem_append.mp hr with hr | hr
    · exact h.routines r hr
    · rw [List.mem_singleton.mp hr]
      exact hcfg
  · rcases List.mem_append.mp hr with hr | hr
    · exact h.registered r hr
    · rw [List.mem_singleton.mp hr]
      exact nofun

theorem Known.syncBot (h : Known t m) (hcfg : Loaded t cfg) : Known t (m.syncBot cfg) := by
  unfold Manager.syncBot
  split
  · split
    · exact h
    · exact (h.calm (.retireBot m _)).launchBot hcfg
  · exact h.launchBot hcfg

/-! ## Steps -/

theorem Known.startStep (h : Known t m) (hw : Wf m) (hs : StartStep m evs m') : Known (t ++ evs) m' := by
  cases hs with
  | @G_Create k cfg _ hk _ =>
      have hknown := (h.registerBot (h.routines _ (List.mem_of_getElem? hk))).append [.registered k m.made.length]
      refine hknown.setRoutine hk fun b hb => ?_
      cases hb
      exact List.mem_append_right _ List.mem_cons_self
  | @G_Spawn k b cfg hk =>
      have hmoved : Known (t ++ []) (m.setRoutine k ⟨cfg, .spawned b⟩) := (h.setRoutine hk (by simp)).append []
      obtain ⟨bot, hbot, hcfg⟩ := hw.routines _ (List.mem_of_getElem? hk) b rfl
      obtain ⟨k', hregistered⟩ := h.registered _ (List.mem_of_getElem? hk) b rfl
      refine ⟨hmoved.left, hmoved.routines, hmoved.made, hmoved.registered, fun id hid => ?_, hmoved.ready⟩
      rcases List.mem_append.mp hid with hid | hid
      · exact hmoved.readying id hid
      · refine ⟨k', b, bot.cfg, List.mem_append_left _ hregistered, ?_, ?_⟩
        · exact List.getElem?_map.trans (congrArg _ hbot)
        · rw [hcfg, List.mem_singleton.mp hid]
  | G_Fail hk _ _ | G_GiveUp hk _ _ => exact ((h.failBot _ _ _).setRoutine hk (by simp)).append _
  | G_Start hk | G_Return hk _ _ | G_Removed hk _ | G_Tracked hk _ | G_Changed hk _ | G_Unchanged hk _ | G_Wake hk =>
      exact (h.setRoutine hk (by simp)).append _

theorem Known.loadStep (h : Known t m) (hs : LoadStep m evs m') : Known (t ++ evs) m' := by
  cases hs with
  | @L_Loaded ph configs _ _ _ =>
      refine (h.append _).setLoader fun cfg hcfg => ?_
      exact ⟨configs, List.mem_append_right _ List.mem_cons_self, hcfg⟩
  | @L_Sync ph passed rest cfg hl =>
      have hleft : ∀ cfg' ∈ cfg :: rest, Loaded t cfg' := by
        have := h.left
        rwa [hl] at this
      refine ((h.syncBot (hleft cfg List.mem_cons_self)).setLoader fun cfg' hmem => ?_).append _
      exact hleft cfg' (List.mem_cons_of_mem _ hmem)
  | L_Sweep _ => exact ((h.calm (.removeInactive m _)).passOver rfl).append _
  | @L_Refused ph _ _ _ _ =>
      refine (h.passOver ?_).append _
      cases ph <;> rfl
  | @L_Retry attempt _ =>
      refine (h.passOver ?_).append _
      unfold nextAttempt
      split <;> rfl
  | L_Cancelled _ _ | L_Tick _ | L_Done _ _ => exact (h.passOver rfl).append _

theorem Known.outerStep (h : Known t m) (hs : OuterStep m evs m') : Known (t ++ evs) m' := by
  cases hs with
  | M_Cancel =>
      have hcalm : Calms m { m with ctxDone := true } := ⟨rfl, rfl, rfl, rfl, fun _ => id⟩
      exact (h.calm hcalm).append _
  | M_Stop => exact (h.calm (.stop m)).append _
  | M_Webhook _ => exact h.append _
  | @M_Ready partnerID hmem =>
      have hlater := h.append [.markedReady partnerID]
      refine ⟨hlater.left, hlater.routines, hlater.made, hlater.registered,
        fun id hid => hlater.readying id (List.mem_of_mem_erase hid), fun id hid => ?_⟩
      by_cases heq : id = partnerID
      · rw [heq]
        exact ⟨t, [], rfl, h.readying partnerID hmem⟩
      · exact hlater.ready id ((AList.lookup_insert_ne heq).symm.trans hid)

theorem Known.step (h : Known t m) (hw : Wf m) (hs : Step m evs m') : Known (t ++ evs) m' := by
  cases hs with
  | start hs => exact h.startStep hw hs
  | load hs => exact h.loadStep hs
  | outer hs => exact h.outerStep hs

theorem Known.run (hr : Run Step newBotManager t m) : Known t m :=
  (hr.invariant (I := fun t m => Wf m ∧ Known t m) ⟨.new, .new⟩ fun _ _ _ _ h hs => ⟨h.1.step hs, h.2.step h.1 hs⟩).2

/-! ## Requests -/

/-- A bot that has been created keeps its index and its configuration. -/
theorem configs_step (hs : Step m evs m') : m.configs <+: m'.configs := by
  cases hs with
  | start hs =>
      cases hs with
      | @G_Create _ cfg _ _ _ =>
          have hconfigs : (m.registerBot cfg).configs = m.configs ++ [cfg] := List.map_append
          exact hconfigs ▸ List.prefix_append m.configs [cfg]
      | _ => exact List.prefix_refl _
  | load hs =>
      cases hs with
      | @L_Sync _ _ _ cfg _ =>
          have hconfigs : (m.syncBot cfg).configs = m.configs := by
            unfold Manager.syncBot
            split
            · split
              · rfl
              · exact (Calms.retireBot m _).configs
            · rfl
          exact hconfigs ▸ List.prefix_refl _
      | L_Sweep _ => exact (Calms.removeInactive m _).configs ▸ List.prefix_refl _
      | _ => exact List.prefix_refl _
  | outer hs =>
      cases hs with
      | M_Stop => exact (Calms.stop m).configs ▸ List.prefix_refl _
      | _ => exact List.prefix_refl _

/-- A request that is handed to a bot names the partner of the bot. -/
def Handed (m : Manager) (t : List Event) (ev : Event) : Prop :=
  ∀ id b, ev = .webhook id (some b) → id ≠ "" ∧ '/' ∉ id.toList ∧
    (∃ cfg, m.configs[b]? = some cfg ∧ cfg.partnerID = id ∧ Loaded t cfg) ∧ MarkedFor t m id

theorem Handed.mono {ev : Event} (h : Handed m t ev) (hm : m.configs <+: m'.configs) : Handed m' t ev := by
  intro id b hev
  obtain ⟨hne, hslash, ⟨cfg, hcfg, hid⟩, hmarked⟩ := h id b hev
  refine ⟨hne, hslash, ⟨cfg, ?_, hid⟩, hmarked.mono hm⟩
  obtain ⟨more, hmore⟩ := hm
  rw [← hmore, List.getElem?_append_left (List.getElem?_eq_some_iff.mp hcfg).1]
  exact hcfg

theorem Known.handed (h : Known t m) (hw : Wf m) (id : String) : Handed m t (.webhook id (m.handleWebhook id)) := by
  intro id' b hev
  obtain ⟨rfl, hb⟩ : id = id' ∧ m.handleWebhook id = some b := by simpa using hev
  unfold Manager.handleWebhook at hb
  split at hb
  · exact nomatch hb
  · rename_i hplain
    obtain ⟨hne, hslash⟩ := not_or.mp hplain
    split at hb
    · rename_i hready
      obtain ⟨bot, hbot, hid⟩ := hw.bots id b hb
      have hcfg : m.configs[b]? = some bot.cfg := List.getElem?_map.trans (congrArg _ hbot)
      refine ⟨hne, hslash, ⟨bot.cfg, hcfg, hid, h.made _ (List.mem_of_getElem? hcfg)⟩, h.ready id ?_⟩
      cases hlookup : m.ready.lookup id with
      | none => simp [hlookup] at hready
      | some r => simpa [hlookup] using hready
    · exact nomatch hb

theorem Handed.step (h : Known t m) (hw : Wf m) (hs : Step m evs m') :
    evs = [] ∨ ∃ ev, evs = [ev] ∧ Handed m' t ev := by
  cases hs with
  | start hs =>
      cases hs with
      | G_Fail _ _ _ | G_GiveUp _ _ _ | G_Create _ _ | G_Start _ => exact .inr ⟨_, rfl, by simp [Handed]⟩
      | G_Spawn _ | G_Return _ _ _ | G_Removed _ _ | G_Tracked _ _ | G_Changed _ _ | G_Unchanged _ _ | G_Wake _ =>
          exact .inl rfl
  | load hs =>
      cases hs with
      | L_Refused _ _ _ | L_Loaded _ _ _ | L_Sync _ | L_Sweep _ => exact .inr ⟨_, rfl, by simp [Handed]⟩
      | L_Retry _ | L_Cancelled _ _ | L_Tick _ | L_Done _ _ => exact .inl rfl
  | outer hs =>
      cases hs with
      | M_Cancel | M_Stop | M_Ready _ => exact .inr ⟨_, rfl, by simp [Handed]⟩
      | M_Webhook id => exact .inr ⟨_, rfl, h.handed hw id⟩

theorem Handed.run (hr : Run Step newBotManager t m) : Each (Handed m) t := by
  induction hr with
  | refl => exact .nil
  | snoc hr hs ih =>
      have hkept : Each (Handed _) _ := fun t₁ ev t₂ heq => (ih t₁ ev t₂ heq).mono (configs_step hs)
      rcases Handed.step (Known.run hr) (Wf.run hr) hs with rfl | ⟨ev, rfl, hev⟩
      · rw [List.append_nil]
        exact hkept
      · exact hkept.snoc hev

end Gopkg.Telegram.Core
