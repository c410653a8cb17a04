import Gopkg.Telegram.Core.Lemmas.Tables

/-!
# Who serves a partner

As long as a token is tracked for a partner, the `startBot` goroutine that was started last for the partner holds
that token, and it lives unless it gave up.
-/

namespace Gopkg.Telegram.Core

open Client Lts

variable {m m' : Manager} {t evs : List Event} {id token : String} {k : Nat}

/-! ## What a pass does to the tokens -/

theorem tokens_syncBot (m : Manager) (cfg : PartnerBotConfig) :
    (m.syncBot cfg).tokens.lookup cfg.partnerID = some cfg.botToken := by
  rcases syncBot_cases m cfg with ⟨heq, ht⟩ | ⟨m₁, heq, _, _⟩
  · rw [heq, ht]
  · rw [heq]
    exact AList.lookup_insert _

theorem tokens_syncBot_ne {cfg : PartnerBotConfig} (hid : id ≠ cfg.partnerID) :
    (m.syncBot cfg).tokens.lookup id = m.tokens.lookup id := by
  rcases syncBot_cases m cfg with ⟨heq, _⟩ | ⟨m₁, heq, htokens, _⟩
  · rw [heq]
  · rw [heq, ← htokens]
    exact AList.lookup_insert_ne hid

/-- The sweep takes tokens away, but none of an active partner. -/
structure Swept (activeIDs : List String) (m m' : Manager) : Prop where
  routines : m'.routines = m.routines
  tokens : ∀ id token, m'.tokens.lookup id = some token → m.tokens.lookup id = some token
  active : ∀ id ∈ activeIDs, m'.tokens.lookup id = m.tokens.lookup id

theorem swept_removeInactive (m : Manager) (activeIDs : List String) :
    Swept activeIDs m (m.removeInactive activeIDs) := by
  refine eachBot_induct (P := Swept activeIDs m) ⟨rfl, fun _ _ h => h, fun _ _ => rfl⟩
    (fun m id b id' hid => ?_) fun m₁ id b h _ => ?_
  · split
    · rfl
    · exact AList.lookup_erase_ne hid
  · split
    · exact h
    · rename_i hinactive
      refine ⟨h.routines, fun id' token ht => h.tokens id' token (lookup_of_erase ht), fun id' hid' => ?_⟩
      have hne : id' ≠ id := fun heq => hinactive (heq ▸ hid')
      exact (AList.lookup_erase_ne hne).trans (h.active id' hid')

/-! ## The goroutine in charge -/

/-- The goroutine `k` was started last for the partner. -/
structure Latest (m : Manager) (id : String) (k : Nat) (r : Routine) : Prop where
  here : m.routines[k]? = some r
  partner : r.cfg.partnerID = id
  last : ∀ k' r', k < k' → m.routines[k']? = some r' → r'.cfg.partnerID ≠ id

/-- The goroutine started last for the partner holds the token, and it lives unless it gave up. -/
def InCharge (t : List Event) (m : Manager) (id token : String) : Prop :=
  ∃ k r, Latest m id k r ∧ r.cfg.botToken = token ∧ (r.pc ≠ .exited ∨ .gaveUp k ∈ t)

theorem Latest.congr {r : Routine} (h : Latest m id k r) (hr : m'.routines = m.routines) : Latest m' id k r := by
  refine ⟨?_, h.partner, ?_⟩
  · rw [hr]
    exact h.here
  · rw [hr]
    exact h.last

theorem InCharge.same (h : InCharge t m id token) (hr : m'.routines = m.routines) :
    InCharge (t ++ evs) m' id token := by
  obtain ⟨k, r, hl, htoken, hlive⟩ := h
  exact ⟨k, r, hl.congr hr, htoken, hlive.imp_right (List.mem_append_left evs)⟩

theorem Latest.set {cfg : PartnerBotConfig} {pc pc' : StartPc} {j : Nat} {r r' : Routine}
    (h : Latest m id j r) (hk : m.routines[k]? = some ⟨cfg, pc⟩) (hm : m'.routines = m.routines.set k ⟨cfg, pc'⟩)
    (hj : m'.routines[j]? = some r') (hcfg : r'.cfg = r.cfg) : Latest m' id j r' := by
  refine ⟨hj, hcfg ▸ h.partner, fun i q hi hq => ?_⟩
  rw [hm] at hq
  rcases getElem?_set_cases hk hq with ⟨rfl, rfl⟩ | ⟨_, hq⟩
  · exact h.last i ⟨cfg, pc⟩ hi hk
  · exact h.last i q hi hq

/-- A goroutine that ends has given up, or it was not in charge. -/
theorem InCharge.set {cfg : PartnerBotConfig} {pc pc' : StartPc} (h : InCharge t m id token)
    (hk : m.routines[k]? = some ⟨cfg, pc⟩) (hm : m'.routines = m.routines.set k ⟨cfg, pc'⟩)
    (hend : pc' = .exited → .gaveUp k ∈ evs ∨ ¬ (cfg.partnerID = id ∧ cfg.botToken = token)) :
    InCharge (t ++ evs) m' id token := by
  obtain ⟨j, r, hl, htoken, hlive⟩ := h
  by_cases hjk : k = j
  · subst hjk
    have hr : (⟨cfg, pc⟩ : Routine) = r := Option.some.inj (hk.symm.trans hl.here)
    subst hr
    have hset : m'.routines[k]? = some ⟨cfg, pc'⟩ := by
      rw [hm]
      exact getElem?_set_slot hk
    refine ⟨k, ⟨cfg, pc'⟩, hl.set hk hm hset rfl, htoken, ?_⟩
    by_cases hexit : pc' = .exited
    · rcases hend hexit with hgave | hnot
      · exact .inr (List.mem_append_right t hgave)
      · exact absurd ⟨hl.partner, htoken⟩ hnot
    · exact .inl hexit
  · have hset : m'.routines[j]? = some r := by
      rw [hm, List.getElem?_set_ne hjk]
      exact hl.here
    exact ⟨j, r, hl.set hk hm hset rfl, htoken, hlive.imp_right (List.mem_append_left evs)⟩

theorem inCharge_launchBot (t : List Event) (m : Manager) (cfg : PartnerBotConfig) :
    InCharge t (m.launchBot cfg) cfg.partnerID cfg.botToken := by
  refine ⟨m.routines.length, ⟨cfg, .creating⟩, ⟨List.getElem?_concat_length, rfl, fun k' r' hk' hr' => ?_⟩, rfl,
    .inl fun h => nomatch h⟩
  obtain ⟨hlt, _⟩ := List.getElem?_eq_some_iff.mp hr'
  simp only [Manager.launchBot, List.length_append, List.length_singleton] at hlt
  omega

theorem InCharge.launchBot {cfg : PartnerBotConfig} (h : InCharge t m id token) (hid : id ≠ cfg.partnerID) :
    InCharge (t ++ evs) (m.launchBot cfg) id token := by
  obtain ⟨k, r, hl, htoken, hlive⟩ := h
  obtain ⟨hlt, _⟩ := List.getElem?_eq_some_iff.mp hl.here
  refine ⟨k, r, ⟨(List.getElem?_append_left hlt).trans hl.here, hl.partner, fun k' r' hk' hr' => ?_⟩, htoken,
    hlive.imp_right (List.mem_append_left evs)⟩
  rcases getElem?_snoc_cases (l := m.routines) hr' with ⟨_, rfl⟩ | hr'
  · exact Ne.symm hid
  · exact hl.last k' r' hk' hr'

theorem InCharge.syncBot {cfg : PartnerBotConfig}
    (h : ∀ id token, m.tokens.lookup id = some token → InCharge t m id token)
    (ht : (m.syncBot cfg).tokens.lookup id = some token) : InCharge (t ++ evs) (m.syncBot cfg) id token := by
  rcases syncBot_cases m cfg with ⟨heq, _⟩ | ⟨m₁, heq, htokens, hroutines⟩
  · rw [heq] at ht ⊢
    exact (h id token ht).same rfl
  · by_cases hid : id = cfg.partnerID
    · rw [hid, tokens_syncBot] at ht
      cases ht
      rw [hid, heq]
      exact inCharge_launchBot _ m₁ cfg
    · rw [tokens_syncBot_ne hid] at ht
      rw [heq]
      have hold : InCharge t m₁ id token := by
        obtain ⟨k, r, hl, hlive⟩ := h id token ht
        exact ⟨k, r, hl.congr hroutines, hlive⟩
      exact hold.launchBot hid

/-! ## Steps -/

structure Serving (t : List Event) (m : Manager) : Prop where
  tracked : ∀ id token, m.tokens.lookup id = some token → InCharge t m id token
  passed : ∀ ph passed rest, m.loader = .syncing ph passed rest →
    ((passed ++ rest).map (·.partnerID)).Nodup →
    ∀ cfg ∈ passed, m.tokens.lookup cfg.partnerID = some cfg.botToken

theorem Serving.startStep (h : Serving t m) (hs : StartStep m evs m') : Serving (t ++ evs) m' := by
  cases hs with
  | G_Fail hk _ _ | G_Create hk _ | G_Spawn hk | G_Start hk | G_Return hk _ _ | G_Tracked hk _ | G_Unchanged hk _
  | G_Wake hk =>
      refine ⟨fun id token ht => (h.tracked id token ht).set hk rfl fun hpc => ?_, h.passed⟩
      exact nomatch hpc
  | G_GiveUp hk _ _ =>
      refine ⟨fun id token ht => (h.tracked id token ht).set hk rfl fun _ => ?_, h.passed⟩
      exact .inl (List.mem_singleton.mpr rfl)
  | G_Removed hk hnone =>
      refine ⟨fun id token ht => (h.tracked id token ht).set hk rfl fun _ => .inr ?_, h.passed⟩
      rintro ⟨rfl, _⟩
      have ht : m.tokens.lookup _ = some token := ht
      rw [hnone] at ht
      exact nomatch ht
  | G_Changed hk hne =>
      refine ⟨fun id token ht => (h.tracked id token ht).set hk rfl fun _ => .inr ?_, h.passed⟩
      rintro ⟨rfl, htoken⟩
      have ht : m.tokens.lookup _ = some token := ht
      rw [ht] at hne
      exact hne htoken.symm

theorem Serving.loadStep (h : Serving t m) (hs : LoadStep m evs m') : Serving (t ++ evs) m' := by
  cases hs with
  | @L_Sync ph passed rest cfg hl =>
      refine ⟨fun id token ht => ?_, fun ph' passed' rest' hl' hnodup cfg' hcfg' => ?_⟩
      · obtain ⟨k, r, hl, hrest⟩ := InCharge.syncBot h.tracked ht
        exact ⟨k, r, hl.congr rfl, hrest⟩
      · cases hl'
        rw [List.append_assoc] at hnodup
        rcases List.mem_append.mp hcfg' with hold | hnew
        · have hne : cfg'.partnerID ≠ cfg.partnerID := by
            rw [List.map_append, List.nodup_append] at hnodup
            exact hnodup.2.2 _ (List.mem_map_of_mem hold) _ (List.mem_map_of_mem List.mem_cons_self)
          exact (tokens_syncBot_ne hne).trans (h.passed ph passed (cfg :: rest) hl hnodup cfg' hold)
        · rw [List.mem_singleton.mp hnew]
          exact tokens_syncBot m cfg
  | @L_Sweep ph passed hl =>
      have hswept := swept_removeInactive m (passed.map (·.partnerID))
      refine ⟨fun id token ht => ?_, fun _ _ _ hl' => nomatch hl'⟩
      exact (h.tracked id token (hswept.tokens id token ht)).same hswept.routines
  | L_Loaded _ _ _ =>
      refine ⟨fun id token ht => (h.tracked id token ht).same rfl, fun ph' passed' rest' hl' _ cfg' hcfg' => ?_⟩
      cases hl'
      exact nomatch hcfg'
  | @L_Refused ph err _ _ _ =>
      refine ⟨fun id token ht => (h.tracked id token ht).same rfl, fun _ _ _ hl' => ?_⟩
      cases ph <;> exact nomatch hl'
  | @L_Retry attempt _ =>
      refine ⟨fun id token ht => (h.tracked id token ht).same rfl, fun _ _ _ hl' => ?_⟩
      simp only [nextAttempt] at hl'
      split at hl' <;> exact nomatch hl'
  | L_Cancelled _ _ | L_Tick _ | L_Done _ _ =>
      exact ⟨fun id token ht => (h.tracked id token ht).same rfl, fun _ _ _ hl' => nomatch hl'⟩

theorem Serving.step (h : Serving t m) (hs : Step m evs m') : Serving (t ++ evs) m' := by
  cases hs with
  | start hs => exact h.startStep hs
  | load hs => exact h.loadStep hs
  | outer hs =>
      cases hs with
      | M_Stop =>
          obtain ⟨htokens, hroutines, hloader⟩ := stop_frame m
          constructor
          · rw [htokens]
            exact fun id token ht => (h.tracked id token ht).same hroutines
          · rw [htokens, hloader]
            exact h.passed
      | M_Cancel | M_Ready _ | M_Webhook _ =>
          exact ⟨fun id token ht => (h.tracked id token ht).same rfl, h.passed⟩

theorem Serving.run (hr : Run Step newBotManager t m) : Serving t m :=
  hr.invariant ⟨nofun, nofun⟩ fun _ _ _ _ h hs => h.step hs

/-! ## Failures -/

/-- A goroutine may fail again and again, as long as it has not to give up. -/
theorem failing_run {cfg : PartnerBotConfig} (n : Nat) : ∀ (m : Manager) (h : BotHealth),
    m.routines[k]? = some ⟨cfg, .creating⟩ → m.health.lookup cfg.partnerID = some h →
    h.failures + n < maxConsecutiveFailures → ∃ t health h', Run Step m t { m with health := health } ∧
      health.lookup cfg.partnerID = some h' ∧ h'.failures = h.failures + n := by
  induction n with
  | zero => exact fun m h _ hh _ => ⟨[], m.health, h, .refl, hh, rfl⟩
  | succ n ih =>
      intro m h hk hh hlt
      obtain ⟨_, hget⟩ := List.getElem?_eq_some_iff.mp hk
      have hself : m.routines.set k ⟨cfg, .creating⟩ = m.routines := by
        rw [← hget]
        exact List.set_getElem_self _
      have hfail : Step m _ _ := .start (.G_Fail hk hh (by omega))
      have hwake : Step ((m.failBot cfg.partnerID h .degraded).setRoutine k ⟨cfg, .sleeping⟩) _ _ :=
        .start (.G_Wake (getElem?_set_slot hk))
      have hback : ((m.failBot cfg.partnerID h .degraded).setRoutine k ⟨cfg, .sleeping⟩).setRoutine k ⟨cfg, .creating⟩ =
          m.failBot cfg.partnerID h .degraded := by
        simp only [Manager.setRoutine, Manager.failBot, List.set_set, hself]
      rw [hback] at hwake
      obtain ⟨t, health, h', hr, hh', hn⟩ := ih (m.failBot cfg.partnerID h .degraded) ⟨.degraded, h.failures + 1⟩ hk
        (AList.lookup_insert _) (by change h.failures + 1 + n < _; omega)
      refine ⟨_, health, h', (hr.cons hwake).cons hfail, hh', ?_⟩
      rw [hn]
      exact Nat.add_right_comm h.failures 1 n

end Gopkg.Telegram.Core
