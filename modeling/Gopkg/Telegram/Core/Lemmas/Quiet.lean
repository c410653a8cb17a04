import Gopkg.Telegram.Core.Lemmas.Tables

/-!
# Quiet managers

When no bot is ever registered or started again.
-/

namespace Gopkg.Telegram.Core

open Client Lts

variable {m m' : Manager} {t evs : List Event} {k b : Nat} {cfg : PartnerBotConfig}

/-- A bot is registered, or `Start` is called on one. -/
def Event.revives : Event → Bool
  | .registered _ _ | .started _ _ => true
  | _ => false

/-- No bot is ever registered or started again. -/
def Final (m : Manager) : Prop := ∀ t m', Run Step m t m' → ∀ ev ∈ t, ev.revives = false

/-- The loop that loads the configurations has returned, or its last attempt has failed. -/
def LoaderPc.Over : LoaderPc → Prop
  | .exited => True
  | .waiting attempt => maxRetries ≤ attempt
  | _ => False

/-- The goroutine has ended, its token is not the tracked one where it is going to look, or it is in `Start` of a bot
that is not stopped and that nobody can stop any more. -/
def Routine.Quiet (m : Manager) (r : Routine) : Prop :=
  match r.pc with
  | .exited => True
  | .running b => m.tokens.lookup r.cfg.partnerID ≠ some r.cfg.botToken ∨
      (m.bots.lookup r.cfg.partnerID ≠ some b ∧ ∀ bot, m.made[b]? = some bot → bot.stopped = false)
  | .checkTracked => m.tokens.lookup r.cfg.partnerID ≠ some r.cfg.botToken
  | .checkToken => (m.tokens.lookup r.cfg.partnerID).getD "" ≠ r.cfg.botToken
  | .creating | .sleeping | .registered _ | .spawned _ => False

structure Quiet (m : Manager) : Prop where
  loader : m.loader.Over
  routines : ∀ r ∈ m.routines, r.Quiet m

/-! ## `Stop` -/

/-- A bot that `m.bots` does not have is left alone. -/
theorem stop_made (m : Manager) (b : Nat) (hb : ∀ id, m.bots.lookup id ≠ some b) : m.stop.made[b]? = m.made[b]? := by
  refine (eachBot_induct (P := fun m' => (∀ id, m'.bots.lookup id ≠ some b) ∧ m'.made[b]? = m.made[b]?) ⟨hb, rfl⟩
    (fun _ _ _ _ hid => AList.lookup_erase_ne hid) fun m₁ id b' h hlookup => ?_).2
  have hne : b' ≠ b := by
    rintro rfl
    exact h.1 id hlookup
  exact ⟨fun id' hid' => h.1 id' (lookup_of_erase hid'), (made_stopBot_ne hne).trans h.2⟩

theorem stop_stops {id : String} {bot : PartnerBot} (hb : m.bots.lookup id = some b) (hbot : m.made[b]? = some bot) :
    ∃ bot', m.stop.made[b]? = some bot' ∧ bot'.stopped = true := by
  have key : ∃ bot', m.stop.made[b]? = some bot' ∧ (bot'.stopped = true ∨ m.stop.bots.lookup id = some b) := by
    refine eachBot_induct
      (P := fun m' => ∃ bot', m'.made[b]? = some bot' ∧ (bot'.stopped = true ∨ m'.bots.lookup id = some b))
      ⟨bot, hbot, .inr hb⟩ (fun _ _ _ _ hid => AList.lookup_erase_ne hid) fun m₁ id' b' h hlookup => ?_
    obtain ⟨bot₁, hbot₁, h⟩ := h
    by_cases hbb : b' = b
    · subst hbb
      exact ⟨_, made_stopBot_eq hbot₁, .inl rfl⟩
    · refine ⟨bot₁, (made_stopBot_ne hbb).trans hbot₁, h.imp_right fun hid => ?_⟩
      have hne : id ≠ id' := by
        rintro rfl
        exact hbb (Option.some.inj (hlookup.symm.trans hid))
      exact (AList.lookup_erase_ne hne).trans hid
  obtain ⟨bot', hbot', hstopped | hlookup⟩ := key
  · exact ⟨bot', hbot', hstopped⟩
  · exact nomatch (lookup_eachBot (fun _ _ _ => rfl) m id).symm.trans hlookup

/-! ## A quiet manager stays quiet -/

theorem Quiet.setRoutine {r : Routine} (h : Quiet m) (hr : r.Quiet m) : Quiet (m.setRoutine k r) := by
  refine ⟨h.loader, fun r' hr' => ?_⟩
  rcases List.mem_or_eq_of_mem_set hr' with hr' | rfl
  · exact h.routines r' hr'
  · exact hr

theorem Quiet.at (h : Quiet m) {pc : StartPc} (hk : m.routines[k]? = some ⟨cfg, pc⟩) :
    Routine.Quiet m ⟨cfg, pc⟩ := h.routines _ (List.mem_of_getElem? hk)

theorem Quiet.stop (hw : Wf m) (h : Quiet m) : Quiet m.stop := by
  obtain ⟨htokens, hroutines, hloader⟩ := stop_frame m
  refine ⟨hloader ▸ h.loader, fun r hr => ?_⟩
  rw [hroutines] at hr
  have hquiet := h.routines r hr
  obtain ⟨cfg, pc⟩ := r
  unfold Routine.Quiet at hquiet ⊢
  rw [htokens]
  cases pc with
  | running b =>
      rcases hquiet with hquiet | ⟨hbots, hmade⟩
      · exact .inl hquiet
      · -- the bot of another partner is another bot
        obtain ⟨bot, hbot, hcfg⟩ := hw.routines _ hr b rfl
        have hnot : ∀ id, m.bots.lookup id ≠ some b := by
          intro id hid
          obtain ⟨bot', hbot', rfl⟩ := hw.bots id b hid
          rw [hbot] at hbot'
          cases hbot'
          rw [hcfg] at hid
          exact hbots hid
        refine .inr ⟨fun hlookup => ?_, ?_⟩
        · exact nomatch (lookup_eachBot (fun _ _ _ => rfl) m _).symm.trans hlookup
        · rw [stop_made m b hnot]
          exact hmade
  | exited | checkTracked | checkToken | creating | sleeping | registered _ | spawned _ => exact hquiet

theorem Quiet.startStep (h : Quiet m) (hs : StartStep m evs m') : Quiet m' ∧ ∀ ev ∈ evs, ev.revives = false := by
  cases hs with
  | G_Fail hk _ _ | G_GiveUp hk _ _ | G_Create hk _ | G_Spawn hk | G_Start hk | G_Wake hk => exact (h.at hk).elim
  | G_Return hk hbot hstopped =>
      refine ⟨h.setRoutine ?_, nofun⟩
      rcases h.at hk with hquiet | ⟨_, hmade⟩
      · exact hquiet
      · rw [hmade _ hbot] at hstopped
        exact nomatch hstopped
  | G_Removed _ _ | G_Changed _ _ => exact ⟨h.setRoutine trivial, nofun⟩
  | @G_Tracked k cfg token hk htoken =>
      refine ⟨h.setRoutine ?_, nofun⟩
      have hquiet : m.tokens.lookup cfg.partnerID ≠ some cfg.botToken := h.at hk
      rw [htoken] at hquiet
      change (m.tokens.lookup cfg.partnerID).getD "" ≠ cfg.botToken
      rw [htoken]
      exact fun heq => hquiet (congrArg some heq)
  | G_Unchanged hk hsame => exact absurd hsame (h.at hk)

theorem Quiet.step (hw : Wf m) (h : Quiet m) (hs : Step m evs m') : Quiet m' ∧ ∀ ev ∈ evs, ev.revives = false := by
  cases hs with
  | start hs => exact h.startStep hs
  | load hs =>
      have hover := h.loader
      cases hs with
      | L_Refused _ hl _ | L_Loaded _ hl _ | L_Sync hl | L_Sweep hl | L_Tick hl | L_Done hl _ =>
          rw [hl] at hover
          exact hover.elim
      | L_Retry hl =>
          rw [hl] at hover
          refine ⟨⟨?_, h.routines⟩, nofun⟩
          change (nextAttempt _).Over
          rw [nextAttempt, if_neg (Nat.not_lt.mpr hover)]
          trivial
      | L_Cancelled _ _ => exact ⟨⟨trivial, h.routines⟩, nofun⟩
  | outer hs =>
      cases hs with
      | M_Stop => exact ⟨h.stop hw, by simp [Event.revives]⟩
      | M_Cancel | M_Ready _ | M_Webhook _ => exact ⟨⟨h.loader, h.routines⟩, by simp [Event.revives]⟩

theorem Quiet.final (hw : Wf m) (h : Quiet m) : Final m := by
  intro t m' hr
  refine (hr.invariant (I := fun t m => (Wf m ∧ Quiet m) ∧ ∀ ev ∈ t, ev.revives = false) ⟨⟨hw, h⟩, nofun⟩
    fun t m evs m' hi hs => ?_).2
  obtain ⟨hquiet, hevs⟩ := hi.1.2.step hi.1.1 hs
  exact ⟨⟨hi.1.1.step hs, hquiet⟩, List.forall_mem_append.mpr ⟨hi.2, hevs⟩⟩

/-! ## Only a quiet manager is final -/

theorem Final.step (h : Final m) (hs : Step m evs m') : Final m' :=
  fun _ _ hr ev hev => h _ _ (hr.cons hs) ev (List.mem_append_right evs hev)

theorem Final.events (h : Final m) (hs : Step m evs m') : ∀ ev ∈ evs, ev.revives = false := h _ _ (.single hs)

theorem routines_set {r r' : Routine} (hk : m.routines[k]? = some r) :
    (m.setRoutine k r').routines[k]? = some r' :=
  getElem?_set_slot hk

theorem Final.not_creating (hw : Wf m) (h : Final m) (hk : m.routines[k]? = some ⟨cfg, .creating⟩) : False := by
  obtain ⟨old, hold⟩ := hw.health _ (List.mem_of_getElem? hk)
  exact nomatch h.events (.start (.G_Create hk hold)) _ (List.mem_singleton.mpr rfl)

theorem Final.not_sleeping (hw : Wf m) (h : Final m) (hk : m.routines[k]? = some ⟨cfg, .sleeping⟩) : False := by
  have hs : Step m _ _ := .start (.G_Wake hk)
  exact (h.step hs).not_creating (hw.step hs) (routines_set hk)

theorem Final.not_spawned (h : Final m) (hk : m.routines[k]? = some ⟨cfg, .spawned b⟩) : False :=
  nomatch h.events (.start (.G_Start hk)) _ (List.mem_singleton.mpr rfl)

theorem Final.not_registered (h : Final m) (hk : m.routines[k]? = some ⟨cfg, .registered b⟩) : False :=
  (h.step (.start (.G_Spawn hk))).not_spawned (routines_set hk)

theorem Final.checkToken (hw : Wf m) (h : Final m) (hk : m.routines[k]? = some ⟨cfg, .checkToken⟩) :
    (m.tokens.lookup cfg.partnerID).getD "" ≠ cfg.botToken := by
  intro hsame
  have hs : Step m _ _ := .start (.G_Unchanged hk hsame)
  exact (h.step hs).not_sleeping (hw.step hs) (routines_set hk)

theorem Final.checkTracked (hw : Wf m) (h : Final m) (hk : m.routines[k]? = some ⟨cfg, .checkTracked⟩) :
    m.tokens.lookup cfg.partnerID ≠ some cfg.botToken := by
  intro htoken
  have hs : Step m _ _ := .start (.G_Tracked hk htoken)
  refine (h.step hs).checkToken (hw.step hs) (routines_set hk) ?_
  change (m.tokens.lookup cfg.partnerID).getD "" = cfg.botToken
  rw [htoken]
  rfl

theorem Final.returned (hw : Wf m) (h : Final m) {bot : PartnerBot} (hk : m.routines[k]? = some ⟨cfg, .running b⟩)
    (hbot : m.made[b]? = some bot) (hstopped : bot.stopped = true) :
    m.tokens.lookup cfg.partnerID ≠ some cfg.botToken := by
  have hs : Step m _ _ := .start (.G_Return hk hbot hstopped)
  have hchecked := (h.step hs).checkTracked (hw.step hs) (routines_set hk)
  exact hchecked

theorem Final.running (hw : Wf m) (h : Final m) (hk : m.routines[k]? = some ⟨cfg, .running b⟩) :
    Routine.Quiet m ⟨cfg, .running b⟩ := by
  by_cases htoken : m.tokens.lookup cfg.partnerID = some cfg.botToken
  · obtain ⟨bot, hbot, hcfg⟩ := hw.routines _ (List.mem_of_getElem? hk) b rfl
    refine .inr ⟨fun hlookup => ?_, fun bot' hbot' => ?_⟩
    · -- another call of `Stop` ends this `Start`
      have hs : Step m _ _ := .outer .M_Stop
      obtain ⟨htokens, hroutines, _⟩ := stop_frame m
      obtain ⟨bot', hbot', hstopped⟩ := stop_stops hlookup hbot
      rw [← hroutines] at hk
      rw [← htokens] at htoken
      exact (h.step hs).returned (hw.step hs) hk hbot' hstopped htoken
    · refine Bool.eq_false_iff.mpr fun hstopped => ?_
      exact h.returned hw hk hbot' hstopped htoken
  · exact .inl htoken

/-- A pass that comes to a token that is not the tracked one starts a goroutine. -/
theorem Final.synced {ph : Phase} {passed rest : List PartnerBotConfig} (hw : Wf m) (h : Final m)
    (hl : m.loader = .syncing ph passed (cfg :: rest)) : m.tokens.lookup cfg.partnerID = some cfg.botToken := by
  rcases syncBot_cases m cfg with ⟨_, hsame⟩ | ⟨m₁, heq, _, _⟩
  · exact hsame
  · have hs : Step m _ _ := .load (.L_Sync hl)
    have hk : (m.syncBot cfg).routines[m₁.routines.length]? = some ⟨cfg, .creating⟩ := by
      rw [heq]
      exact List.getElem?_concat_length
    exact ((h.step hs).not_creating (hw.step hs) hk).elim

theorem Final.not_fetching {ph : Phase} (hw : Wf m) (h : Final m) : m.loader ≠ .fetching ph := by
  intro hl
  have hsame : ∀ token, m.tokens.lookup "" = some token := by
    intro token
    have hs : Step m _ _ := .load (.L_Loaded (.body (.ok ⟨true, [⟨"", "", token⟩], none⟩)) hl rfl)
    have hsynced := (h.step hs).synced (hw.step hs) rfl
    exact hsynced
  have hab := (hsame "a").symm.trans (hsame "b")
  revert hab
  decide

theorem Final.not_selecting (hw : Wf m) (h : Final m) : m.loader ≠ .selecting := by
  intro hl
  have hs : Step m _ _ := .load (.L_Tick hl)
  exact (h.step hs).not_fetching (hw.step hs) rfl

theorem Final.not_syncing {ph : Phase} {passed rest : List PartnerBotConfig} (hw : Wf m) (h : Final m) :
    m.loader ≠ .syncing ph passed rest := by
  -- the pass comes to its end, and the next one may begin
  induction rest generalizing m passed with
  | nil =>
      intro hl
      have hs : Step m _ _ := .load (.L_Sweep hl)
      exact (h.step hs).not_selecting (hw.step hs) rfl
  | cons cfg rest ih =>
      intro hl
      have hs : Step m _ _ := .load (.L_Sync hl)
      exact ih (hw.step hs) (h.step hs) rfl

theorem Final.loader (hw : Wf m) (h : Final m) : m.loader.Over := by
  cases hl : m.loader with
  | fetching ph => exact h.not_fetching hw hl
  | syncing ph passed rest => exact h.not_syncing hw hl
  | waiting attempt =>
      refine Nat.not_lt.mp fun hlt => ?_
      have hs : Step m _ _ := .load (.L_Retry hl)
      exact (h.step hs).not_fetching (hw.step hs) (if_pos hlt)
  | selecting => exact h.not_selecting hw hl
  | exited => trivial

theorem Final.quiet (hw : Wf m) (h : Final m) : Quiet m := by
  refine ⟨h.loader hw, fun r hr => ?_⟩
  obtain ⟨k, hk⟩ := List.getElem?_of_mem hr
  obtain ⟨cfg, pc⟩ := r
  cases pc with
  | creating => exact h.not_creating hw hk
  | sleeping => exact h.not_sleeping hw hk
  | registered b => exact h.not_registered hk
  | spawned b => exact h.not_spawned hk
  | running b => exact h.running hw hk
  | checkTracked => exact h.checkTracked hw hk
  | checkToken => exact h.checkToken hw hk
  | exited => trivial

end Gopkg.Telegram.Core
