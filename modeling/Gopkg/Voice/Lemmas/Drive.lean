import Gopkg.Voice.Lemmas.AdapterErrors
import Gopkg.Voice.Lemmas.Dispatch

/-!
# Calls that come to their end

After the first error of an adapter, `Run` can still return: the goroutines bring the error to `recordEnd`,
the context of the run is cancelled, and the read loops exit once their peers close the connections.
-/

namespace Gopkg.Voice

open Lts

variable {V : Type} {C : CallSetup} {t evs : List (Event V)} {s s' : CallState V} {e : Err V}

/-! ## The cancellation after an error -/

/-- The way from a recorded error to `cancel()`. -/
def Exit.Cancels : Exit V → Prop
  | .record _ (some _) | .report _ | .cancel => True
  | _ => False

def AudioPc.Cancels : AudioPc V → Prop
  | .exiting x => x.Cancels
  | _ => False

def EventsPc.Cancels : EventsPc V → Prop
  | .exiting x => x.Cancels
  | _ => False

/-- After an error was recorded, the context of the run is done or somebody is about to cancel it. -/
def CancelLaw (s : CallState V) : Prop :=
  ∀ e, s.ended = some (.fatalError, e) → s.runCtx.isSome ∨ s.audio.Cancels ∨ s.events.Cancels

theorem CancelLaw.of_done (h : s.runCtx.isSome) : CancelLaw s := fun _ _ => .inl h

/-- A step that records nothing and stops nobody on the way to `cancel()`. -/
theorem CancelLaw.mono (h : CancelLaw s) (hended : s'.ended = s.ended) (hrun : s'.runCtx = s.runCtx)
    (ha : s.audio.Cancels → s'.audio.Cancels) (he : s.events.Cancels → s'.events.Cancels) : CancelLaw s' := by
  intro e hx
  rw [hended] at hx
  rw [hrun]
  exact (h e hx).imp_right (Or.imp ha he)

/-- The goroutine on its way out reaches `cancel()`, or it has recorded no error. -/
theorem CancelLaw.exit (h : CancelLaw s) {s₁ : CallState V} {x x' : Exit V} (hx : x.Lawful s.ended)
    (hs : ExitStep s x evs s₁ x') :
    ∀ e, s₁.ended = some (.fatalError, e) → s₁.runCtx.isSome ∨ x'.Cancels ∨
      (¬ x.Cancels ∧ (s.audio.Cancels ∨ s.events.Cancels)) := by
  intro e he
  cases hs with
  | @X_Closed r =>
      cases hs : s.ended with
      | none =>
          rw [State.recordEnd, hs] at he
          simp only [Option.none_or, Option.some.injEq] at he
          split at he
          · cases he
          · cases he
            cases hx
      | some y =>
          rw [State.recordEnd, hs] at he
          exact (h e (hs.trans he)).imp_right fun hc => .inr ⟨id, hc⟩
  | X_Failed => exact .inr (.inl trivial)
  | X_Report => exact .inr (.inl trivial)
  | X_Cancel => exact .inl (by simp [State.cancel])

theorem CancelLaw.mainStep (h : CancelLaw s) (ho : Outcomes t s) (hs : MainStep (phoneCall V C) s evs s') :
    CancelLaw s' := by
  have hm := ho.main
  cases hs with
  | M_Start hp =>
      rw [hp] at hm
      intro e he
      exact nomatch hm.1.symm.trans he
  | M_ContextDone _ _ | M_End _ => exact .of_done (by simp [State.cancel])
  | M_Resolved _ _ | M_Unresolved _ _ | M_Fail _ | M_Failed _ | M_Open _ _ | M_Opened _ _ | M_OpenFailed _ _
  | M_Injected _ | M_Receive _ | M_Events _ | M_Done _ _ _ | M_Drained _ _ _ | M_CloseTransport _
  | M_CloseLLM _ => exact h.mono rfl rfl id id

theorem CancelLaw.step (h : CancelLaw s) (ho : Outcomes t s) (hs : Step (phoneCall V C) s evs s') :
    CancelLaw s' := by
  have hselect : ∀ {p : AudioPc V}, s.audio = p → ¬ p.Cancels → ∀ {q : Prop}, s.audio.Cancels → q :=
    fun hp hn _ hc => absurd (hp ▸ hc) hn
  have hselect' : ∀ {p : EventsPc V}, s.events = p → ¬ p.Cancels → ∀ {q : Prop}, s.events.Cancels → q :=
    fun hp hn _ hc => absurd (hp ▸ hc) hn
  cases hs with
  | main hs => exact h.mainStep ho hs
  | audio hs =>
      cases hs with
      | A_Frame ha _ _ | A_Closed ha _ | A_Error ha _ | A_NoError ha _ _ | A_Send _ ha =>
          exact h.mono rfl rfl (hselect ha id) id
      | @A_Exit s₁ x x' _ ha hx =>
          have hlaw := ho.audio
          rw [ha] at hlaw
          have hev : s₁.events = s.events := by cases hx <;> rfl
          intro e he
          rcases h.exit hlaw hx e he with hrun | hc | ⟨hn, hc | hc⟩
          · exact .inl hrun
          · exact .inr (.inl hc)
          · rw [ha] at hc
            exact absurd hc hn
          · refine .inr (.inr ?_)
            rw [← hev] at hc
            exact hc
  | events hs =>
      cases hs with
      | E_Event he _ _ | E_Closed he _ | E_Error he _ | E_NoError he _ _ | E_Send _ he | E_Act he | E_Acted he
      | E_Batch he _ | E_Finish he _ => exact h.mono rfl rfl id (hselect' he id)
      | @E_Exit s₁ x x' _ he hx =>
          have hlaw := ho.events
          rw [he] at hlaw
          have hau : s₁.audio = s.audio := by cases hx <;> rfl
          intro e hended
          rcases h.exit hlaw hx e hended with hrun | hc | ⟨hn, hc | hc⟩
          · exact .inl hrun
          · exact .inr (.inr hc)
          · refine .inr (.inl ?_)
            rw [← hau] at hc
            exact hc
          · rw [he] at hc
            exact absurd hc hn
  | filler hs =>
      cases hs with
      | F_Batch he _ => exact h.mono rfl rfl id (hselect' he id)
      | F_Over _ _ _ _ => exact h.mono rfl rfl id id
  | adapter hs => cases hs <;> exact h.mono rfl rfl id id
  | env hs =>
      cases hs with
      | N_Context _ _ => exact .of_done (by simp)
      | N_Transport _ | N_LLM _ => exact h.mono rfl rfl id id

/-! ## The read loops -/

theorem run_transport (hd : s.done = true) {r : Twilio.State V}
    (h : Relation.ReflTransGen (Reader.Moves Twilio.readLoop) s.transport r) :
    ∃ t', Run (Step (phoneCall V C)) s t' { s with transport := r } := by
  induction h with
  | refl => exact ⟨[], .refl⟩
  | tail _ hm ih =>
      obtain ⟨t', hr⟩ := ih
      rcases hm with ⟨x, ht⟩ | hp
      · rw [← hd] at ht
        exact ⟨_, hr.snoc (.adapter (.T_Tick ht))⟩
      · exact ⟨_, hr.snoc (.env (.N_Transport hp))⟩

theorem run_llm (hd : s.done = true)
    {r : Reader (Option (Gemini.ServerMessage V)) (LLMEvent V) (LLMEvent V) String V}
    (h : Relation.ReflTransGen (Reader.Moves Gemini.readLoop) s.llm.reader r) :
    ∃ t', Run (Step (phoneCall V C)) s t' { s with llm := { s.llm with reader := r } } := by
  induction h with
  | refl => exact ⟨[], .refl⟩
  | tail _ hm ih =>
      obtain ⟨t', hr⟩ := ih
      rcases hm with ⟨x, ht⟩ | hp
      · rw [← hd] at ht
        exact ⟨_, hr.snoc (.adapter (.L_Tick ⟨_, ht, rfl⟩))⟩
      · exact ⟨_, hr.snoc (.env (.N_LLM ⟨_, hp, rfl⟩))⟩

/-! ## The way out of a goroutine -/

def Exit.left : Exit V → Nat
  | .record _ (some _) => 3
  | .report _ => 2
  | .record _ none | .cancel => 1
  | .gone => 0

theorem ExitStep.left_lt {x x' : Exit V} (h : ExitStep s x evs s' x') : x'.left < x.left := by
  cases h <;> simp [Exit.left]

theorem ExitStep.frame {x x' : Exit V} (h : ExitStep s x evs s' x') :
    ∃ c d, s' = { s with runCtx := c, ended := d } ∧ (s.runCtx.isSome ∨ x.Cancels → c.isSome ∨ x'.Cancels) := by
  cases h with
  | X_Closed => exact ⟨s.runCtx, _, rfl, .imp_right False.elim⟩
  | X_Failed => exact ⟨s.runCtx, _, rfl, fun _ => .inr trivial⟩
  | X_Report => exact ⟨s.runCtx, s.ended, rfl, fun _ => .inr trivial⟩
  | X_Cancel => exact ⟨_, s.ended, rfl, fun _ => .inl (by simp)⟩

/-- A goroutine that is on its way out leaves. `put` is the state with the goroutine at a place of that way. -/
theorem exiting_leaves (put : CallState V → Exit V → CallState V)
    (hstep : ∀ {s evs s' x x'}, put s x = s → ExitStep s x evs s' x' → Step (phoneCall V C) s evs (put s' x'))
    (hput : ∀ s x x', put (put s x) x' = put s x')
    (hframe : ∀ s x c d, put { s with runCtx := c, ended := d } x = { put s x with runCtx := c, ended := d })
    {x : Exit V} (hs : put s x = s) :
    ∃ t' c d, Run (Step (phoneCall V C)) s t' { put s .gone with runCtx := c, ended := d } ∧
      (s.runCtx.isSome ∨ x.Cancels → c.isSome) := by
  induction hm : x.left using Nat.strongRecOn generalizing s x with
  | ind m ih =>
      by_cases hx : x = .gone
      · subst hx
        refine ⟨[], s.runCtx, s.ended, ?_, fun h => h.resolve_right id⟩
        rw [hs]
        exact .refl
      · obtain ⟨evs, s₁, x', hexit⟩ := ExitStep.exists s hx
        obtain ⟨c₁, d₁, rfl, hc₁⟩ := hexit.frame
        obtain ⟨t', c, d, hr, hc⟩ := ih _ (hm ▸ hexit.left_lt) (hput { s with runCtx := c₁, ended := d₁ } x' x') rfl
        have hr' := hr.cons (hstep hs hexit)
        rw [hput, hframe] at hr'
        refine ⟨evs ++ t', c, d, hr', fun h => hc ?_⟩
        rw [hframe]
        exact hc₁ h

theorem audio_leaves {x : Exit V} (ha : s.audio = .exiting x) :
    ∃ t' c d, Run (Step (phoneCall V C)) s t' { s with audio := .exiting .gone, runCtx := c, ended := d } ∧
      (s.runCtx.isSome ∨ x.Cancels → c.isSome) := by
  refine exiting_leaves (fun s x => { s with audio := .exiting x }) (fun hs hexit => ?_) (fun _ _ _ => rfl)
    (fun _ _ _ _ => rfl) (by rw [← ha])
  exact .audio (.A_Exit (congrArg State.audio hs).symm hexit)

theorem events_leaves {x : Exit V} (he : s.events = .exiting x) :
    ∃ t' c d, Run (Step (phoneCall V C)) s t' { s with events := .exiting .gone, runCtx := c, ended := d } ∧
      (s.runCtx.isSome ∨ x.Cancels → c.isSome) := by
  refine exiting_leaves (fun s x => { s with events := .exiting x }) (fun hs hexit => ?_) (fun _ _ _ => rfl)
    (fun _ _ _ _ => rfl) (by rw [← he])
  exact .events (.E_Exit (congrArg State.events hs).symm hexit)

/-! ## Attentive steps -/

abbrev AttentiveStep (C : CallSetup) : CallState V → List (Event V) → CallState V → Prop :=
  Restrict (Step (phoneCall V C)) Attentive

/-- Once the end is recorded, every step is attentive. -/
theorem Run.attentive (hr : Run (Step (phoneCall V C)) s t s') {x : EndReason × Option (Err V)}
    (h : s.ended = some x) : Run (AttentiveStep C) s t s' ∧ s'.ended = some x := by
  induction hr with
  | refl => exact ⟨.refl, h⟩
  | snoc _ hs ih =>
      exact ⟨ih.1.snoc ⟨hs, fun hn => nomatch ih.2.symm.trans hn⟩, hs.ended_eq ih.2⟩

theorem attentive_events (hev : ∀ ev ∈ evs, ¬ ev.Competes) (he : s.events ≠ .select)
    (ha : s'.audio = s.audio) : Attentive s evs s' := by
  refine fun _ _ => ⟨hev, fun hsel => ?_, fun hsel => absurd hsel he⟩
  rw [ha, hsel]
  exact nofun

theorem attentive_audio (hev : ∀ ev ∈ evs, ¬ ev.Competes) (ha : s.audio ≠ .select)
    (he : s'.events = s.events) : Attentive s evs s' := by
  refine fun _ _ => ⟨hev, fun hsel => absurd hsel ha, fun hsel => ?_⟩
  rw [he, hsel]
  exact nofun

theorem attentive_other (hev : ∀ ev ∈ evs, ¬ ev.Competes) (ha : s'.audio = s.audio) (he : s'.events = s.events) :
    Attentive s evs s' := by
  refine fun _ _ => ⟨hev, fun hsel => ?_, fun hsel => ?_⟩
  · rw [ha, hsel]
    exact nofun
  · rw [he, hsel]
    exact nofun

theorem CoreStep.not_competes {n : Nat} {b b' : Batch V} (h : CoreStep n b evs b') :
    ∀ ev ∈ evs, ¬ ev.Competes := by
  cases h <;> simp [Event.Competes]

theorem Action.shows_not_competes (p : Bool) (a : Action V) : ¬ (a.shows p).Competes := by
  cases a <;> exact id

/-! ## Back to the `select` -/

theorem audio_select (hb : s.audio.Busy) (hi : s.audio ≠ .idle) :
    ∃ t', Run (AttentiveStep C) s t' { s with audio := .select } := by
  cases ha : s.audio with
  | idle => exact absurd ha hi
  | select =>
      rw [← ha]
      exact ⟨[], .refl⟩
  | sending f =>
      refine ⟨_, .single ⟨.audio (.A_Send none ha), attentive_audio ?_ ?_ rfl⟩⟩
      · simp [Event.Competes]
      · rw [ha]
        exact nofun
  | exiting x => exact absurd ha (hb.not_exiting x)

theorem InsideStep.attentive (h : InsideStep (phoneCall V C) s evs s') : AttentiveStep C s evs s' := by
  obtain ⟨hs, hin, hsend⟩ := h
  have hne : s.events ≠ .select := by
    intro he
    rw [he] at hin
    exact hin
  refine ⟨.events hs, ?_⟩
  cases hs with
  | E_Event he _ _ | E_Closed he _ | E_Error he _ | E_NoError he _ _ => exact absurd he hne
  | @E_Send f err he =>
      cases err with
      | none => exact attentive_events (by simp [Event.Competes]) hne rfl
      | some e => exact absurd List.mem_cons_self (hsend f e)
  | @E_Act a _ p _ =>
      refine attentive_events (fun ev hev => ?_) hne rfl
      rw [List.mem_singleton.mp hev]
      exact a.shows_not_competes p
  | E_Batch _ hcore => exact attentive_events hcore.not_competes hne rfl
  | E_Acted _ | E_Finish _ _ => exact attentive_events (by simp) hne rfl
  | E_Exit he _ =>
      rw [he] at hin
      exact hin.elim

theorem events_select (hlaw : ∀ b, s.events = .batch b → ∃ calls t, BatchLaw C.toolConcurrency calls t b)
    (hb : s.events.Busy) (hi : s.events ≠ .idle) :
    ∃ t' hs, Run (AttentiveStep C) s t' { s with events := .select, holds := hs } := by
  obtain ⟨t', hs, hr⟩ := dispatch_ends (P := phoneCall V C) hlaw hi hb.not_exiting
  exact ⟨t', hs, hr.mono fun _ _ _ h => h.attentive⟩

/-! ## To the record of the error -/

theorem audio_records (ha : s.audio = .exiting (.record .fatalError (some e))) (hended : s.ended = none)
    (hctx : s.ctx = none) : ∃ t' s', Run (AttentiveStep C) s t' s' ∧ s'.ended = some (.fatalError, some e) := by
  refine ⟨_, _, .single ⟨.audio (.A_Exit ha .X_Failed), attentive_audio ?_ ?_ rfl⟩, recordEnd_first hended hctx _ _⟩
  · simp [Event.Competes]
  · rw [ha]
    exact nofun

theorem events_records (he : s.events = .exiting (.record .fatalError (some e))) (hended : s.ended = none)
    (hctx : s.ctx = none) : ∃ t' s', Run (AttentiveStep C) s t' s' ∧ s'.ended = some (.fatalError, some e) := by
  refine ⟨_, _, .single ⟨.events (.E_Exit he .X_Failed), attentive_events ?_ ?_ rfl⟩, recordEnd_first hended hctx _ _⟩
  · simp [Event.Competes]
  · rw [he]
    exact nofun

theorem transport_puts (hp : s.transport.Pending e) (hl : s.transport.Lawful) :
    ∃ t' r, Run (AttentiveStep C) s t' { s with transport := r } ∧ r.errs = some e := by
  rcases hp with hpc | herrs
  · have hnone := hl.errs_eq (by rw [hpc]; exact id)
    have ht : ReaderTick Twilio.readLoop s.done s.transport none _ := .R_Put hpc hnone
    exact ⟨_, _, .single ⟨.adapter (.T_Tick ht), attentive_other (by simp) rfl rfl⟩, rfl⟩
  · exact ⟨[], s.transport, .refl, herrs⟩

theorem llm_puts (hp : s.llm.reader.Pending e) (hl : s.llm.reader.Lawful) :
    ∃ t' r, Run (AttentiveStep C) s t' { s with llm := { s.llm with reader := r } } ∧ r.errs = some e := by
  rcases hp with hpc | herrs
  · have hnone := hl.errs_eq (by rw [hpc]; exact id)
    have ht : ReaderTick Gemini.readLoop s.done s.llm.reader none _ := .R_Put hpc hnone
    exact ⟨_, _, .single ⟨.adapter (.L_Tick ⟨_, ht, rfl⟩), attentive_other (by simp) rfl rfl⟩, rfl⟩
  · exact ⟨[], s.llm.reader, .refl, herrs⟩

theorem waits_goroutines (hr : Reached C t s) (hw : s.main.Waits) :
    s.Started ∧ s.audio ≠ .idle ∧ s.events ≠ .idle := by
  have hphase := hr.sound.phase
  cases hm : s.main <;> rw [hm] at hw hphase
  case waiting => exact hphase
  case draining => exact hphase
  all_goals exact hw.elim

theorem TransportError.records (h : TransportError e s) (hr : Reached C t s) (hw : s.main.Waits)
    (hctx : s.ctx = none) : ∃ t' s', Run (AttentiveStep C) s t' s' ∧ s'.ended = some (.fatalError, some e) := by
  rcases h.route with ⟨hp, hbusy⟩ | ⟨_, ha⟩
  · obtain ⟨t₁, r, hput, herrs⟩ := transport_puts (C := C) hp hr.sound.transport
    obtain ⟨t₂, hsel⟩ := audio_select (C := C) (s := { s with transport := r }) hbusy (waits_goroutines hr hw).2.1
    have hstep := Step.audio (P := phoneCall V C) (s := { s with transport := r, audio := .select })
      (.A_Error rfl (.C_Error herrs))
    obtain ⟨t₃, s', hrec, hended⟩ := audio_records (C := C)
      (s := { s with transport := { r with errs := none }, audio := .exiting (.record .fatalError (some e)) })
      rfl h.ended hctx
    refine ⟨_, s', ((hput.trans hsel).snoc ⟨hstep, ?_⟩).trans hrec, hended⟩
    exact fun _ _ => ⟨by simp, fun _ => nofun, fun he => by simp only; rw [he]; exact nofun⟩
  · exact audio_records ha h.ended hctx

/-- The LLM-events goroutine ends what it is doing, takes the error from the channel and records it. -/
theorem LLMError.records (h : LLMError e s) (hr : Reached C t s) (hw : s.main.Waits) (hctx : s.ctx = none) :
    ∃ t' s', Run (AttentiveStep C) s t' s' ∧ s'.ended = some (.fatalError, some e) := by
  rcases h.route with ⟨hp, hbusy⟩ | ⟨_, he⟩
  · obtain ⟨t₁, r, hput, herrs⟩ := llm_puts (C := C) hp hr.sound.llm
    obtain ⟨t₂, hs, hsel⟩ := events_select (C := C) (s := { s with llm := { s.llm with reader := r } })
      hr.sound.batch hbusy (waits_goroutines hr hw).2.2
    have hstep := Step.events (P := phoneCall V C)
      (s := { s with llm := { s.llm with reader := r }, events := .select, holds := hs })
      (.E_Error rfl ⟨_, .C_Error herrs, rfl⟩)
    obtain ⟨t₃, s', hrec, hended⟩ := events_records (C := C)
      (s := { s with
        llm := { s.llm with reader := { r with errs := none } }, holds := hs,
        events := .exiting (.record .fatalError (some e)) }) rfl h.ended hctx
    refine ⟨_, s', ((hput.trans hsel).snoc ⟨hstep, ?_⟩).trans hrec, hended⟩
    exact fun _ _ => ⟨by simp, fun ha => by simp only; rw [ha]; exact nofun, fun _ => nofun⟩
  · exact events_records he h.ended hctx

theorem attentive_start (hm : s.main = .starting) : AttentiveStep C s [.callback .onSessionStart false]
    { s with audio := .select, events := .select, main := .waiting } :=
  ⟨.main (.M_Start hm), fun _ _ => ⟨by simp [Event.Competes], fun _ => nofun, fun _ => nofun⟩⟩

theorem starts (hr : Reached C t s) (hended : s.ended = none) (hst : ¬ s.Unstarted ∨ s.main.Waits) :
    ∃ t' s', Run (AttentiveStep C) s t' s' ∧ s'.main.Waits ∧ s'.ctx = s.ctx := by
  have hm := hr.outcomes.main
  have hphase := hr.sound.phase
  cases hs : s.main with
  | waiting | draining => exact ⟨[], s, .refl, by rw [hs]; trivial, rfl⟩
  | subscribing =>
      have hstep : AttentiveStep C s [] { s with llm := (phoneCall V C).llm.start s.llm, main := .starting } :=
        ⟨.main (.M_Events hs), attentive_other (by simp) rfl rfl⟩
      exact ⟨_, _, (Run.single hstep).snoc (attentive_start rfl), trivial, rfl⟩
  | starting => exact ⟨_, _, .single (attentive_start hs), trivial, rfl⟩
  | resolving | opening =>
      rw [hs] at hphase hst
      exact hst.elim (absurd hphase.1) False.elim
  | failing _ | failed _ | injected | receiving =>
      rw [hs] at hphase hst
      exact hst.elim (absurd hphase) False.elim
  | returned _ =>
      rw [hs] at hphase hst
      exact hst.elim (absurd (hphase hended)) False.elim
  | closingTransport _ _ | closingLLM _ _ | ending _ _ =>
      rw [hs] at hm
      exact nomatch hended.symm.trans hm.1

/-! ## To the end -/

theorem closing_returns {r : EndReason} {err : Option (Err V)} (hm : s.main = .closingTransport r err) :
    ∃ t' s', Run (Step (phoneCall V C)) s t' s' ∧ s'.main = .returned err := by
  have h₁ := Step.main (P := phoneCall V C) (.M_CloseTransport hm)
  exact ⟨_, _, (((Run.single h₁).snoc (.main (.M_CloseLLM rfl))).snoc (.main (.M_End (p := false) rfl))), rfl⟩

theorem audio_gone (hi : s.audio ≠ .idle) (hx : s.transport.pc = .exited) :
    ∃ t' c d, Run (Step (phoneCall V C)) s t' { s with audio := .exiting .gone, runCtx := c, ended := d } ∧
      (s.runCtx.isSome → c.isSome) := by
  have hselect : ∀ s₁ : CallState V, s₁.audio = .select → s₁.transport.pc = .exited →
      ∃ t' c d, Run (Step (phoneCall V C)) s₁ t' { s₁ with audio := .exiting .gone, runCtx := c, ended := d } ∧
        (s₁.runCtx.isSome → c.isSome) := by
    intro s₁ ha hx₁
    have hstep := Step.audio (P := phoneCall V C) (.A_Closed ha (.C_Closed hx₁))
    obtain ⟨t', c, d, hr, hc⟩ := audio_leaves (C := C)
      (s := { s₁ with audio := .exiting (.record .transportClosed none) }) rfl
    exact ⟨_, c, d, hr.cons hstep, fun h => hc (.inl h)⟩
  cases ha : s.audio with
  | idle => exact absurd ha hi
  | select => exact hselect s ha hx
  | sending f =>
      obtain ⟨t', c, d, hr, hc⟩ := hselect { s with audio := .select } rfl hx
      exact ⟨_, c, d, hr.cons (.audio (.A_Send none ha)), hc⟩
  | exiting x =>
      obtain ⟨t', c, d, hr, hc⟩ := audio_leaves (C := C) ha
      exact ⟨t', c, d, hr, fun h => hc (.inl h)⟩

theorem events_gone (hlaw : ∀ b, s.events = .batch b → ∃ calls t, BatchLaw C.toolConcurrency calls t b)
    (hi : s.events ≠ .idle) (hx : s.llm.reader.pc = .exited) :
    ∃ t' c d hs, Run (Step (phoneCall V C)) s t'
      { s with events := .exiting .gone, runCtx := c, ended := d, holds := hs } := by
  by_cases hb : s.events.Busy
  · obtain ⟨t₁, hs, hsel⟩ := events_select hlaw hb hi
    have hstep := Step.events (P := phoneCall V C) (s := { s with events := .select, holds := hs })
      (.E_Closed rfl ⟨_, .C_Closed hx, rfl⟩)
    obtain ⟨t', c, d, hr, _⟩ := events_leaves (C := C)
      (s := { s with events := .exiting (.record .llmClosed none), holds := hs }) rfl
    exact ⟨_, c, d, hs, hsel.of_restrict.trans (hr.cons hstep)⟩
  · cases he : s.events with
    | exiting x =>
        obtain ⟨t', c, d, hr, _⟩ := events_leaves (C := C) he
        exact ⟨t', c, d, s.holds, hr⟩
    | idle | select | sending _ | acting _ | batch _ =>
        rw [he] at hb
        exact absurd trivial hb

theorem gone_returns (hw : s.main.Waits) (ha : s.audio = .exiting .gone) (he : s.events = .exiting .gone) :
    ∃ t' s' err, Run (Step (phoneCall V C)) s t' s' ∧ s'.main = .returned err := by
  obtain ⟨t', s', hr, hret⟩ := closing_returns (C := C)
    (s := { s with main := .closingTransport s.outcome.1 s.outcome.2 }) rfl
  cases hm : s.main <;> rw [hm] at hw
  case waiting => exact ⟨_, s', _, hr.cons (.main (.M_Done hm ha he)), hret⟩
  case draining => exact ⟨_, s', _, hr.cons (.main (.M_Drained hm ha he)), hret⟩
  all_goals exact hw.elim

/-- The read loops exit, the goroutines follow them, and `Run` returns. -/
theorem waits_returns (hr : Reached C t s) (hw : s.main.Waits) (hd : s.done = true) :
    ∃ t' s' err, Run (Step (phoneCall V C)) s t' s' ∧ s'.main = .returned err := by
  obtain ⟨hstarted, ha, he⟩ := waits_goroutines hr hw
  obtain ⟨r, htransport, hexited⟩ := Reader.can_exit (L := Twilio.readLoop) hr.sound.transport hstarted.1
  obtain ⟨t₁, h₁⟩ := run_transport (C := C) hd htransport
  obtain ⟨t₂, c, d, h₂, hc⟩ := audio_gone (C := C) (s := { s with transport := r }) ha hexited
  obtain ⟨g, hllm, hexited'⟩ := Reader.can_exit (L := Gemini.readLoop) hr.sound.llm hstarted.2
  obtain ⟨t₃, h₃⟩ := run_llm (C := C)
    (s := { s with transport := r, audio := .exiting .gone, runCtx := c, ended := d }) (hc hd) hllm
  obtain ⟨t₄, c', d', hs, h₄⟩ := events_gone (C := C)
    (s := { s with
      transport := r, audio := .exiting .gone, runCtx := c, ended := d, llm := { s.llm with reader := g } })
    hr.sound.batch he hexited'
  obtain ⟨t₅, s', err, h₅, hret⟩ := gone_returns (C := C)
    (s := { s with
      transport := r, audio := .exiting .gone, llm := { s.llm with reader := g }, events := .exiting .gone,
      runCtx := c', ended := d', holds := hs }) hw rfl rfl
  exact ⟨_, s', err, (((h₁.trans h₂).trans h₃).trans h₄).trans h₅, hret⟩

theorem CancelLaw.cancels (h : CancelLaw s) {err : Option (Err V)} (hended : s.ended = some (.fatalError, err)) :
    ∃ t' s', Run (Step (phoneCall V C)) s t' s' ∧ s'.done = true := by
  rcases h err hended with hd | hc | hc
  · exact ⟨[], s, .refl, hd⟩
  · cases ha : s.audio with
    | exiting x =>
        rw [ha] at hc
        obtain ⟨t', c, d, hr, hd⟩ := audio_leaves (C := C) ha
        exact ⟨t', _, hr, hd (.inr hc)⟩
    | idle | select | sending _ => rw [ha] at hc; exact hc.elim
  · cases he : s.events with
    | exiting x =>
        rw [he] at hc
        obtain ⟨t', c, d, hr, hd⟩ := events_leaves (C := C) he
        exact ⟨t', _, hr, hd (.inr hc)⟩
    | idle | select | sending _ | acting _ | batch _ => rw [he] at hc; exact hc.elim

theorem done_returns (hr : Reached C t s) (hd : s.done = true) {x : EndReason × Option (Err V)}
    (hended : s.ended = some x) :
    ∃ t' s' err, Run (Step (phoneCall V C)) s t' s' ∧ s'.main = .returned err := by
  have hm := hr.outcomes.main
  cases hs : s.main with
  | waiting | draining => exact waits_returns hr (by rw [hs]; trivial) hd
  | closingTransport r err =>
      obtain ⟨t', s', hr, hret⟩ := closing_returns (C := C) hs
      exact ⟨t', s', err, hr, hret⟩
  | closingLLM r err =>
      have hstep := Step.main (P := phoneCall V C) (.M_CloseLLM hs)
      exact ⟨_, _, err, (Run.single hstep).snoc (.main (.M_End (p := false) rfl)), rfl⟩
  | ending r err => exact ⟨_, _, err, .single (.main (.M_End (p := false) hs)), rfl⟩
  | returned err => exact ⟨[], s, err, .refl, hs⟩
  | resolving | opening | injected | receiving | subscribing | starting =>
      rw [hs] at hm
      exact nomatch hm.1.symm.trans hended
  | failing _ | failed _ =>
      rw [hs] at hm
      exact nomatch hm.2.2.symm.trans hended

/-! ## What `Run` returns -/

/-- `Run` has returned `e`, after `OnSessionEnd` with `fatal_error` as the last callback. -/
def Failed (t : List (Event V)) (s : CallState V) (e : Err V) : Prop :=
  s.main = .returned (some e) ∧ ∃ cs, callbacks t = cs ++ [.onSessionEnd .fatalError] ∧ NoEnd cs

theorem failed_of_ended (ho : Outcomes t s) (hended : s.ended = some (.fatalError, some e)) {err : Option (Err V)}
    (hret : s.main = .returned err) : Failed t s e := by
  have hm := ho.main
  rw [hret] at hm
  obtain ⟨cs, r, hcs, hn, _, hnone | hsome⟩ := hm
  · exact nomatch hended.symm.trans hnone
  · cases hended.symm.trans hsome
    exact ⟨hret, cs, hcs, hn⟩

theorem Heard.runs (h : Heard C t s) {t' : List (Event V)} (hr : Run (AttentiveStep C) s t' s') :
    Heard C (t ++ t') s' :=
  hr.carry h fun _ _ _ _ h hs => h.step hs

theorem Reached.runs (h : Reached C t s) {t' : List (Event V)} (hr : Run (Step (phoneCall V C)) s t' s') :
    Reached C (t ++ t') s' :=
  hr.carry h fun _ _ _ _ h hs => h.step hs

theorem CancelLaw.runs (h : CancelLaw s) (hr : Reached C t s) {t' : List (Event V)}
    (hrun : Run (Step (phoneCall V C)) s t' s') : CancelLaw s' :=
  (hrun.carry (I := fun t s => Reached C t s ∧ CancelLaw s) ⟨hr, h⟩
    fun _ _ _ _ h hs => ⟨h.1.step hs, h.2.step h.1.outcomes hs⟩).2

theorem CancelLaw.run (hr : Run (Step (phoneCall V C)) CallState.init t s) : CancelLaw s :=
  CancelLaw.runs (fun _ h => by cases h) ⟨.init _ _, .init C⟩ hr

theorem ended_returns (hr : Reached C t s) (hc : CancelLaw s) (hended : s.ended = some (.fatalError, some e)) :
    ∃ t' s', Run (AttentiveStep C) s t' s' ∧ Failed (t ++ t') s' e := by
  obtain ⟨t₁, s₁, h₁, hd⟩ := hc.cancels (C := C) hended
  obtain ⟨t₂, s₂, err, h₂, hret⟩ := done_returns (hr.runs h₁) hd (Run.attentive h₁ hended).2
  obtain ⟨hrun, hended'⟩ := Run.attentive (h₁.trans h₂) hended
  exact ⟨_, s₂, hrun, failed_of_ended (hr.runs (h₁.trans h₂)).outcomes hended' hret⟩

theorem records_returns (h : Heard C t s) (hc : CancelLaw s)
    (hrec : ∃ t' s', Run (AttentiveStep C) s t' s' ∧ s'.ended = some (.fatalError, some e)) :
    ∃ t' s', Run (AttentiveStep C) s t' s' ∧ Failed (t ++ t') s' e := by
  obtain ⟨t₁, s₁, h₁, hended⟩ := hrec
  have hr₁ := h.reached.runs h₁.of_restrict
  obtain ⟨t₂, s₂, h₂, hfail⟩ := ended_returns hr₁ (hc.runs h.reached h₁.of_restrict) hended
  rw [List.append_assoc] at hfail
  exact ⟨_, s₂, h₁.trans h₂, hfail⟩

/-- The first terminal event is the error `e` of an adapter. -/
def FirstError (t : List (Event V)) (e : Err V) : Prop :=
  firstTerminal t = some (.transport (.failed e)) ∨ firstTerminal t = some (.llm (.failed e))

theorem FirstError.append (h : FirstError t e) (t' : List (Event V)) : FirstError (t ++ t') e := by
  rw [FirstError, firstTerminal_append]
  refine h.imp (fun hf => ?_) (fun hf => ?_)
  · rw [hf, Option.some_or]
  · rw [hf, Option.some_or]

theorem Heard.first (h : Heard C t s) (hctx : s.ctx = none) (hfirst : FirstError t e) :
    s.ended = some (.fatalError, some e) ∨ TransportError e s ∨ LLMError e s := by
  have hlaw := h.error hctx
  rcases hfirst with hf | hf
  · rw [hf] at hlaw
    exact hlaw.imp_right .inl
  · rw [hf] at hlaw
    exact hlaw.imp_right .inr

theorem error_started (h : TransportError e s ∨ LLMError e s) (hr : Reached C t s) :
    s.ended = none ∧ (¬ s.Unstarted ∨ s.main.Waits) := by
  rcases h with h | h
  · exact ⟨h.ended, (h.started hr).imp_left fun hi hu => hi hu.1⟩
  · exact ⟨h.ended, (h.started hr).imp_left fun hi hu => hi hu.2⟩

theorem Heard.records (h : Heard C t s) (hctx : s.ctx = none) (hfirst : FirstError t e) :
    ∃ t' s', Run (AttentiveStep C) s t' s' ∧ s'.ended = some (.fatalError, some e) := by
  rcases h.first hctx hfirst with hended | herr
  · exact ⟨[], s, .refl, hended⟩
  · obtain ⟨hnone, hst⟩ := error_started herr h.reached
    obtain ⟨t₁, s₁, h₁, hw, hctx₁⟩ := starts h.reached hnone hst
    have hheard := h.runs h₁
    rcases hheard.first (hctx₁.trans hctx) (hfirst.append t₁) with hended | herr | herr
    · exact ⟨t₁, s₁, h₁, hended⟩
    · obtain ⟨t₂, s₂, h₂, hended⟩ := herr.records hheard.reached hw (hctx₁.trans hctx)
      exact ⟨_, s₂, h₁.trans h₂, hended⟩
    · obtain ⟨t₂, s₂, h₂, hended⟩ := herr.records hheard.reached hw (hctx₁.trans hctx)
      exact ⟨_, s₂, h₁.trans h₂, hended⟩

theorem Heard.ended_of_returned (h : Heard C t s) (hctx : s.ctx = none) (hfirst : FirstError t e)
    {err : Option (Err V)} (hret : s.main = .returned err) : s.ended = some (.fatalError, some e) := by
  rcases h.first hctx hfirst with hended | herr
  · exact hended
  · obtain ⟨hnone, hst⟩ := error_started herr h.reached
    have hphase := h.reached.sound.phase
    rw [hret] at hphase hst
    exact hst.elim (absurd (hphase hnone)) False.elim

end Gopkg.Voice
