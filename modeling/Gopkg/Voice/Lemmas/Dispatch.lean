import Gopkg.Voice.Lemmas.Outcome
import Gopkg.Voice.Lemmas.ToolProgress

/-!
# Dispatch as a translation

What the LLM-events goroutine does to the transport and tells the observer is the events of the LLM, translated one
by one and in order.
-/

namespace Gopkg.Voice

open Lts

variable {σ τ V : Type} {P : Config σ τ V} {b : Bridge} {t evs : List (Event V)} {s s' : State σ τ V}

/-! ## What the goroutine shows -/

/-- A step of the session, of which only the LLM-events goroutine and its tool workers show their events. -/
inductive EventsView (P : Config σ τ V) : State σ τ V → List (Event V) → State σ τ V → Prop
  | own {s s' : State σ τ V} {evs : List (Event V)} : EventsStep P s evs s' → EventsView P s evs s'
  | main {s s' : State σ τ V} {evs : List (Event V)} : MainStep P s evs s' → EventsView P s [] s'
  | audio {s s' : State σ τ V} {evs : List (Event V)} : AudioStep P s evs s' → EventsView P s [] s'
  | filler {s s' : State σ τ V} {evs : List (Event V)} : FillerStep P s evs s' → EventsView P s [] s'
  | adapter {s s' : State σ τ V} {evs : List (Event V)} : AdapterStep P s evs s' → EventsView P s [] s'
  | env {s s' : State σ τ V} {evs : List (Event V)} : EnvStep P s evs s' → EventsView P s [] s'

/-- Every run of the session is seen by the goroutine. -/
theorem view_run (hr : Run (Step P) s t s') : ∃ t', Run (EventsView P) s t' s' ∧ t'.Sublist t := by
  induction hr with
  | refl => exact ⟨[], .refl, List.Sublist.refl _⟩
  | @snoc t evs _ _ _ hs ih =>
      obtain ⟨t', hr, hsub⟩ := ih
      cases hs with
      | events hs => exact ⟨_, hr.snoc (.own hs), hsub.append (List.Sublist.refl _)⟩
      | main hs => exact ⟨_, hr.snoc (.main hs), hsub.append (List.nil_sublist _)⟩
      | audio hs => exact ⟨_, hr.snoc (.audio hs), hsub.append (List.nil_sublist _)⟩
      | filler hs => exact ⟨_, hr.snoc (.filler hs), hsub.append (List.nil_sublist _)⟩
      | adapter hs => exact ⟨_, hr.snoc (.adapter hs), hsub.append (List.nil_sublist _)⟩
      | env hs => exact ⟨_, hr.snoc (.env hs), hsub.append (List.nil_sublist _)⟩

/-- What a step is for the goroutine: one of its own, or one that leaves it where it is, or its start, or one of the
watchdog of the batch it is in. -/
inductive Effect (P : Config σ τ V) (s s' : State σ τ V) : List (Event V) → Prop
  | own {evs : List (Event V)} : EventsStep P s evs s' → Effect P s s' evs
  | still : s'.turn = s.turn → s'.events = s.events → Effect P s s' []
  | start : s.main = .starting → s'.turn = s.turn → s'.events = .select → Effect P s s' []
  | hold {bt : Batch V} {h : HoldPc} {d : Bool} {evs : List (Event V)} : s.events = .batch bt → s'.turn = s.turn →
      s'.events = .batch { bt with hold := h } → HoldStep P.filler bt.done (bt.holdCancelled || d) bt.hold evs h →
      Effect P s s' []

theorem EventsView.effect (hs : EventsView P s evs s') : Effect P s s' evs := by
  cases hs with
  | own hs => exact .own hs
  | main hs =>
      cases hs with
      | M_Start hm => exact .start hm rfl rfl
      | M_Resolved _ _ | M_Unresolved _ _ | M_Fail _ | M_Failed _ | M_Open _ _ | M_Opened _ _ | M_OpenFailed _ _
      | M_Injected _ | M_Receive _ | M_Events _ | M_Done _ _ _ | M_ContextDone _ _ | M_Drained _ _ _
      | M_CloseTransport _ | M_CloseLLM _ | M_End _ => exact .still rfl rfl
  | audio hs =>
      cases hs with
      | A_Exit _ hx => cases hx <;> exact .still rfl rfl
      | A_Frame _ _ _ | A_Closed _ _ | A_Error _ _ | A_NoError _ _ _ | A_Send _ _ => exact .still rfl rfl
  | filler hs =>
      cases hs with
      | F_Batch he hhold => exact .hold he rfl rfl hhold
      | F_Over _ _ _ _ => exact .still rfl rfl
  | adapter hs => cases hs <;> exact .still rfl rfl
  | env hs => cases hs <;> exact .still rfl rfl

theorem EventsView.step (hs : EventsView P s evs s') : ∃ evs', Step P s evs' s' := by
  cases hs with
  | own hs => exact ⟨_, .events hs⟩
  | main hs => exact ⟨_, .main hs⟩
  | audio hs => exact ⟨_, .audio hs⟩
  | filler hs => exact ⟨_, .filler hs⟩
  | adapter hs => exact ⟨_, .adapter hs⟩
  | env hs => exact ⟨_, .env hs⟩

/-- The calls of `Send`, `Mark` and `Clear`, and the observer callbacks. -/
inductive Output (V : Type) where
  | send (f : Frame)
  | mark (name : String)
  | clear
  | observe (c : Callback V)
  deriving DecidableEq, Repr

def Event.output? : Event V → Option (Output V)
  | .send f _ => some (.send f)
  | .mark name => some (.mark name)
  | .clear => some .clear
  | .callback c _ => some (.observe c)
  | _ => none

def outputs (t : List (Event V)) : List (Output V) := t.filterMap Event.output?

def Event.received? : Event V → Option (LLMEvent V)
  | .received ev => some ev
  | _ => none

/-- The events of the LLM that were taken from its channel. -/
def received (t : List (Event V)) : List (LLMEvent V) := t.filterMap Event.received?

def Action.output : Action V → Output V
  | .mark name => .mark name
  | .clear => .clear
  | .observe c => .observe c

theorem outputs_append (t t' : List (Event V)) : outputs (t ++ t') = outputs t ++ outputs t' :=
  List.filterMap_append

theorem received_append (t t' : List (Event V)) : received (t ++ t') = received t ++ received t' :=
  List.filterMap_append

theorem outputs_shows (a : Action V) (p : Bool) : outputs [a.shows p] = [a.output] := by
  cases a <;> rfl

theorem received_shows (a : Action V) (p : Bool) : received [a.shows p] = [] := by
  cases a <;> rfl

/-! ## Images -/

def LLMEvent.isTurnComplete : LLMEvent V → Bool
  | .turnComplete => true
  | _ => false

/-- The number of turns that the events complete. -/
def completed (R : List (LLMEvent V)) : Nat := R.countP LLMEvent.isTurnComplete

/-- What one event is translated to; `k` counts the completed turns, with the one of the event. The image of tool
calls is what a whole run of the batch shows. -/
def Image (P : Config σ τ V) (b : Bridge) (k : Nat) : LLMEvent V → List (Output V) → Prop
  | .audioOut f, out => ∃ conv, b.convert f = (.ok conv : Except (Err V) Frame) ∧ out = [.send conv]
  | .assistantText text final, out => out = [.observe (.onAssistantText text final)]
  | .callerTranscript text, out => out = [.observe (.onCallerTranscript text)]
  | .turnComplete, out => out = [.mark ("turn-" ++ toString k), .observe (.onTurnComplete k)]
  | .interrupted, out => out = [.clear, .observe .onInterrupted]
  | .toolCalls calls, out => ∃ t b', Run (BatchStep P.toolConcurrency P.filler) (.init calls) t b' ∧
      b'.pc = .finished ∧ out = outputs t

/-- The events in order, each with its image. -/
inductive Translation (P : Config σ τ V) (b : Bridge) : List (LLMEvent V) → List (Output V) → Prop
  | nil : Translation P b [] []
  | snoc {R : List (LLMEvent V)} {ev : LLMEvent V} {O out : List (Output V)} : Translation P b R O →
      Image P b (completed (R ++ [ev])) ev out → Translation P b (R ++ [ev]) (O ++ out)

/-! ## The place of the goroutine -/

/-- What the goroutine has put out, for its place. -/
def Progress (P : Config σ τ V) (b : Bridge) (R : List (LLMEvent V)) (O : List (Output V)) : EventsPc V → Prop
  | .idle => R = [] ∧ O = []
  | .select => Translation P b R O
  | .sending f => ∃ R' g, R = R' ++ [.audioOut g] ∧ b.convert g = (.ok f : Except (Err V) Frame) ∧
      Translation P b R' O
  | .acting as => ∃ R' ev O' out, R = R' ++ [ev] ∧ O = O' ++ out ∧ Translation P b R' O' ∧
      Image P b (completed R) ev (out ++ as.map Action.output)
  | .batch bt => ∃ R' calls O' t, R = R' ++ [.toolCalls calls] ∧ O = O' ++ outputs t ∧ Translation P b R' O' ∧
      Run (BatchStep P.toolConcurrency P.filler) (.init calls) t bt
  | .exiting (.record _ _) | .exiting (.report _) => Translation P b R O
  | .exiting .cancel | .exiting .gone => ∃ O', Translation P b R O' ∧
      (O = O' ∨ ∃ e, O = O' ++ [.observe (.onError e)])

theorem progress_dispatch {R : List (LLMEvent V)} {O : List (Output V)} (h : Translation P b R O) (ev : LLMEvent V)
    (hk : completed (R ++ [ev]) < 2 ^ 63) :
    Progress P b (R ++ [ev]) O (dispatch b (completed (R ++ [ev])) ev) := by
  cases ev with
  | audioOut f => cases b <;> exact ⟨R, f, rfl, rfl, h⟩
  | assistantText text final | callerTranscript text | interrupted =>
      exact ⟨R, _, O, [], rfl, (List.append_nil O).symm, h, rfl⟩
  | turnComplete =>
      refine ⟨R, _, O, [], rfl, (List.append_nil O).symm, h, ?_⟩
      rw [itoa_natCast hk]
      rfl
  | toolCalls calls => exact ⟨R, calls, O, [], rfl, (List.append_nil O).symm, h, .refl⟩

theorem completed_append (R R' : List (LLMEvent V)) : completed (R ++ R') = completed R + completed R' :=
  List.countP_append

theorem turnAfter_completed (R : List (LLMEvent V)) (ev : LLMEvent V) (hk : completed (R ++ [ev]) < 2 ^ 63) :
    turnAfter (completed R) ev = completed (R ++ [ev]) := by
  rw [completed_append] at hk ⊢
  cases ev with
  | turnComplete =>
      have hk : completed R + 1 < 2 ^ 63 := hk
      change wrap (completed R + 1) = ((completed R + 1 : Nat) : Int)
      rw [wrap, Int.bmod_eq_of_le (by omega) (by omega)]
      rfl
  | audioOut _ | assistantText _ _ | callerTranscript _ | interrupted | toolCalls _ => rfl

theorem HoldStep.outputs_eq {filler : Filler} {d hd : Bool} {h h' : HoldPc} (hs : HoldStep filler d hd h evs h') :
    outputs evs = [] := by
  cases hs <;> rfl

theorem CoreStep.received_eq {n : Nat} {bt bt' : Batch V} (hs : CoreStep n bt evs bt') : received evs = [] := by
  cases hs <;> rfl

/-- What holds as long as the counter of the turns does not overflow. -/
def Dispatched (P : Config σ τ V) (b : Bridge) (t : List (Event V)) (s : State σ τ V) : Prop :=
  completed (received t) < 2 ^ 63 →
    s.turn = completed (received t) ∧ Progress P b (received t) (outputs t) s.events

/-- A step that receives nothing only moves the place. -/
theorem Dispatched.advance (h : Dispatched P b t s) (hrec : received evs = []) (hturn : s'.turn = s.turn)
    (hp : ∀ R O, Progress P b R O s.events → Progress P b R (O ++ outputs evs) s'.events) :
    Dispatched P b (t ++ evs) s' := by
  unfold Dispatched
  rw [received_append, hrec, List.append_nil, outputs_append, hturn]
  intro hk
  exact (h hk).imp_right (hp _ _)

theorem Dispatched.silent (h : Dispatched P b t s) (hturn : s'.turn = s.turn)
    (hp : ∀ R O, Progress P b R O s.events → Progress P b R O s'.events) : Dispatched P b (t ++ []) s' := by
  refine h.advance rfl hturn fun R O hpr => ?_
  rw [show outputs ([] : List (Event V)) = [] from rfl, List.append_nil]
  exact hp R O hpr

section places

variable {R : List (LLMEvent V)} {O : List (Output V)}

theorem Progress.sent {f : Frame} (h : Progress P b R O (.sending f)) : Translation P b R (O ++ [.send f]) := by
  obtain ⟨R', g, rfl, hconv, htr⟩ := h
  exact htr.snoc ⟨f, hconv, rfl⟩

theorem Progress.act {a : Action V} {as : List (Action V)} (h : Progress P b R O (.acting (a :: as))) :
    Progress P b R (O ++ [a.output]) (.acting as) := by
  obtain ⟨R', ev, O', out, hR, rfl, htr, himg⟩ := h
  refine ⟨R', ev, O', out ++ [a.output], hR, List.append_assoc _ _ _, htr, ?_⟩
  rw [List.append_assoc]
  exact himg

theorem Progress.acted (h : Progress P b R O (.acting [])) : Translation P b R O := by
  obtain ⟨R', ev, O', out, rfl, rfl, htr, himg⟩ := h
  rw [List.map_nil, List.append_nil] at himg
  exact htr.snoc himg

theorem Progress.batch {bt bt' : Batch V} (h : Progress P b R O (.batch bt))
    (hs : BatchStep P.toolConcurrency P.filler bt evs bt') : Progress P b R (O ++ outputs evs) (.batch bt') := by
  obtain ⟨R', calls, O', t, hR, rfl, htr, hrun⟩ := h
  refine ⟨R', calls, O', t ++ evs, hR, ?_, htr, hrun.snoc hs⟩
  rw [outputs_append, List.append_assoc]

theorem Progress.finished {bt : Batch V} (h : Progress P b R O (.batch bt)) (hfin : bt.pc = .finished) :
    Translation P b R O := by
  obtain ⟨R', calls, O', t, rfl, rfl, htr, hrun⟩ := h
  exact htr.snoc ⟨t, bt, hrun, hfin, rfl⟩

theorem Progress.exit {s₁ : State σ τ V} {x x' : Exit V} (h : Progress P b R O (.exiting x))
    (hs : ExitStep s x evs s₁ x') : Progress P b R (O ++ outputs evs) (.exiting x') := by
  cases hs with
  | X_Closed =>
      rw [show outputs [Event.recordEnd _ (none : Option (Err V))] = [] from rfl, List.append_nil]
      exact ⟨_, h, .inl rfl⟩
  | X_Failed =>
      rw [show outputs [Event.recordEnd _ (some _ : Option (Err V))] = [] from rfl, List.append_nil]
      exact h
  | @X_Report e p => exact ⟨_, h, .inr ⟨e, rfl⟩⟩
  | X_Cancel =>
      rw [show outputs ([] : List (Event V)) = [] from rfl, List.append_nil]
      exact h

end places

/-- The event is taken from the channel, and its dispatch begins. -/
theorem Dispatched.receive (h : Dispatched P b t s) (he : s.events = .select) {ev : LLMEvent V}
    (hturn : s'.turn = turnAfter s.turn ev) (he' : s'.events = dispatch b (turnAfter s.turn ev) ev) :
    Dispatched P b (t ++ [.received ev]) s' := by
  intro hk
  rw [received_append] at hk ⊢
  have hlt : completed (received t) < 2 ^ 63 := by
    rw [completed_append] at hk
    exact Nat.lt_of_le_of_lt (Nat.le_add_right _ _) hk
  obtain ⟨hcount, hp⟩ := h hlt
  rw [he] at hp
  have hafter : turnAfter s.turn ev = completed (received t ++ [ev]) := by
    rw [hcount]
    exact turnAfter_completed _ ev hk
  rw [hturn, he', hafter, outputs_append, show outputs [Event.received ev] = [] from rfl, List.append_nil]
  exact ⟨rfl, progress_dispatch hp ev hk⟩

theorem Dispatched.own (hb : ∀ b', P.bridges = .ok b' → b'.2 = b) (h : Dispatched P b t s)
    (hs : EventsStep P s evs s') : Dispatched P b (t ++ evs) s' := by
  cases hs with
  | E_Event he hbr _ => exact h.receive he rfl (by rw [hb _ hbr])
  | E_Closed he _ | E_Error he _ => exact h.silent rfl fun R O hp => show Translation P b R O by rwa [he] at hp
  | E_NoError he _ _ => exact h.silent rfl fun _ _ hp => hp
  | @E_Send f err he =>
      refine h.advance rfl rfl fun R O hp => ?_
      rw [he] at hp
      cases err <;> exact hp.sent
  | E_Act he =>
      refine h.advance (received_shows _ _) rfl fun R O hp => ?_
      rw [he] at hp
      rw [outputs_shows]
      exact hp.act
  | E_Acted he =>
      refine h.silent rfl fun R O hp => ?_
      rw [he] at hp
      exact hp.acted
  | E_Batch he hcore =>
      refine h.advance hcore.received_eq rfl fun R O hp => ?_
      rw [he] at hp
      exact hp.batch (.core hcore)
  | E_Finish he hfin =>
      refine h.silent rfl fun R O hp => ?_
      rw [he] at hp
      exact hp.finished hfin
  | E_Exit he hx =>
      refine h.advance (by cases hx <;> rfl) (by cases hx <;> rfl) fun R O hp => ?_
      rw [he] at hp
      exact hp.exit hx

/-- Before `OnSessionStart` the goroutine does not run. -/
theorem Outcomes.unstarted {t' : List (Event V)} (h : Outcomes t' s) (hm : s.main = .starting) : s.events = .idle := by
  have hmain := h.main
  have hevents := h.events
  have hoff := (h.quiet (by rw [hm]; exact id)).2
  rw [hm] at hmain
  rw [hmain.1] at hevents
  generalize s.events = pc at hoff hevents
  cases pc with
  | idle => rfl
  | exiting x =>
      cases x with
      | gone => exact nomatch hevents
      | record _ _ | report _ | cancel => exact hoff.elim
  | select | sending _ | acting _ | batch _ => exact hoff.elim

theorem Dispatched.view {t' : List (Event V)} (hb : ∀ b', P.bridges = .ok b' → b'.2 = b) (ho : Outcomes t' s)
    (h : Dispatched P b t s) (hs : EventsView P s evs s') : Dispatched P b (t ++ evs) s' := by
  cases hs.effect with
  | own hs => exact h.own hb hs
  | still hturn he => exact h.silent hturn fun R O hp => he ▸ hp
  | start hm hturn he =>
      refine h.silent hturn fun R O hp => ?_
      rw [ho.unstarted hm] at hp
      rw [he, hp.1, hp.2]
      exact .nil
  | @hold bt _ d _ he hturn he' hhold =>
      refine h.silent hturn fun R O hp => ?_
      rw [he] at hp
      have hmoved := hp.batch (.hold d hhold)
      rw [hhold.outputs_eq, List.append_nil] at hmoved
      exact he' ▸ hmoved

theorem Dispatched.run (hb : ∀ b', P.bridges = .ok b' → b'.2 = b) {x : σ} {l : τ}
    (hr : Run (EventsView P) (State.init x l) t s) : Dispatched P b t s := by
  refine (hr.invariant (I := fun t s => Dispatched P b t s ∧ ∃ t', Outcomes t' s) ?_ fun t s evs s' h hs => ?_).1
  · exact ⟨fun _ => ⟨rfl, rfl, rfl⟩, [], .init x l⟩
  · obtain ⟨hd, t', ho⟩ := h
    obtain ⟨evs', hstep⟩ := hs.step
    exact ⟨hd.view hb ho hs, _, ho.step hstep⟩

/-! ## From the place to the whole translation -/

/-- What the goroutine has put out begins the translation of what it has received, or is followed by the `OnError`
of its exit. -/
theorem Progress.translation {R : List (LLMEvent V)} {O : List (Output V)} {pc : EventsPc V}
    (h : Progress P b R O pc) : ∃ full, Translation P b R full ∧
      (O <+: full ∨ ∃ e, O = full ++ [.observe (.onError e)]) := by
  cases pc with
  | idle =>
      obtain ⟨rfl, rfl⟩ := h
      exact ⟨[], .nil, .inl (List.prefix_refl _)⟩
  | select => exact ⟨O, h, .inl (List.prefix_refl _)⟩
  | sending f => exact ⟨_, h.sent, .inl (List.prefix_append _ _)⟩
  | acting as =>
      obtain ⟨R', ev, O', out, rfl, rfl, htr, himg⟩ := h
      refine ⟨_, htr.snoc himg, .inl ?_⟩
      rw [← List.append_assoc]
      exact List.prefix_append _ _
  | batch bt =>
      -- the batch can be brought to its end
      obtain ⟨R', calls, O', t', rfl, rfl, htr, hrun⟩ := h
      obtain ⟨t'', bt', hcore, hfin⟩ := (BatchLaw.run hrun).can_finish P.positive
      have hwhole := hrun.trans (hcore.mono fun _ _ _ hs => .core hs)
      refine ⟨_, htr.snoc ⟨_, bt', hwhole, hfin, rfl⟩, .inl ?_⟩
      rw [outputs_append, ← List.append_assoc]
      exact List.prefix_append _ _
  | exiting x =>
      cases x with
      | record _ _ | report _ => exact ⟨O, h, .inl (List.prefix_refl _)⟩
      | cancel | gone =>
          obtain ⟨O', htr, hO | ⟨e, hO⟩⟩ := h
          · exact ⟨O', htr, .inl (hO ▸ List.prefix_refl _)⟩
          · exact ⟨O', htr, .inr ⟨e, hO⟩⟩

/-! ## Marks -/

def Output.mark? : Output V → Option String
  | .mark name => some name
  | _ => none

def marks (O : List (Output V)) : List String := O.filterMap Output.mark?

theorem marks_append (O O' : List (Output V)) : marks (O ++ O') = marks O ++ marks O' := List.filterMap_append

theorem BatchStep.marks_eq {n : Nat} {filler : Filler} {bt bt' : Batch V} (hs : BatchStep n filler bt evs bt') :
    marks (outputs evs) = [] := by
  cases hs with
  | core hs => cases hs <;> rfl
  | hold _ hs =>
      rw [hs.outputs_eq]
      rfl

theorem batch_marks {n : Nat} {filler : Filler} {bt bt' : Batch V} (hr : Run (BatchStep n filler) bt t bt') :
    marks (outputs t) = [] := by
  refine hr.invariant (I := fun t _ => marks (outputs t) = []) rfl fun t _ evs _ h hs => ?_
  rw [outputs_append, marks_append, h, hs.marks_eq, List.append_nil]

/-- The names of the first `n` marks. -/
def markNames (n : Nat) : List String := (List.range n).map fun k => "turn-" ++ toString (k + 1)

theorem markNames_succ (n : Nat) : markNames (n + 1) = markNames n ++ ["turn-" ++ toString (n + 1)] := by
  rw [markNames, List.range_succ, List.map_append]
  rfl

theorem markNames_nodup (n : Nat) : (markNames n).Nodup := by
  refine List.pairwise_map.mpr (List.nodup_range.imp fun hne h => hne ?_)
  exact Nat.succ.inj (toString_injective ((String.append_right_inj _).mp h))

theorem Image.marks_eq {R : List (LLMEvent V)} {ev : LLMEvent V} {out : List (Output V)}
    (h : Image P b (completed (R ++ [ev])) ev out) :
    markNames (completed R) ++ marks out = markNames (completed (R ++ [ev])) := by
  rw [completed_append] at h ⊢
  cases ev with
  | turnComplete =>
      rw [show out = _ from h]
      exact (markNames_succ _).symm
  | audioOut f =>
      obtain ⟨conv, _, rfl⟩ := h
      exact List.append_nil _
  | toolCalls calls =>
      obtain ⟨t, b', hr, _, rfl⟩ := h
      rw [batch_marks hr]
      exact List.append_nil _
  | assistantText _ _ | callerTranscript _ | interrupted =>
      rw [show out = _ from h]
      exact List.append_nil _

theorem Translation.marks_eq {R : List (LLMEvent V)} {O : List (Output V)} (h : Translation P b R O) :
    marks O = markNames (completed R) := by
  induction h with
  | nil => rfl
  | snoc _ himg ih =>
      rw [marks_append, ih]
      exact himg.marks_eq

/-! ## Failed sends -/

/-- A failed `Send` is the last thing that is dispatched: the goroutine is on its way out, and only its `OnError` is
left. -/
def SendLaw (t : List (Event V)) (s : State σ τ V) : Prop :=
  ∀ pre f e post, t = pre ++ .send f (some e) :: post →
    (received post = [] ∧ ∀ o ∈ outputs post, ∃ e', o = .observe (.onError e')) ∧ ∃ x, s.events = .exiting x

/-- The only step that shows a failed `Send`. -/
theorem EventsStep.send_failed {pre post : List (Event V)} {f : Frame} {e : Err V} (hs : EventsStep P s evs s')
    (h : evs = pre ++ .send f (some e) :: post) : post = [] ∧ ∃ x, s'.events = .exiting x := by
  have hmem : Event.send f (some e) ∈ evs := h ▸ List.mem_append_right pre List.mem_cons_self
  cases hs with
  | @E_Send f' err he =>
      have hlen := congrArg List.length h
      rw [List.length_singleton, List.length_append, List.length_cons] at hlen
      rw [List.mem_singleton] at hmem
      cases hmem
      exact ⟨List.eq_nil_of_length_eq_zero (by omega), _, rfl⟩
  | @E_Act a _ _ _ => cases a <;> simp [Action.shows] at hmem
  | E_Batch _ hcore => cases hcore <;> simp at hmem
  | E_Exit _ hx => cases hx <;> simp at hmem
  | E_Event _ _ _ | E_Closed _ _ | E_Error _ _ | E_NoError _ _ _ | E_Acted _ | E_Finish _ _ => simp at hmem

/-- A goroutine on its way out dispatches nothing. -/
theorem EventsStep.exiting {x : Exit V} (hs : EventsStep P s evs s') (he : s.events = .exiting x) :
    (received evs = [] ∧ ∀ o ∈ outputs evs, ∃ e', o = .observe (.onError e')) ∧ ∃ x', s'.events = .exiting x' := by
  cases hs with
  | E_Exit _ hx =>
      refine ⟨?_, _, rfl⟩
      cases hx with
      | X_Report =>
          refine ⟨rfl, fun o ho => ?_⟩
          rw [List.mem_singleton.mp ho]
          exact ⟨_, rfl⟩
      | X_Closed | X_Failed | X_Cancel => exact ⟨rfl, nofun⟩
  | E_Event h _ _ | E_Closed h _ | E_Error h _ | E_NoError h _ _ | E_Send _ h | E_Act h | E_Acted h | E_Batch h _
  | E_Finish h _ =>
      rw [he] at h
      exact nomatch h

/-- The other goroutines do not move one that is on its way out. -/
theorem EventsView.exiting {x : Exit V} (hs : EventsView P s evs s') (he : s.events = .exiting x)
    (hm : s.main ≠ .starting) :
    (received evs = [] ∧ ∀ o ∈ outputs evs, ∃ e', o = .observe (.onError e')) ∧ ∃ x', s'.events = .exiting x' := by
  cases hs.effect with
  | own hs => exact hs.exiting he
  | still _ heq => exact ⟨⟨rfl, nofun⟩, x, heq.trans he⟩
  | start h _ _ => exact absurd h hm
  | hold h _ _ _ =>
      rw [he] at h
      exact nomatch h

theorem SendLaw.view {t' : List (Event V)} (ho : Outcomes t' s) (h : SendLaw t s) (hs : EventsView P s evs s') :
    SendLaw (t ++ evs) s' := by
  intro pre f e post heq
  -- the failed send is among the events of the step, or before them
  have hnew : ∀ pre', evs = pre' ++ .send f (some e) :: post → post = [] ∧ ∃ x, s'.events = .exiting x := by
    intro pre' hevs
    cases hs.effect with
    | own hs => exact hs.send_failed hevs
    | still _ _ | start _ _ _ | hold _ _ _ _ => simp at hevs
  rcases List.append_eq_append_iff.mp heq with ⟨a, _, hevs⟩ | ⟨c, ht, hevs⟩
  · obtain ⟨rfl, hx⟩ := hnew a hevs
    exact ⟨⟨rfl, nofun⟩, hx⟩
  · cases c with
    | nil =>
        obtain ⟨rfl, hx⟩ := hnew [] hevs.symm
        exact ⟨⟨rfl, nofun⟩, hx⟩
    | cons y post' =>
        rw [List.cons_append, List.cons.injEq] at hevs
        obtain ⟨rfl, rfl⟩ := hevs
        obtain ⟨⟨hrec, hout⟩, x, hx⟩ := h pre f e post' ht
        have hm : s.main ≠ .starting := by
          intro hm
          rw [ho.unstarted hm] at hx
          exact nomatch hx
        obtain ⟨⟨hrec', hout'⟩, hx'⟩ := hs.exiting hx hm
        refine ⟨⟨?_, ?_⟩, hx'⟩
        · rw [received_append, hrec, hrec']
          rfl
        · rw [outputs_append]
          exact List.forall_mem_append.mpr ⟨hout, hout'⟩

theorem SendLaw.run {x : σ} {l : τ} (hr : Run (EventsView P) (State.init x l) t s) : SendLaw t s := by
  refine (hr.invariant (I := fun t s => SendLaw t s ∧ ∃ t', Outcomes t' s) ?_ fun t s evs s' h hs => ?_).1
  · refine ⟨fun pre f e post h => ?_, [], .init x l⟩
    simp at h
  · obtain ⟨hsend, t', ho⟩ := h
    obtain ⟨evs', hstep⟩ := hs.step
    exact ⟨hsend.view ho hs, _, ho.step hstep⟩

/-! ## Every dispatch comes to its end -/

/-- The places inside a dispatch. -/
def EventsPc.Dispatching : EventsPc V → Prop
  | .sending _ | .acting _ | .batch _ => True
  | .idle | .select | .exiting _ => False

/-- A step of the goroutine inside a dispatch, where no `Send` fails. -/
abbrev InsideStep (P : Config σ τ V) : State σ τ V → List (Event V) → State σ τ V → Prop :=
  Restrict (EventsStep P) fun s evs _ => s.events.Dispatching ∧ ∀ f e, Event.send f (some e) ∉ evs

theorem InsideStep.received_eq (h : InsideStep P s evs s') : received evs = [] := by
  obtain ⟨hs, hin, _⟩ := h
  cases hs with
  | E_Event he _ _ | E_Exit he _ =>
      rw [he] at hin
      exact hin.elim
  | E_Act _ => exact received_shows _ _
  | E_Batch _ hcore => exact hcore.received_eq
  | E_Closed _ _ | E_Error _ _ | E_NoError _ _ _ | E_Send _ _ | E_Acted _ | E_Finish _ _ => rfl

theorem acting_ends (as : List (Action V)) : ∀ s : State σ τ V, s.events = .acting as →
    ∃ t', Run (InsideStep P) s t' { s with events := .select } := by
  induction as with
  | nil => exact fun s he => ⟨_, .single ⟨.E_Acted he, he ▸ trivial, by simp⟩⟩
  | cons a as ih =>
      intro s he
      obtain ⟨t', hr⟩ := ih { s with events := .acting as } rfl
      refine ⟨_, hr.cons ⟨.E_Act (p := false) he, he ▸ trivial, ?_⟩⟩
      cases a <;> simp [Action.shows]

theorem batch_goes_on {bt bt' : Batch V} {t' : List (Event V)} (he : s.events = .batch bt)
    (hr : Run (CoreStep P.toolConcurrency) bt t' bt') : Run (InsideStep P) s t' { s with events := .batch bt' } := by
  induction hr with
  | refl =>
      rw [← he]
      exact .refl
  | snoc _ hs ih =>
      refine ih.snoc ⟨.E_Batch rfl hs, trivial, ?_⟩
      cases hs <;> simp

/-- The goroutine and its workers alone bring the dispatch of the event in hand to its end. -/
theorem dispatch_ends (hlaw : ∀ bt, s.events = .batch bt → ∃ calls t, BatchLaw P.toolConcurrency calls t bt)
    (hi : s.events ≠ .idle) (hx : ∀ x, s.events ≠ .exiting x) :
    ∃ t' hs, Run (InsideStep P) s t' { s with events := .select, holds := hs } := by
  cases he : s.events with
  | idle => exact absurd he hi
  | select =>
      rw [← he]
      exact ⟨[], s.holds, .refl⟩
  | sending f => exact ⟨_, s.holds, .single ⟨.E_Send none he, he ▸ trivial, by simp⟩⟩
  | acting as =>
      obtain ⟨t', hr⟩ := acting_ends as s he
      exact ⟨t', s.holds, hr⟩
  | batch bt =>
      obtain ⟨calls, t, hlaw⟩ := hlaw bt he
      obtain ⟨t', bt', hr, hfin⟩ := hlaw.can_finish P.positive
      exact ⟨_, _, (batch_goes_on he hr).snoc ⟨.E_Finish rfl hfin, trivial, by simp⟩⟩
  | exiting x => exact absurd he (hx x)

theorem inside_received (hr : Run (InsideStep P) s t s') : received t = [] := by
  refine hr.invariant (I := fun t _ => received t = []) rfl fun t _ evs _ h hs => ?_
  rw [received_append, h, hs.received_eq]
  rfl

theorem Progress.finishes {R : List (LLMEvent V)} {O : List (Output V)} (h : Progress P b R O s.events)
    (hi : s.events ≠ .idle) : ∃ t' s', Run (EventsStep P) s t' s' ∧ received t' = [] ∧
      (s'.events = .select ∨ ∃ x, s'.events = .exiting x) := by
  by_cases hx : ∃ x, s.events = .exiting x
  · exact ⟨[], s, .refl, rfl, .inr hx⟩
  · have hlaw : ∀ bt, s.events = .batch bt → ∃ calls t, BatchLaw P.toolConcurrency calls t bt := by
      intro bt he
      rw [he] at h
      obtain ⟨_, calls, _, t', _, _, _, hrun⟩ := h
      exact ⟨calls, t', BatchLaw.run hrun⟩
    obtain ⟨t', hs, hr⟩ := dispatch_ends hlaw hi fun x he => hx ⟨x, he⟩
    exact ⟨t', _, hr.of_restrict, inside_received hr, .inl rfl⟩

/-! ## A session that completes turns -/

def monoFormat : AudioFormat := ⟨.pcm16le, 16000, 1⟩

/-- A transport without a caller, and an LLM that completes one turn after the other. -/
def turnsOnly : Config Unit Unit Unit where
  transport :=
    { start := id, tick := fun _ _ _ _ => False, peer := fun _ _ => False, recv := fun _ _ _ _ => False, close := id
      inboundFormat := monoFormat, outboundFormat := monoFormat }
  llm :=
    { start := id, tick := fun _ _ _ _ => False, peer := fun _ _ => False
      recv := fun _ _ r _ => r = .item .turnComplete, close := id
      inboundFormat := monoFormat, outboundFormat := monoFormat, openStep := fun _ _ r _ => r = some none }
  filler := silentFiller
  toolConcurrency := 1
  positive := Nat.one_pos
  setup := { history := [], wakeSignal := "" }

theorem turnsOnly_bridges : turnsOnly.bridges = .ok (.passthrough, .passthrough) := rfl

theorem turnsOnly_starts : ∃ s, Run (EventsView turnsOnly) (State.init () ()) [] s ∧ s.events = .select := by
  have h₁ : Run (EventsView turnsOnly) (State.init () ()) _ _ := .single (.main (.M_Resolved rfl turnsOnly_bridges))
  have h₂ := h₁.snoc (.main (.M_Opened (l := ()) rfl rfl))
  have h₃ := h₂.snoc (.main (.M_Injected (p := false) rfl))
  have h₄ := h₃.snoc (.main (.M_Receive rfl))
  have h₅ := h₄.snoc (.main (.M_Events rfl))
  have h₆ := h₅.snoc (.main (.M_Start (p := false) rfl))
  exact ⟨_, h₆, rfl⟩

theorem turnsOnly_turn {s : State Unit Unit Unit} (he : s.events = .select) :
    ∃ t s', Run (EventsView turnsOnly) s t s' ∧ s'.events = .select ∧ received t = [.turnComplete] ∧
      outputs t = [.mark ("turn-" ++ itoa (wrap (s.turn + 1))), .observe (.onTurnComplete (wrap (s.turn + 1)))] := by
  have h₁ : Run (EventsView turnsOnly) s _ _ :=
    .single (.own (.E_Event (l := ()) he turnsOnly_bridges rfl))
  have h₂ := h₁.snoc (.own (.E_Act (p := false) rfl))
  have h₃ := h₂.snoc (.own (.E_Act (p := false) rfl))
  have h₄ := h₃.snoc (.own (.E_Acted rfl))
  exact ⟨_, _, h₄, rfl, rfl, rfl⟩

theorem turnsOnly_turns (n : Nat) : ∃ t s, Run (EventsView turnsOnly) (State.init () ()) t s ∧ s.events = .select ∧
    completed (received t) = n := by
  induction n with
  | zero =>
      obtain ⟨s, hr, he⟩ := turnsOnly_starts
      exact ⟨[], s, hr, he, rfl⟩
  | succ n ih =>
      obtain ⟨t, s, hr, he, hn⟩ := ih
      obtain ⟨t', s', hr', he', hrec, _⟩ := turnsOnly_turn he
      refine ⟨_, s', hr.trans hr', he', ?_⟩
      rw [received_append, completed_append, hn, hrec]
      rfl

theorem Translation.inv {R : List (LLMEvent V)} {ev : LLMEvent V} {O : List (Output V)}
    (h : Translation P b (R ++ [ev]) O) : ∃ O' out, O = O' ++ out ∧ Translation P b R O' ∧
      Image P b (completed (R ++ [ev])) ev out := by
  generalize hR : R ++ [ev] = R' at h
  cases h with
  | nil => simp at hR
  | snoc htr himg =>
      obtain ⟨rfl, hev⟩ := List.append_inj' hR rfl
      cases hev
      exact ⟨_, _, rfl, htr, himg⟩

end Gopkg.Voice
