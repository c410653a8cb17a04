import Gopkg.Voice.Session

/-!
# How a session ends

The invariant that ties the reason and the error of `Run` to what was recorded, and that keeps the observer
callbacks before `OnSessionEnd`.
-/

namespace Gopkg.Voice

open Lts

variable {σ τ V : Type} {P : Config σ τ V} {t evs : List (Event V)} {s s' : State σ τ V}

/-- The error of an event that ends the session with `fatal_error` when it is recorded first. -/
def Event.fatal? : Event V → Option (Err V)
  | .unresolved e => some e
  | .opened e => e
  | .recordEnd .fatalError e => e
  | _ => none

def firstFatal (t : List (Event V)) : Option (Err V) := t.findSome? Event.fatal?

/-- The reason and the error agree with each other, with the caller's context and with the trace. -/
def Agrees (t : List (Event V)) (ctx : Option (Err V)) : EndReason → Option (Err V) → Prop
  | .transportClosed, e => e = none
  | .llmClosed, e => e = none
  | .contextDone, e => e.isSome ∧ ctx = e
  | .fatalError, e => e.isSome ∧ firstFatal t = e

def Callback.IsEnd : Callback V → Prop
  | .onSessionEnd _ => True
  | _ => False

/-- Neither a fatal event nor `OnSessionEnd`. -/
def Event.Benign (ev : Event V) : Prop := ev.fatal? = none ∧ ∀ c ∈ ev.callback?, ¬ c.IsEnd

def NoEnd (cs : List (Callback V)) : Prop := ∀ c ∈ cs, ¬ c.IsEnd

theorem callbacks_append (t evs : List (Event V)) : callbacks (t ++ evs) = callbacks t ++ callbacks evs :=
  List.filterMap_append

theorem firstFatal_append (t evs : List (Event V)) :
    firstFatal (t ++ evs) = (firstFatal t).or (firstFatal evs) :=
  List.findSome?_append

theorem firstFatal_benign (h : ∀ ev ∈ evs, ev.Benign) : firstFatal evs = none :=
  List.findSome?_eq_none_iff.mpr fun ev hev => (h ev hev).1

theorem noEnd_benign (h : ∀ ev ∈ evs, ev.Benign) : NoEnd (callbacks evs) := by
  intro c hc
  obtain ⟨ev, hev, hcev⟩ := List.mem_filterMap.mp hc
  exact (h ev hev).2 c hcev

theorem NoEnd.append {cs cs' : List (Callback V)} (h : NoEnd cs) (h' : NoEnd cs') : NoEnd (cs ++ cs') :=
  List.forall_mem_append.mpr ⟨h, h'⟩

theorem Agrees.append {ctx : Option (Err V)} {r : EndReason} {e : Option (Err V)} (h : Agrees t ctx r e)
    (evs : List (Event V)) : Agrees (t ++ evs) ctx r e := by
  cases r with
  | transportClosed => exact h
  | llmClosed => exact h
  | contextDone => exact h
  | fatalError =>
      obtain ⟨he, hf⟩ := h
      obtain ⟨x, rfl⟩ := Option.isSome_iff_exists.mp he
      exact ⟨rfl, by rw [firstFatal_append, hf, Option.some_or]⟩

/-! ## The invariant -/

def MainPc.Waits : MainPc V → Prop
  | .waiting | .draining => True
  | _ => False

def AudioPc.Off : AudioPc V → Prop
  | .idle | .exiting .gone => True
  | _ => False

def EventsPc.Off : EventsPc V → Prop
  | .idle | .exiting .gone => True
  | _ => False

/-- What a goroutine may still record, and that one that has recorded left a record. -/
def Exit.Lawful (ended : Option (EndReason × Option (Err V))) : Exit V → Prop
  | .record .fatalError e => e.isSome
  | .record .contextDone _ => False
  | .record _ e => e = none
  | _ => ended.isSome

def AudioPc.Lawful (ended : Option (EndReason × Option (Err V))) : AudioPc V → Prop
  | .exiting x => x.Lawful ended
  | _ => True

def EventsPc.Lawful (ended : Option (EndReason × Option (Err V))) : EventsPc V → Prop
  | .exiting x => x.Lawful ended
  | .acting as => ∀ a ∈ as, ∀ p, (Action.shows p a).Benign
  | _ => True

def MainLaw (t : List (Event V)) (s : State σ τ V) : MainPc V → Prop
  | .resolving | .opening | .injected | .receiving | .subscribing | .starting =>
      s.ended = none ∧ firstFatal t = none ∧ NoEnd (callbacks t)
  | .failing e | .failed e => firstFatal t = some e ∧ NoEnd (callbacks t) ∧ s.ended = none
  | .waiting | .draining => (s.ended = none → firstFatal t = none) ∧ NoEnd (callbacks t)
  | .closingTransport r e | .closingLLM r e | .ending r e => s.ended = some (r, e) ∧ NoEnd (callbacks t)
  | .returned e => ∃ cs r, callbacks t = cs ++ [.onSessionEnd r] ∧ NoEnd cs ∧ Agrees t s.ctx r e ∧
      (s.ended = none ∨ s.ended = some (r, e))

structure Outcomes (t : List (Event V)) (s : State σ τ V) : Prop where
  main : MainLaw t s s.main
  quiet : ¬ s.main.Waits → s.audio.Off ∧ s.events.Off
  audio : s.audio.Lawful s.ended
  events : s.events.Lawful s.ended
  ended : ∀ r e, s.ended = some (r, e) → Agrees t s.ctx r e

theorem Outcomes.init (x : σ) (l : τ) : Outcomes [] (State.init x l : State σ τ V) where
  main := ⟨rfl, rfl, by simp [callbacks, NoEnd]⟩
  quiet _ := ⟨trivial, trivial⟩
  audio := trivial
  events := trivial
  ended := nofun

/-- Steps that record nothing. After `OnSessionEnd` they call no observer. -/
theorem Outcomes.benign (h : Outcomes t s) (hev : ∀ ev ∈ evs, ev.Benign) (hmain : s'.main = s.main)
    (hctx : s'.ctx = s.ctx) (hended : s'.ended = s.ended)
    (hret : ∀ e, s.main = .returned e → callbacks evs = [])
    (hquiet : ¬ s.main.Waits → s'.audio.Off ∧ s'.events.Off)
    (haudio : s'.audio.Lawful s.ended) (hevents : s'.events.Lawful s.ended) : Outcomes (t ++ evs) s' := by
  have hfatal : firstFatal (t ++ evs) = firstFatal t := by
    rw [firstFatal_append, firstFatal_benign hev, Option.or_none]
  have hnoEnd : NoEnd (callbacks t) → NoEnd (callbacks (t ++ evs)) := by
    intro hn
    rw [callbacks_append]
    exact hn.append (noEnd_benign hev)
  refine ⟨?_, hmain ▸ hquiet, hended ▸ haudio, hended ▸ hevents, ?_⟩
  · have hm := h.main
    rw [hmain]
    cases hs : s.main with
    | returned e =>
        rw [hs] at hm
        obtain ⟨cs, r, hcs, hn, ha, he⟩ := hm
        refine ⟨cs, r, ?_, hn, hctx ▸ ha.append evs, hended ▸ he⟩
        rw [callbacks_append, hcs, hret e hs, List.append_nil]
    | failing e | failed e =>
        rw [hs] at hm
        exact ⟨hfatal.trans hm.1, hnoEnd hm.2.1, hended.trans hm.2.2⟩
    | waiting => rw [hs] at hm; exact ⟨fun he => hfatal.trans (hm.1 (hended ▸ he)), hnoEnd hm.2⟩
    | draining => rw [hs] at hm; exact ⟨fun he => hfatal.trans (hm.1 (hended ▸ he)), hnoEnd hm.2⟩
    | closingTransport r e => rw [hs] at hm; exact ⟨hended.trans hm.1, hnoEnd hm.2⟩
    | closingLLM r e => rw [hs] at hm; exact ⟨hended.trans hm.1, hnoEnd hm.2⟩
    | ending r e => rw [hs] at hm; exact ⟨hended.trans hm.1, hnoEnd hm.2⟩
    | resolving | opening | injected | receiving | subscribing | starting =>
        rw [hs] at hm
        exact ⟨hended.trans hm.1, hfatal.trans hm.2.1, hnoEnd hm.2.2⟩
  · intro r e he
    rw [hctx]
    exact (h.ended r e (hended ▸ he)).append evs

theorem Exit.Lawful.mono {ended ended' : Option (EndReason × Option (Err V))} {x : Exit V}
    (h : x.Lawful ended) (hle : ended.isSome → ended'.isSome) : x.Lawful ended' := by
  cases x with
  | record r e => cases r <;> exact h
  | report e => exact hle h
  | cancel => exact hle h
  | gone => exact hle h

theorem AudioPc.Lawful.mono {ended ended' : Option (EndReason × Option (Err V))} {a : AudioPc V}
    (h : a.Lawful ended) (hle : ended.isSome → ended'.isSome) : a.Lawful ended' := by
  cases a with
  | exiting x => exact Exit.Lawful.mono h hle
  | idle | select | sending _ => exact h

theorem EventsPc.Lawful.mono {ended ended' : Option (EndReason × Option (Err V))} {a : EventsPc V}
    (h : a.Lawful ended) (hle : ended.isSome → ended'.isSome) : a.Lawful ended' := by
  cases a with
  | exiting x => exact Exit.Lawful.mono h hle
  | idle | select | sending _ | acting _ | batch _ => exact h

theorem recordEnd_isSome (s : State σ τ V) (r : EndReason) (e : Option (Err V)) :
    (s.recordEnd r e).ended.isSome := by
  simp [State.recordEnd]

theorem agrees_recordEnd (h : Outcomes t s) (hw : s.main.Waits) {r : EndReason} {e : Option (Err V)}
    (hlaw : (Exit.record r e).Lawful s.ended) :
    ∀ r' e', (s.recordEnd r e).ended = some (r', e') → Agrees (t ++ [.recordEnd r e]) s.ctx r' e' := by
  intro r' e' he
  cases hs : s.ended with
  | some p =>
      rw [State.recordEnd, hs] at he
      exact (h.ended r' e' (hs.trans he)).append _
  | none =>
      have hnone : firstFatal t = none := by
        have hm := h.main
        cases hmain : s.main <;> rw [hmain] at hm hw
        case waiting => exact hm.1 hs
        case draining => exact hm.1 hs
        all_goals exact hw.elim
      rw [State.recordEnd, hs] at he
      simp only [Option.none_or, Option.some.injEq] at he
      split at he
      · rename_i hctx
        cases he
        exact ⟨hctx, rfl⟩
      · cases he
        cases r with
        | transportClosed => exact hlaw
        | llmClosed => exact hlaw
        | contextDone => exact hlaw.elim
        | fatalError =>
            refine ⟨hlaw, ?_⟩
            rw [firstFatal_append, hnone, Option.none_or]
            cases e with
            | none => cases hlaw
            | some e => rfl

/-- A call of `recordEnd` by one of the goroutines. -/
theorem Outcomes.recorded (h : Outcomes t s) (hw : s.main.Waits) {r : EndReason} {e : Option (Err V)}
    (hlaw : (Exit.record r e).Lawful s.ended) (hmain : s'.main = s.main) (hctx : s'.ctx = s.ctx)
    (hended : s'.ended = (s.recordEnd r e).ended)
    (haudio : s'.audio.Lawful s'.ended) (hevents : s'.events.Lawful s'.ended) :
    Outcomes (t ++ [.recordEnd r e]) s' := by
  refine ⟨?_, fun hn => absurd (hmain ▸ hw) hn, haudio, hevents, ?_⟩
  · have hm := h.main
    have hsome : s'.ended ≠ none := by
      rw [hended]
      exact Option.isSome_iff_ne_none.mp (recordEnd_isSome s r e)
    have hcs : callbacks (t ++ [.recordEnd r e]) = callbacks t := by
      rw [callbacks_append]
      exact List.append_nil _
    rw [hmain]
    cases hs : s.main <;> rw [hs] at hm hw
    case waiting => exact ⟨fun he => absurd he hsome, hcs ▸ hm.2⟩
    case draining => exact ⟨fun he => absurd he hsome, hcs ▸ hm.2⟩
    all_goals exact hw.elim
  · rw [hctx, hended]
    exact agrees_recordEnd h hw hlaw

/-! ## The steps -/

theorem CoreStep.benign {n : Nat} {b b' : Batch V} (h : CoreStep n b evs b') : ∀ ev ∈ evs, ev.Benign := by
  cases h <;> simp [Event.Benign, Event.fatal?, Event.callback?, Callback.IsEnd]

theorem HoldStep.silent {filler : Filler} {d hd : Bool} {h h' : HoldPc}
    (hs : HoldStep filler d hd h evs h') : (∀ ev ∈ evs, ev.Benign) ∧ callbacks evs = [] := by
  cases hs <;> simp [Event.Benign, Event.fatal?, Event.callback?, callbacks]

theorem Outcomes.waits_of_audio (h : Outcomes t s) (ha : ¬ s.audio.Off) : s.main.Waits :=
  Classical.byContradiction fun hn => ha (h.quiet hn).1

theorem Outcomes.waits_of_events (h : Outcomes t s) (ha : ¬ s.events.Off) : s.main.Waits :=
  Classical.byContradiction fun hn => ha (h.quiet hn).2

theorem MainPc.Waits.not_returned (hw : s.main.Waits) {e : Option (Err V)} : s.main ≠ .returned e := by
  intro h
  rw [h] at hw
  exact hw

theorem Outcomes.goroutine (h : Outcomes t s) (hw : s.main.Waits) (hev : ∀ ev ∈ evs, ev.Benign)
    (hmain : s'.main = s.main) (hctx : s'.ctx = s.ctx) (hended : s'.ended = s.ended)
    (haudio : s'.audio.Lawful s.ended) (hevents : s'.events.Lawful s.ended) : Outcomes (t ++ evs) s' :=
  h.benign hev hmain hctx hended (fun _ he => absurd he hw.not_returned) (fun hn => absurd hw hn) haudio hevents

theorem audioAfter_lawful (b : Bridge) (f : Frame) (ended : Option (EndReason × Option (Err V))) :
    (audioAfter b f : AudioPc V).Lawful ended := by
  unfold audioAfter
  split
  · trivial
  · exact rfl

theorem audioSent_lawful (err : Option (Err V)) (ended : Option (EndReason × Option (Err V))) :
    (audioSent err).Lawful ended := by
  cases err with
  | none => trivial
  | some e => exact rfl

theorem dispatch_lawful (b : Bridge) (n : Int) (ev : LLMEvent V)
    (ended : Option (EndReason × Option (Err V))) : (dispatch b n ev).Lawful ended := by
  cases ev with
  | audioOut f =>
      simp only [dispatch]
      split
      · trivial
      · exact rfl
  | assistantText _ _ | callerTranscript _ | turnComplete | interrupted =>
      simp [dispatch, EventsPc.Lawful, Action.shows, Event.Benign, Event.fatal?, Event.callback?,
        Callback.IsEnd]
  | toolCalls _ => trivial

theorem eventsSent_lawful (err : Option (Err V)) (ended : Option (EndReason × Option (Err V))) :
    (eventsSent err).Lawful ended := by
  cases err with
  | none => trivial
  | some e => exact rfl

/-- The way out of either goroutine: the one that moves is at a lawful exit again. -/
theorem Outcomes.exit (h : Outcomes t s) (hw : s.main.Waits) {s₁ : State σ τ V} {x x' : Exit V}
    (hx : x.Lawful s.ended) (hs : ExitStep s x evs s₁ x') (hmain : s'.main = s₁.main)
    (hctx : s'.ctx = s₁.ctx) (hended : s'.ended = s₁.ended)
    (haudio : s'.audio = s.audio ∨ s'.audio = .exiting x')
    (hevents : s'.events = s.events ∨ s'.events = .exiting x') : Outcomes (t ++ evs) s' := by
  have hother : (s.ended.isSome → s₁.ended.isSome) → x'.Lawful s₁.ended →
      s'.audio.Lawful s₁.ended ∧ s'.events.Lawful s₁.ended := by
    intro hle hx'
    constructor
    · rcases haudio with ha | ha
      · exact ha ▸ h.audio.mono hle
      · exact ha ▸ hx'
    · rcases hevents with he | he
      · exact he ▸ h.events.mono hle
      · exact he ▸ hx'
  cases hs with
  | X_Closed =>
      obtain ⟨ha, he⟩ := hother (fun _ => recordEnd_isSome s _ _) (recordEnd_isSome s _ _)
      exact h.recorded hw hx hmain hctx hended (hended ▸ ha) (hended ▸ he)
  | X_Failed =>
      obtain ⟨ha, he⟩ := hother (fun _ => recordEnd_isSome s _ _) (recordEnd_isSome s _ _)
      exact h.recorded hw hx hmain hctx hended (hended ▸ ha) (hended ▸ he)
  | X_Report =>
      obtain ⟨ha, he⟩ := hother id hx
      exact h.goroutine hw (by simp [Event.Benign, Event.fatal?, Event.callback?, Callback.IsEnd])
        hmain hctx hended ha he
  | X_Cancel =>
      obtain ⟨ha, he⟩ := hother id hx
      exact h.goroutine hw (by simp) hmain hctx hended ha he

theorem AudioStep.not_off (hs : AudioStep P s evs s') : ¬ s.audio.Off := by
  cases hs with
  | A_Exit ha hx => rw [ha]; cases hx <;> exact id
  | A_Frame ha _ _ | A_Closed ha _ | A_Error ha _ | A_NoError ha _ _ | A_Send _ ha => rw [ha]; exact id

theorem EventsStep.not_off (hs : EventsStep P s evs s') : ¬ s.events.Off := by
  cases hs with
  | E_Exit he hx => rw [he]; cases hx <;> exact id
  | E_Event he _ _ | E_Closed he _ | E_Error he _ | E_NoError he _ _ | E_Send _ he | E_Act he | E_Acted he
  | E_Batch he _ | E_Finish he _ => rw [he]; exact id

theorem Outcomes.audioStep (h : Outcomes t s) (hs : AudioStep P s evs s') : Outcomes (t ++ evs) s' := by
  have hw := h.waits_of_audio hs.not_off
  cases hs with
  | A_Frame ha hb hr =>
      exact h.goroutine hw (by simp) rfl rfl rfl (audioAfter_lawful _ _ _) h.events
  | A_Closed ha hr =>
      exact h.goroutine hw (by simp) rfl rfl rfl rfl h.events
  | A_Error ha hr =>
      exact h.goroutine hw (by simp) rfl rfl rfl rfl h.events
  | A_NoError ha _ hr =>
      exact h.goroutine hw (by simp) rfl rfl rfl h.audio h.events
  | A_Send err ha =>
      exact h.goroutine hw (by simp [Event.Benign, Event.fatal?, Event.callback?]) rfl rfl rfl
        (audioSent_lawful err _) h.events
  | @A_Exit s₁ x x' _ ha hx =>
      have hev : s₁.events = s.events := by cases hx <;> rfl
      have hlaw : x.Lawful s.ended := by
        have := h.audio
        rwa [ha] at this
      exact h.exit hw hlaw hx rfl rfl rfl (.inr rfl) (.inl hev)

theorem Outcomes.eventsStep (h : Outcomes t s) (hs : EventsStep P s evs s') : Outcomes (t ++ evs) s' := by
  have hw := h.waits_of_events hs.not_off
  cases hs with
  | E_Event he hb hr =>
      exact h.goroutine hw (by simp [Event.Benign, Event.fatal?, Event.callback?]) rfl rfl rfl h.audio
        (dispatch_lawful _ _ _ _)
  | E_Closed he hr =>
      exact h.goroutine hw (by simp) rfl rfl rfl h.audio rfl
  | E_Error he hr =>
      exact h.goroutine hw (by simp) rfl rfl rfl h.audio rfl
  | E_NoError he _ hr =>
      exact h.goroutine hw (by simp) rfl rfl rfl h.audio h.events
  | E_Send err he =>
      exact h.goroutine hw (by simp [Event.Benign, Event.fatal?, Event.callback?]) rfl rfl rfl h.audio
        (eventsSent_lawful err _)
  | @E_Act a as p he =>
      have hlaw := h.events
      rw [he] at hlaw
      refine h.goroutine hw ?_ rfl rfl rfl h.audio fun a' ha' => hlaw a' (List.mem_cons_of_mem _ ha')
      intro ev hev
      rw [List.mem_singleton.mp hev]
      exact hlaw a List.mem_cons_self p
  | E_Acted he =>
      exact h.goroutine hw (by simp) rfl rfl rfl h.audio trivial
  | E_Batch he hb =>
      exact h.goroutine hw hb.benign rfl rfl rfl h.audio trivial
  | E_Finish he _ =>
      exact h.goroutine hw (by simp) rfl rfl rfl h.audio trivial
  | @E_Exit s₁ x x' _ he hx =>
      have hau : s₁.audio = s.audio := by cases hx <;> rfl
      have hlaw : x.Lawful s.ended := by
        have := h.events
        rwa [he] at this
      exact h.exit hw hlaw hx rfl rfl rfl (.inl hau) (.inr rfl)

theorem Outcomes.fillerStep (h : Outcomes t s) (hs : FillerStep P s evs s') : Outcomes (t ++ evs) s' := by
  cases hs with
  | F_Batch he hh =>
      have hw := h.waits_of_events (by rw [he]; exact id)
      exact h.goroutine hw hh.silent.1 rfl rfl rfl h.audio trivial
  | F_Over _ _ _ hh =>
      exact h.benign hh.silent.1 rfl rfl rfl (fun _ _ => hh.silent.2) h.quiet h.audio h.events

theorem Outcomes.adapterStep (h : Outcomes t s) (hs : AdapterStep P s evs s') : Outcomes (t ++ evs) s' := by
  cases hs with
  | @T_Tick _ e _ =>
      refine h.benign ?_ rfl rfl rfl ?_ h.quiet h.audio h.events
      · cases e <;> simp [Event.Benign, Event.fatal?, Event.callback?]
      · intro _ _
        cases e <;> rfl
  | @L_Tick _ e _ =>
      refine h.benign ?_ rfl rfl rfl ?_ h.quiet h.audio h.events
      · cases e <;> simp [Event.Benign, Event.fatal?, Event.callback?]
      · intro _ _
        cases e <;> rfl

theorem Agrees.context {r : EndReason} {e : Option (Err V)} (h : Agrees t none r e) (x : Err V) :
    Agrees t (some x) r e := by
  cases r with
  | transportClosed => exact h
  | llmClosed => exact h
  | contextDone =>
      obtain ⟨he, hctx⟩ := h
      rw [← hctx] at he
      cases he
  | fatalError => exact h

/-- The caller's context ends. Nothing that was recorded with `context_done` can have been. -/
theorem Outcomes.context (h : Outcomes t s) (hctx : s.ctx = none) (x : Err V) :
    Outcomes t { s with ctx := some x, runCtx := s.runCtx.or (some x) } := by
  refine ⟨?_, h.quiet, h.audio, h.events, fun r e he => ?_⟩
  · have hm := h.main
    cases hs : s.main with
    | returned e =>
        rw [hs] at hm
        obtain ⟨cs, r, hcs, hn, ha, he⟩ := hm
        exact ⟨cs, r, hcs, hn, (hctx ▸ ha).context x, he⟩
    | resolving | opening | failing _ | failed _ | injected | receiving | subscribing | starting | waiting
    | draining | closingTransport _ _ | closingLLM _ _ | ending _ _ =>
        rw [hs] at hm
        exact hm
  · exact (hctx ▸ h.ended r e he).context x

theorem Outcomes.envStep (h : Outcomes t s) (hs : EnvStep P s evs s') : Outcomes (t ++ evs) s' := by
  cases hs with
  | N_Transport _ => exact h.benign (by simp) rfl rfl rfl (fun _ _ => rfl) h.quiet h.audio h.events
  | N_LLM _ => exact h.benign (by simp) rfl rfl rfl (fun _ _ => rfl) h.quiet h.audio h.events
  | @N_Context e hctx _ =>
      have h' := h.context hctx e
      exact h'.benign (by simp [Event.Benign, Event.fatal?, Event.callback?]) rfl rfl rfl (fun _ _ => rfl)
        h'.quiet h'.audio h'.events

/-! ## The caller of `Run` -/

/-- What was recorded is what `Run` reads: `context_done` comes with an error, so nothing is patched. -/
theorem outcome_eq (h : Outcomes t s) (ha : s.audio = .exiting .gone) : s.ended = some s.outcome := by
  have hsome : s.ended.isSome := by
    have := h.audio
    rwa [ha] at this
  obtain ⟨⟨r, e⟩, he⟩ := Option.isSome_iff_exists.mp hsome
  have hagree := h.ended r e he
  rw [State.outcome, he, Option.getD_some]
  split
  · rename_i hp _
    cases hp
    exact absurd hagree.1 (by simp)
  · rename_i hp _
    exact congrArg some hp

theorem Outcomes.move (h : Outcomes t s) (hlaw : MainLaw (t ++ evs) s' s'.main) (hctx : s'.ctx = s.ctx)
    (hended : s'.ended = s.ended) (haudio : s'.audio = s.audio) (hevents : s'.events = s.events)
    (hquiet : s.main.Waits → ¬ s'.main.Waits → s.audio.Off ∧ s.events.Off) : Outcomes (t ++ evs) s' := by
  refine ⟨hlaw, fun hn => ?_, ?_, ?_, fun r e he => ?_⟩
  · rw [haudio, hevents]
    exact Classical.byCases (fun hw => hquiet hw hn) h.quiet
  · rw [haudio, hended]
    exact h.audio
  · rw [hevents, hended]
    exact h.events
  · rw [hctx]
    exact (h.ended r e (hended ▸ he)).append evs

theorem noEnd_snoc {c : Callback V} {p : Bool} (h : NoEnd (callbacks t)) (hc : ¬ c.IsEnd) :
    NoEnd (callbacks (t ++ [.callback c p])) := by
  rw [callbacks_append]
  exact h.append (by simpa [NoEnd, callbacks, Event.callback?] using hc)

theorem firstFatal_snoc {ev : Event V} (h : ev.fatal? = none) : firstFatal (t ++ [ev]) = firstFatal t := by
  have hev : firstFatal [ev] = none := by simp [firstFatal, h]
  rw [firstFatal_append, hev, Option.or_none]

theorem firstFatal_first {ev : Event V} {e : Err V} (ht : firstFatal t = none) (h : ev.fatal? = some e) :
    firstFatal (t ++ [ev]) = some e := by
  have hev : firstFatal [ev] = some e := by simp [firstFatal, h]
  rw [firstFatal_append, ht, hev, Option.none_or]

theorem noEnd_event {ev : Event V} (h : NoEnd (callbacks t)) (hev : ev.callback? = none) :
    NoEnd (callbacks (t ++ [ev])) := by
  rw [callbacks_append]
  exact h.append (by simp [NoEnd, callbacks, hev])

/-- A step of the caller of `Run` while no goroutine runs. -/
theorem Outcomes.alone (h : Outcomes t s) {p : MainPc V} (hp : s.main = p) (hn : ¬ p.Waits)
    (hlaw : MainLaw (t ++ evs) s' s'.main) (hctx : s'.ctx = s.ctx) (hended : s'.ended = s.ended)
    (haudio : s'.audio = s.audio) (hevents : s'.events = s.events) : Outcomes (t ++ evs) s' :=
  h.move hlaw hctx hended haudio hevents fun hw => absurd (hp ▸ hw) hn

theorem Outcomes.mainStep (h : Outcomes t s) (hs : MainStep P s evs s') : Outcomes (t ++ evs) s' := by
  have hm := h.main
  cases hs with
  | M_Resolved hp _ | M_Receive hp | M_Events hp =>
      rw [hp] at hm
      refine h.alone hp id ?_ rfl rfl rfl rfl
      rw [List.append_nil]
      exact hm
  | M_Unresolved hp _ | M_OpenFailed hp _ =>
      rw [hp] at hm
      refine h.alone hp id ?_ rfl rfl rfl rfl
      exact ⟨firstFatal_first hm.2.1 rfl, noEnd_event hm.2.2 rfl, hm.1⟩
  | M_Fail hp =>
      rw [hp] at hm
      refine h.alone hp id ?_ rfl rfl rfl rfl
      exact ⟨(firstFatal_snoc rfl).trans hm.1, noEnd_snoc hm.2.1 id, hm.2.2⟩
  | M_Failed hp =>
      rw [hp] at hm
      refine h.alone hp id ?_ rfl rfl rfl rfl
      exact ⟨callbacks t, .fatalError, callbacks_append _ _, hm.2.1, ⟨rfl, (firstFatal_snoc rfl).trans hm.1⟩,
        .inl hm.2.2⟩
  | M_Open hp _ =>
      rw [hp] at hm
      refine h.alone hp id ?_ rfl rfl rfl rfl
      rw [List.append_nil, hp]
      exact hm
  | M_Opened hp _ =>
      rw [hp] at hm
      refine h.alone hp id ?_ rfl rfl rfl rfl
      exact ⟨hm.1, (firstFatal_snoc rfl).trans hm.2.1, noEnd_event hm.2.2 rfl⟩
  | M_Injected hp =>
      rw [hp] at hm
      refine h.alone hp id ?_ rfl rfl rfl rfl
      exact ⟨hm.1, (firstFatal_snoc rfl).trans hm.2.1, noEnd_snoc hm.2.2 id⟩
  | M_Start hp =>
      -- the goroutines start, and nothing has been recorded yet
      rw [hp] at hm
      refine ⟨⟨fun _ => (firstFatal_snoc rfl).trans hm.2.1, noEnd_snoc hm.2.2 id⟩, fun hn => absurd trivial hn,
        trivial, trivial, fun r e he => ?_⟩
      exact (h.ended r e he).append _
  | M_Done hp ha he | M_Drained hp ha he =>
      -- both goroutines are gone, so what `Run` reads now is what was recorded
      rw [hp] at hm
      have hout := outcome_eq h ha
      refine h.move ?_ rfl rfl rfl rfl fun _ _ => by rw [ha, he]; exact ⟨trivial, trivial⟩
      rw [List.append_nil]
      exact ⟨hout, hm.2⟩
  | M_ContextDone hp hc =>
      rw [hp] at hm
      refine h.move ?_ rfl rfl rfl rfl fun _ hn => absurd trivial hn
      rw [List.append_nil]
      exact hm
  | M_CloseTransport hp | M_CloseLLM hp =>
      rw [hp] at hm
      refine h.alone hp id ?_ rfl rfl rfl rfl
      exact ⟨hm.1, noEnd_event hm.2 rfl⟩
  | @M_End r e _ hp =>
      rw [hp] at hm
      refine h.alone hp id ?_ rfl rfl rfl rfl
      exact ⟨callbacks t, r, callbacks_append _ _, hm.2, (h.ended r e hm.1).append _, .inr hm.1⟩

theorem Outcomes.step (h : Outcomes t s) (hs : Step P s evs s') : Outcomes (t ++ evs) s' := by
  cases hs with
  | main hs => exact h.mainStep hs
  | audio hs => exact h.audioStep hs
  | events hs => exact h.eventsStep hs
  | filler hs => exact h.fillerStep hs
  | adapter hs => exact h.adapterStep hs
  | env hs => exact h.envStep hs

theorem Step.ended_eq (hs : Step P s evs s') {x : EndReason × Option (Err V)} (hx : s.ended = some x) :
    s'.ended = some x := by
  have hexit : ∀ {s₁ : State σ τ V} {y y' : Exit V}, ExitStep s y evs s₁ y' → s₁.ended = some x := by
    intro s₁ y y' h
    cases h with
    | X_Closed | X_Failed =>
        rw [State.recordEnd, hx]
        rfl
    | X_Report | X_Cancel => exact hx
  cases hs with
  | main hs => cases hs <;> exact hx
  | audio hs =>
      cases hs with
      | A_Exit _ h =>
          have hended := hexit h
          exact hended
      | A_Frame _ _ _ | A_Closed _ _ | A_Error _ _ | A_NoError _ _ _ | A_Send _ _ => exact hx
  | events hs =>
      cases hs with
      | E_Exit _ h =>
          have hended := hexit h
          exact hended
      | E_Event _ _ _ | E_Closed _ _ | E_Error _ _ | E_NoError _ _ _ | E_Send _ _ | E_Act _ | E_Acted _
      | E_Batch _ _ | E_Finish _ _ => exact hx
  | filler hs => cases hs <;> exact hx
  | adapter hs => cases hs <;> exact hx
  | env hs => cases hs <;> exact hx

theorem Outcomes.run {x : σ} {l : τ} (hr : Run (Step P) (State.init x l) t s) : Outcomes t s :=
  hr.invariant (.init x l) fun _ _ _ _ h hs => h.step hs

end Gopkg.Voice
