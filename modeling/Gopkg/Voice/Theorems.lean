import Gopkg.Voice.Lemmas.Dispatch
import Gopkg.Voice.Lemmas.Drive
import Gopkg.Voice.Lemmas.GeminiTurns
import Gopkg.Voice.Lemmas.HangUp
import Gopkg.Voice.Lemmas.HoldFiller
import Gopkg.Voice.Lemmas.Stuck

/-!
# Theorems about voice sessions

How a session ends and what it releases, what a tool batch does, what becomes of the errors of the adapters and
of a cancelled call, and what the caller hears.
-/

namespace Gopkg.Voice

open Lts Audio

variable {σ τ V : Type}

/-! ## The outcome of a session -/

/-- `OnSessionEnd` comes once and last. `Run` returns nil for the two clean reasons, the error of the context for
`context_done` and the first fatal error for `fatal_error`. -/
theorem session_outcome (P : Config σ τ V) (x : σ) (l : τ) (t : List (Event V)) (s : State σ τ V)
    (err : Option (Err V)) (hr : Run (Step P) (State.init x l) t s) (hret : s.main = .returned err) :
    ∃ cs r, callbacks t = cs ++ [.onSessionEnd r] ∧ NoEnd cs ∧
      (err = none ↔ r = .transportClosed ∨ r = .llmClosed) ∧
      (r = .contextDone → err.isSome ∧ err = s.ctx) ∧
      (r = .fatalError → err.isSome ∧ err = firstFatal t) := by
  have hm := (Outcomes.run hr).main
  rw [hret] at hm
  obtain ⟨cs, r, hcs, hn, hagree, _⟩ := hm
  refine ⟨cs, r, hcs, hn, ?_⟩
  cases r with
  | transportClosed => exact ⟨iff_of_true hagree (.inl rfl), nofun, nofun⟩
  | llmClosed => exact ⟨iff_of_true hagree (.inr rfl), nofun, nofun⟩
  | contextDone =>
      refine ⟨iff_of_false (fun he => ?_) nofun, fun _ => ⟨hagree.1, hagree.2.symm⟩, nofun⟩
      rw [he] at hagree
      exact nomatch hagree.1
  | fatalError =>
      refine ⟨iff_of_false (fun he => ?_) nofun, nofun, fun _ => ⟨hagree.1, hagree.2.symm⟩⟩
      rw [he] at hagree
      exact nomatch hagree.1

/-- A call without history, with one tool at a time. -/
def plainCall (filler : Filler) : CallSetup where
  filler := filler
  toolConcurrency := 1
  positive := Nat.one_pos
  setup := { history := [], wakeSignal := "" }

theorem hungUp_run (V : Type) : ∃ s, Run (Step (phoneCall V (plainCall silentFiller))) CallState.init
    (answerTrace V (plainCall silentFiller) ++ [.transportEnded .clean] ++ hangUpTrace V) s ∧
    s.main = .returned none := by
  obtain ⟨s, hr, hret, _⟩ := hangsUp (V := V) (plainCall silentFiller) [] (.ended .clean) none
  exact ⟨s, ((answers _).trans (transportCloses _ [])).trans hr, hret⟩

theorem session_outcome_hungUp : ∃ (t : List (Event Unit)) (s : CallState Unit) (cs : List (Callback Unit))
    (r : EndReason), Run (Step (phoneCall Unit (plainCall silentFiller))) CallState.init t s ∧
      s.main = .returned none ∧ callbacks t = cs ++ [.onSessionEnd r] ∧ (r = .transportClosed ∨ r = .llmClosed) := by
  obtain ⟨s, hr, hret⟩ := hungUp_run Unit
  obtain ⟨cs, r, hcs, _, hnil, _⟩ := session_outcome _ _ _ _ s none hr hret
  exact ⟨_, s, cs, r, hr, hret, hcs, hnil.mp rfl⟩

/-! ## Releasing the endpoints -/

/-- Both endpoints have been closed once before `OnSessionEnd` exactly when the formats could be bridged and
`LLM.Open` returned nil. -/
theorem closed_once_iff_setUp (P : Config σ τ V) (x : σ) (l : τ) (t : List (Event V)) (s : State σ τ V)
    (err : Option (Err V)) (hr : Run (Step P) (State.init x l) t s) (hret : s.main = .returned err) :
    closes (beforeEnd t) = (1, 1) ↔ SetUp P t := by
  have hlaw := ReleaseLaw.run hr
  rw [hret] at hlaw
  rcases hlaw with ⟨hc, hu⟩ | ⟨hc, hu⟩
  · exact iff_of_true hc hu
  · refine iff_of_false (fun h => ?_) hu
    exact nomatch hc.symm.trans h

theorem closed_once_iff_setUp_hungUp : ∃ (t : List (Event Unit)) (s : CallState Unit),
    Run (Step (phoneCall Unit (plainCall silentFiller))) CallState.init t s ∧ s.main = .returned none ∧
      closes (beforeEnd t) = (1, 1) := by
  obtain ⟨s, hr, hret⟩ := hungUp_run Unit
  refine ⟨_, s, hr, hret, (closed_once_iff_setUp _ _ _ _ s none hr hret).mpr ⟨⟨_, bridges_phoneCall _⟩, ?_⟩⟩
  simp [answerTrace]

/-- When the setup message cannot be sent, `Run` returns and has closed neither endpoint. -/
theorem unopened_not_closed : ¬ ∀ (C : CallSetup) (t : List (Event Unit)) (s : CallState Unit)
    (err : Option (Err Unit)), Run (Step (phoneCall Unit C)) CallState.init t s → s.main = .returned err →
      closes (beforeEnd t) = (1, 1) := by
  intro h
  have hresolve : Step (phoneCall Unit (plainCall silentFiller)) CallState.init [] _ :=
    .main (.M_Resolved rfl (bridges_phoneCall _))
  have hopen := (Run.single hresolve).snoc (.main (.M_OpenFailed rfl (.O_SetupFailed (e := .external ()) rfl)))
  have hfail := (hopen.snoc (.main (.M_Fail (p := false) rfl))).snoc (.main (.M_Failed (p := false) rfl))
  exact absurd (h _ _ _ _ hfail rfl) (by decide)

/-! ## Tool batches -/

/-- Under every schedule of the workers and of the watchdog: at most `n` calls of `Execute` are in progress; every
step of the batch brings its end nearer, and it can come to its end; and at its end every call has been
announced, executed once, answered and reported, in this order. -/
theorem tool_batch_served (calls : List (ToolCall V)) (n : Nat) (hn : 0 < n) (filler : Filler)
    (t : List (Event V)) (b : Batch V) (hr : Run (BatchStep n filler) (.init calls) t b) :
    begun t ≤ ended t + n ∧
      (∀ evs b', CoreStep n b evs b' → b'.left < b.left) ∧
      (∃ t' b', Run (CoreStep n) b t' b' ∧ b'.pc = .finished) ∧
      (b.pc = .finished → ∃ outcomes results, Served calls outcomes results (toolSteps t)) := by
  have hlaw := BatchLaw.run hr
  refine ⟨?_, fun evs b' hs => ?_, hlaw.can_finish hn, fun hpc => ?_⟩
  · have hcount := Counted.run hr
    have hrunning := hlaw.running_le
    rw [Counted] at hcount
    omega
  · refine hs.left_lt ?_
    rw [hlaw.calls_eq]
    exact hlaw.within
  · obtain ⟨outcomes, hserved⟩ := hlaw.served hpc
    exact ⟨outcomes, _, hserved⟩

def lookup : ToolCall Unit := { id := "call-1", name := "lookup", args := () }

def book : ToolCall Unit := { id := "call-2", name := "book", args := () }

def pay : ToolCall Unit := { id := "call-3", name := "pay", args := () }

/-- The batch of three calls at its end: the first one panicked, the second one returned data and the third one an
error. -/
def mixedBatch : Batch Unit where
  calls := [lookup, book, pay]
  pc := .finished
  workers := [.gone, .gone, .gone]
  results := [{ callID := "call-1", data := none, err := some (.toolExecutorPanicked ()) },
    { callID := "call-2", data := some (), err := none },
    { callID := "call-3", data := none, err := some (.external ()) }]
  sem := 0
  wg := 0
  done := true
  holdCancelled := true
  hold := .waiting

/-- Two calls at a time. The second one ends before the first one. -/
theorem mixed_run : ∃ t, Run (CoreStep 2) (.init [lookup, book, pay]) t mixedBatch ∧
    (toolSteps t).getLast? = some (.sent mixedBatch.results) := by
  have hcall : CoreStep 2 (.init [lookup, book, pay]) [.callback (.onToolCall lookup) false] _ := .B_Announce rfl rfl
  have hcalls := (((Run.single hcall).snoc (.B_Announce (p := true) rfl rfl)).snoc
    (.B_Announce (p := false) rfl rfl)).snoc (.B_Watch rfl)
  have hspawn := (((hcalls.snoc (.B_Add rfl (by decide))).snoc (.B_Acquire rfl (by decide))).snoc
    (.B_Add rfl (by decide))).snoc (.B_Acquire rfl (by decide))
  have hfirst := (hspawn.snoc (.B_Begin (i := 0) rfl)).snoc (.B_Begin (i := 1) rfl)
  have hsecond := ((hfirst.snoc (.B_End (i := 1) (.returned (some ()) none) rfl)).snoc
    (.B_Store (i := 1) (c := book) rfl rfl)).snoc (.B_Release (i := 1) rfl (by decide))
  have hthird := (((hsecond.snoc (.B_Add rfl (by decide))).snoc (.B_Acquire rfl (by decide))).snoc
    (.B_Begin (i := 2) rfl)).snoc (.B_End (i := 2) (.returned none (some (.external ()))) rfl)
  have hended := ((hthird.snoc (.B_End (i := 0) (.panicked ()) rfl)).snoc
    (.B_Store (i := 2) (c := pay) rfl rfl)).snoc (.B_Store (i := 0) (c := lookup) rfl rfl)
  have hreleased := (hended.snoc (.B_Release (i := 0) rfl (by decide))).snoc (.B_Release (i := 2) rfl (by decide))
  have hgone := ((hreleased.snoc (.B_Done (i := 2) rfl)).snoc (.B_Done (i := 1) rfl)).snoc (.B_Done (i := 0) rfl)
  have hclear := ((((hgone.snoc (.B_Spawned rfl)).snoc (.B_Wait rfl rfl)).snoc (.B_CloseDone rfl)).snoc
    (.B_CancelHold rfl)).snoc (.B_Clear rfl)
  have hresponded := (((hclear.snoc (.B_Respond (p := false) rfl rfl rfl)).snoc
    (.B_Respond (p := false) rfl rfl rfl)).snoc (.B_Respond (p := false) rfl rfl rfl)).snoc (.B_Responded rfl)
  exact ⟨_, hresponded.snoc (.B_Send rfl), rfl⟩

theorem tool_batch_served_mixed : ∃ t outcomes,
    Run (BatchStep 2 silentFiller) (.init [lookup, book, pay]) t mixedBatch ∧
      Served [lookup, book, pay] outcomes mixedBatch.results (toolSteps t) := by
  obtain ⟨t, hr, hlast⟩ := mixed_run
  have hr' : Run (BatchStep 2 silentFiller) (.init [lookup, book, pay]) t mixedBatch := hr.mono fun _ _ _ => .core
  obtain ⟨_, _, _, hserved⟩ := tool_batch_served [lookup, book, pay] 2 (by decide) silentFiller t mixedBatch hr'
  obtain ⟨outcomes, results, h⟩ := hserved rfl
  obtain ⟨es, hsteps, _⟩ := h.steps_eq
  -- what was sent is what the batch holds
  rw [hsteps, List.getLast?_concat, Option.some.injEq, ToolStep.sent.injEq] at hlast
  rw [hlast] at h
  exact ⟨t, outcomes, hr', h⟩

/-! ## Hold audio after the tools -/

/-- After the `Clear` of a batch no frame of its filler is sent exactly when its watchdog is spent; and after
`Transport.Close` none is sent exactly when every watchdog of the session is. -/
theorem no_filler_iff_spent (V : Type) :
    (∀ (n : Nat) (filler : Filler) (calls : List (ToolCall V)) (t : List (Event V)) (b : Batch V),
      Run (BatchStep n filler) (.init calls) t b → .clear ∈ t →
        ((∀ t' b', Run (BatchStep n filler) b t' b' → NoFiller t') ↔ b.hold.Spent filler)) ∧
    ∀ (σ τ : Type) (P : Config σ τ V) (x : σ) (l : τ) (t : List (Event V)) (s : State σ τ V),
      Run (Step P) (State.init x l) t s → .transportClose ∈ t →
        ((∀ t' s', Run (Step P) s t' s' → NoFiller t') ↔ ∀ h ∈ s.holds, h.Spent P.filler) := by
  constructor
  · intro n filler calls t b hr hmem
    exact batch_noFiller_iff (cleared_of_mem hr hmem)
  · intro σ τ P x l t s hr hmem
    exact session_noFiller_iff (ReleaseLaw.run hr) (Outcomes.run hr) hmem

/-- The batch of one call whose executor panics, at its end. -/
def panickedBatch : Batch Unit where
  calls := [lookup]
  pc := .finished
  workers := [.gone]
  results := [toolResult lookup (.panicked ())]
  sem := 0
  wg := 0
  done := true
  holdCancelled := true
  hold := .waiting

theorem panicked_run : ∃ t, Run (CoreStep 1) (.init [lookup]) t panickedBatch ∧ .clear ∈ t := by
  have hcall : CoreStep 1 (.init [lookup]) [.callback (.onToolCall lookup) false] _ := .B_Announce rfl rfl
  have hspawn := (((Run.single hcall).snoc (.B_Watch rfl)).snoc (.B_Add rfl Nat.one_pos)).snoc
    (.B_Acquire rfl Nat.one_pos)
  have hexecute := (hspawn.snoc (.B_Begin (i := 0) rfl)).snoc (.B_End (i := 0) (.panicked ()) rfl)
  have hstored := hexecute.snoc (.B_Store (i := 0) (c := lookup) rfl rfl)
  have hgone := (hstored.snoc (.B_Release (i := 0) rfl Nat.one_pos)).snoc (.B_Done (i := 0) rfl)
  have hclear := ((((hgone.snoc (.B_Spawned rfl)).snoc (.B_Wait rfl rfl)).snoc (.B_CloseDone rfl)).snoc
    (.B_CancelHold rfl)).snoc (.B_Clear rfl)
  have hsend := ((hclear.snoc (.B_Respond (p := false) rfl rfl rfl)).snoc (.B_Responded rfl)).snoc (.B_Send rfl)
  exact ⟨_, hsend, by simp⟩

/-- A filler that always has a frame. -/
def beeping : Filler := loopingFiller [{ data := [0xFF], timestamp := 0 }]

/-- A batch whose watchdog finds `done` closed and returns, and a session without a batch. -/
theorem no_filler_iff_spent_returned :
    (∃ t, Run (BatchStep 1 beeping) (.init [lookup]) t { panickedBatch with hold := .exited } ∧ .clear ∈ t ∧
      ∀ t' b', Run (BatchStep 1 beeping) { panickedBatch with hold := .exited } t' b' → NoFiller t') ∧
    ∃ (t : List (Event Unit)) (s : CallState Unit), Run (Step (phoneCall Unit (plainCall beeping))) CallState.init t s ∧
      .transportClose ∈ t ∧ ∀ t' s', Run (Step (phoneCall Unit (plainCall beeping))) s t' s' → NoFiller t' := by
  obtain ⟨hbatch, hsession⟩ := no_filler_iff_spent Unit
  constructor
  · obtain ⟨t, hr, hmem⟩ := panicked_run
    have hcore : Run (BatchStep 1 beeping) (.init [lookup]) t panickedBatch := hr.mono fun _ _ _ => .core
    have hret := hcore.snoc (.hold false (.H_Done rfl))
    rw [List.append_nil] at hret
    exact ⟨t, hret, hmem, (hbatch 1 beeping [lookup] t _ hret hmem).mpr trivial⟩
  · obtain ⟨s, hhang, _, _, hholds⟩ := hangsUp (V := Unit) (plainCall beeping) [] (.ended .clean) none
    have hr := ((answers (V := Unit) (plainCall beeping)).trans (transportCloses _ [])).trans hhang
    have hclose : Event.transportClose ∈ answerTrace Unit (plainCall beeping) ++ [.transportEnded .clean] ++
        hangUpTrace Unit := by simp [hangUpTrace]
    refine ⟨_, s, hr, hclose, (hsession _ _ _ _ _ _ s hr hclose).mpr ?_⟩
    rw [hholds]
    exact nofun

/-- The LLM calls the tool, the batch comes to its end, and its watchdog is left waiting for the timer. -/
theorem tool_run : ∃ t, Run (Step (phoneCall Unit (plainCall beeping))) CallState.answered t
    (CallState.hungUp (streamReader .top .live none) [.waiting]) ∧ .clear ∈ t := by
  let request : Gemini.ServerMessage Unit := { setupComplete := false, serverContent := none, toolCall := [lookup] }
  have hhandle : Gemini.handle "" (some request) = ("", .items [.toolCalls [lookup]]) := rfl
  have htop : Step (phoneCall Unit (plainCall beeping)) CallState.answered [] _ :=
    .adapter (.L_Tick (e := none) ⟨_, .R_Read rfl rfl, rfl⟩)
  have hread := (Run.single htop).snoc (.env (.N_LLM ⟨_, .P_Send (some request) rfl, rfl⟩))
  have hitem := (hread.snoc (.adapter (.L_Tick ⟨_, .R_Items rfl nofun rfl hhandle, rfl⟩))).snoc
    (.adapter (.L_Tick ⟨_, .R_Prepare rfl rfl, rfl⟩))
  have hbatch := hitem.snoc (.events (.E_Event rfl (bridges_phoneCall _) ⟨_, .C_Item rfl, rfl⟩))
  obtain ⟨t, hr, hmem⟩ := panicked_run
  have hserved := hbatch.trans ((batch_goes_on (P := phoneCall Unit (plainCall beeping)) rfl hr).mono
    fun _ _ _ h => .events h.1)
  have hfinish := hserved.snoc (.events (.E_Finish rfl rfl))
  exact ⟨_, hfinish, by simp [hmem]⟩

/-- The timer of a finished batch fires after the session was closed, and its pump sends a frame. -/
theorem filler_after_close : ¬ ∀ (C : CallSetup) (t t' : List (Event Unit)) (s s' : CallState Unit),
    Run (Step (phoneCall Unit C)) CallState.init t s → .clear ∈ t → .transportClose ∈ t →
      Run (Step (phoneCall Unit C)) s t' s' → NoFiller t' := by
  intro h
  obtain ⟨t, htool, hclear⟩ := tool_run
  obtain ⟨s, hhang, _, _, hholds⟩ := hangsUp (V := Unit) (plainCall beeping) [.waiting] (.ended .clean) none
  have hr := (((answers (V := Unit) (plainCall beeping)).trans htool).trans (transportCloses _ [.waiting])).trans hhang
  have hspent : ¬ HoldPc.Spent beeping .waiting := by
    rw [HoldPc.Spent]
    decide
  obtain ⟨t', h', hpump, hf⟩ := HoldPc.sends (V := Unit) hspent true true
  have hover := over_runs (P := phoneCall Unit (plainCall beeping)) [] [] hholds hpump
  exact hf (h _ _ _ _ _ hr (by simp [hclear]) (by simp [hangUpTrace]) hover)

/-! ## Errors of the adapters -/

/-- In a run of attentive steps whose first terminal event is the error `e` of an adapter, a call that has
returned has returned `e` with `fatal_error`, and one that has not can still come to do so. -/
theorem adapter_error_returned (C : CallSetup) (t : List (Event V)) (s : CallState V) (e : Err V)
    (hr : Run (Restrict (Step (phoneCall V C)) Attentive) CallState.init t s) (hfirst : FirstError t e)
    (hctx : s.ctx = none) :
    (∀ err, s.main = .returned err → Failed t s e) ∧
      ∃ t' s', Run (Restrict (Step (phoneCall V C)) Attentive) s t' s' ∧ Failed (t ++ t') s' e := by
  have h := Heard.run hr
  constructor
  · intro err hret
    exact failed_of_ended h.reached.outcomes (h.ended_of_returned hctx hfirst hret) hret
  · exact records_returns h (CancelLaw.run hr.of_restrict) (h.records hctx hfirst)

/-- The stream of the caller fails, and the call comes to its end. -/
theorem adapter_error_returned_lost : ∃ (t : List (Event Unit)) (s : CallState Unit),
    Run (Restrict (Step (phoneCall Unit (plainCall silentFiller))) Attentive) CallState.init t s ∧
      Failed t s (.external ()) := by
  have hreads := (answers (V := Unit) (plainCall silentFiller)).trans (transportReads _ [] (.failed (.external ())))
  obtain ⟨hrun, hcalm⟩ := attentive_of_calm hreads rfl rfl
  have hstep : Step (phoneCall Unit (plainCall silentFiller))
      (CallState.hungUp (streamReader .reading (.ended (.failed (.external ()))) none) [])
      [.transportEnded (.failed (.external ()))]
      (CallState.hungUp (streamReader (.failing (.external ())) (.ended (.failed (.external ()))) none) []) :=
    .adapter (.T_Tick (e := some (.failed (.external ()))) (.R_Failed rfl rfl rfl))
  have hfailed := hrun.snoc ⟨hstep, hcalm.attentive (Reached.run hreads)⟩
  obtain ⟨_, t', s', hr, hfail⟩ := adapter_error_returned (plainCall silentFiller) _ _ (.external ()) hfailed
    (.inl rfl) rfl
  exact ⟨_, s', hfailed.trans hr, hfail⟩

/-- The stream of the caller fails, the `select` takes the closed channel of frames before the channel of errors,
and `Run` returns nil. -/
theorem adapter_error_swallowed : ¬ ∀ (C : CallSetup) (t : List (Event Unit)) (s : CallState Unit) (e : Err Unit)
    (err : Option (Err Unit)), Run (Step (phoneCall Unit C)) CallState.init t s → FirstError t e →
      s.ctx = none → s.main = .returned err → err = some e := by
  intro h
  obtain ⟨s, hhang, hret, hctx, _⟩ := hangsUp (plainCall silentFiller) []
    (.ended (.failed (.external ()))) (some (.external ()))
  have hr := ((answers (V := Unit) (plainCall silentFiller)).trans
    (transportFails _ [] (.external ()))).trans hhang
  exact nomatch h _ _ _ _ _ hr (.inl rfl) hctx hret

/-! ## Cancelled calls -/

/-- When the context is done and `Run` has not returned, something of `Run` or of the adapters can move exactly
when the call is not stuck. -/
theorem localStep_iff_not_stuck (C : CallSetup) (t : List (Event V)) (s : CallState V)
    (hr : Run (Step (phoneCall V C)) CallState.init t s) (hctx : s.ctx.isSome)
    (hret : ∀ err, s.main ≠ .returned err) : (∃ evs s', LocalStep C s evs s') ↔ ¬ s.Stuck := by
  have h := Reached.run hr
  constructor
  · rintro ⟨evs, s', hs⟩ hstuck
    exact hstuck.not_localStep h hs
  · exact localStep_of_not_stuck h hctx hret

/-- Both read loops wait for peers that are silent, and the caller's context is cancelled. -/
theorem silent_run : ∃ (t : List (Event Unit)) (s : CallState Unit),
    Run (Step (phoneCall Unit (plainCall silentFiller))) CallState.init t s ∧ s.ctx = some .canceled ∧
      s.main = .draining ∧ s.Stuck ∧ s.holds = [] ∧ s.events = .select := by
  have hreads := ((answers (V := Unit) (plainCall silentFiller)).snoc
    (.adapter (.T_Tick (e := none) (.R_Read rfl rfl)))).snoc
    (.adapter (.L_Tick (e := none) ⟨_, .R_Read rfl rfl, rfl⟩))
  have hcancel := (hreads.snoc (.env (.N_Context (e := .canceled) rfl (.inl rfl)))).snoc
    (.main (.M_ContextDone rfl rfl))
  refine ⟨_, _, hcancel, rfl, rfl, .inr ⟨rfl, ?_, ?_, nofun⟩, rfl, rfl⟩
  · exact .inr ⟨rfl, rfl, rfl, rfl⟩
  · exact .inr ⟨rfl, rfl, rfl, rfl⟩

theorem localStep_iff_not_stuck_silent : ∃ (t : List (Event Unit)) (s : CallState Unit),
    Run (Step (phoneCall Unit (plainCall silentFiller))) CallState.init t s ∧ s.ctx = some .canceled ∧
      ((∃ evs s', LocalStep (plainCall silentFiller) s evs s') ↔ ¬ s.Stuck) := by
  obtain ⟨t, s, hr, hctx, hmain, _⟩ := silent_run
  refine ⟨t, s, hr, hctx, localStep_iff_not_stuck (plainCall silentFiller) t s hr ?_ ?_⟩
  · rw [hctx]
    rfl
  · rw [hmain]
    exact nofun

/-- A cancelled call that waits for two silent peers: not even a watchdog can move. -/
theorem cancelled_stuck : ¬ ∀ (C : CallSetup) (t : List (Event Unit)) (s : CallState Unit),
    Run (Step (phoneCall Unit C)) CallState.init t s → s.ctx.isSome → (∀ err, s.main ≠ .returned err) →
      ∃ evs s', LocalStep C s evs s' ∨ FillerStep (phoneCall Unit C) s evs s' := by
  intro h
  obtain ⟨t, s, hr, hctx, hmain, hstuck, hholds, hevents⟩ := silent_run
  obtain ⟨evs, s', hs | hs⟩ := h _ t s hr (by rw [hctx]; rfl) (by rw [hmain]; exact nofun)
  · exact hstuck.not_localStep (Reached.run hr) hs
  · cases hs with
    | F_Batch he _ => exact nomatch hevents.symm.trans he
    | F_Over pre post hover _ =>
        rw [hholds] at hover
        simp at hover

/-! ## What the caller hears -/

/-- Frames of aligned lengths are heard as if they were one, in every session with this bridge; and frames of
other lengths are not, in a phone call. -/
theorem caller_audio_chunks (V : Type) (ls : List Nat) :
    (∀ (σ τ : Type) (P : Config σ τ V) (b : Bridge) (x : σ) (l : τ),
      P.bridges = .ok (b, .pcm16LE24kToMulaw8k) → Aligned ls → ChunkFree P x l ls) ∧
    ∀ C : CallSetup, ChunkFree (phoneCall V C) (.fresh ()) Gemini.State.fresh ls ↔ Aligned ls := by
  constructor
  · intro σ τ P b x l hb h
    exact chunkFree_of_aligned hb x l h
  · intro C
    exact ⟨aligned_of_chunkFree, chunkFree_of_aligned (bridges_phoneCall C) _ _⟩

/-- Two frames of three bytes are converted to nothing, six bytes at once to one sample. -/
theorem chunks_heard : ¬ ∀ (C : CallSetup) (ls : List Nat),
    ChunkFree (phoneCall Unit C) (.fresh ()) Gemini.State.fresh ls := by
  intro h
  obtain ⟨t, hr, hsend, hout, hsent⟩ := callerHears (V := Unit) (plainCall silentFiller) [[1, 2, 3], [4, 5, 6]]
  have heq := h _ [3, 3] t _ hr nofun hsend (by rw [hout]; rfl)
  rw [hout, hsent] at heq
  exact absurd (congrArg List.length heq) (by rw [length_convertEach, length_convert]; decide)

/-! ## The dispatch of the LLM's events -/

/-- With fewer than 2^63 completed turns, what the LLM-events goroutine puts out is the translation of the events it
has received, or begins it while one is being dispatched, or is followed by the `OnError` of its exit; the marks
are distinct; a failed `Send` is the last thing that is dispatched; and the event in hand can be finished. -/
theorem dispatch_translates (P : Config σ τ V) (b : Bridge × Bridge) (hb : P.bridges = .ok b) (x : σ) (l : τ)
    (t : List (Event V)) (s : State σ τ V) (hr : Run (EventsView P) (State.init x l) t s)
    (hturns : completed (received t) < 2 ^ 63) :
    (s.events = .select → Translation P b.2 (received t) (outputs t)) ∧
    (∃ full, Translation P b.2 (received t) full ∧
      (outputs t <+: full ∨ ∃ e, outputs t = full ++ [.observe (.onError e)])) ∧
    (marks (outputs t)).Nodup ∧
    (∀ pre f e post, t = pre ++ .send f (some e) :: post →
      received post = [] ∧ ∀ o ∈ outputs post, ∃ e', o = .observe (.onError e')) ∧
    (s.events ≠ .idle → ∃ t' s', Run (EventsStep P) s t' s' ∧ received t' = [] ∧
      (s'.events = .select ∨ ∃ x, s'.events = .exiting x)) := by
  have hbridge : ∀ b', P.bridges = .ok b' → b'.2 = b.2 := by
    intro b' hb'
    rw [hb] at hb'
    cases hb'
    rfl
  obtain ⟨_, hp⟩ := Dispatched.run hbridge hr hturns
  obtain ⟨full, htr, hfull⟩ := hp.translation
  have hmarks : (marks full).Nodup := by
    rw [htr.marks_eq]
    exact markNames_nodup _
  refine ⟨fun he => ?_, ⟨full, htr, hfull⟩, ?_, fun pre f e post h => (SendLaw.run hr pre f e post h).1,
    hp.finishes⟩
  · rw [he] at hp
    exact hp
  · rcases hfull with ⟨rest, rfl⟩ | ⟨e, heq⟩
    · rw [marks_append] at hmarks
      exact (List.nodup_append.mp hmarks).1
    · rw [heq, marks_append, show marks [Output.observe (.onError e)] = [] from rfl, List.append_nil]
      exact hmarks

/-- A session after two turns. -/
theorem dispatch_translates_turns : ∃ (t : List (Event Unit)) (s : State Unit Unit Unit),
    Run (EventsView turnsOnly) (State.init () ()) t s ∧ completed (received t) = 2 ∧
    Translation turnsOnly .passthrough (received t) (outputs t) := by
  obtain ⟨t, s, hr, he, hn⟩ := turnsOnly_turns 2
  have hlt : completed (received t) < 2 ^ 63 := by
    rw [hn]
    decide
  exact ⟨t, s, hr, hn, (dispatch_translates turnsOnly _ turnsOnly_bridges () () t s hr hlt).1 he⟩

/-- The counter of the turns overflows: the turn after the largest `int` gets the smallest one. -/
theorem turns_overflow : ¬ ∀ (P : Config Unit Unit Unit) (b : Bridge × Bridge), P.bridges = .ok b →
    ∀ (t : List (Event Unit)) (s : State Unit Unit Unit), Run (EventsView P) (State.init () ()) t s →
      s.events = .select → Translation P b.2 (received t) (outputs t) := by
  intro h
  obtain ⟨t, s, hr, he, hn⟩ := turnsOnly_turns (2 ^ 63 - 1)
  have hturn : s.turn = 2 ^ 63 - 1 := by
    have hbridge : ∀ b', turnsOnly.bridges = .ok b' → b'.2 = Bridge.passthrough := by
      intro b' hb'
      rw [turnsOnly_bridges] at hb'
      cases hb'
      rfl
    rw [(Dispatched.run hbridge hr (by rw [hn]; decide)).1, hn]
    rfl
  obtain ⟨t', s', hr', he', hrec, hout⟩ := turnsOnly_turn he
  have htr := h turnsOnly _ turnsOnly_bridges _ s' (hr.trans hr') he'
  rw [received_append, hrec, outputs_append, hout, hturn] at htr
  obtain ⟨O', out, heq, _, himg⟩ := htr.inv
  rw [show out = _ from himg, completed_append, hn] at heq
  have hlast := congrArg List.getLast? heq
  simp only [List.getLast?_append, List.getLast?_cons_cons, List.getLast?_singleton, Option.some_or, Option.some.injEq,
    Output.observe.injEq, Callback.onTurnComplete.injEq] at hlast
  revert hlast
  decide

/-! ## Turns of Gemini -/

namespace Gemini

/-- While the context is not done, the text of a turn is handed over once more as a whole, right before the turn is
complete, unless there is none. A turn is complete for each message that says so. -/
theorem turn_text_kept {V : Type} (r₀ r : EventsReader V) (hpc : r₀.pc = .top) (hvars : r₀.vars = "")
    (t : List (Seen V)) (hr : Run EventsTick r₀ t r) : ∃ ms, r₀.inbox ++ arrived t = ms ++ r.inbox ∧
      TurnsSound (taken t ++ pending r.pc) ∧
      completed (taken t ++ pending r.pc) = ms.countP ServerMessage.completesTurn := by
  obtain ⟨ms, hinbox, htranslate⟩ := Handed.run hpc hvars hr
  obtain ⟨hmid, hcount⟩ := translate_spec ms
  rw [htranslate] at hmid hcount
  exact ⟨ms, hinbox, hmid.sound, hcount⟩

/-- A message with two texts that completes its turn. -/
def greeting : ServerMessage Unit where
  setupComplete := false
  serverContent := some ⟨"", "Hel", [⟨"lo", none⟩], false, true⟩
  toolCall := []

theorem turn_text_kept_greeting : ∃ (r₀ r : EventsReader Unit) (t : List (Seen Unit)), Run EventsTick r₀ t r ∧
    taken t = [.assistantText "Hel" false, .assistantText "lo" false, .assistantText "Hello" true, .turnComplete] ∧
    r.inbox = [] ∧ TurnsSound (taken t ++ pending r.pc) := by
  have h₁ : Run EventsTick (⟨.top, "", [some greeting], .live, none⟩ : EventsReader Unit) _ _ :=
    .single (.G_Tick (.R_Read rfl rfl))
  have h₂ := h₁.snoc (.G_Tick (.R_Items rfl nofun rfl rfl))
  have h₃ := (h₂.snoc (.G_Tick (.R_Prepare rfl rfl))).snoc (.G_Recv (.C_Item rfl))
  have h₄ := (h₃.snoc (.G_Tick (.R_Prepare rfl rfl))).snoc (.G_Recv (.C_Item rfl))
  have h₅ := (h₄.snoc (.G_Tick (.R_Prepare rfl rfl))).snoc (.G_Recv (.C_Item rfl))
  have h₆ := (h₅.snoc (.G_Tick (.R_Prepare rfl rfl))).snoc (.G_Recv (.C_Item rfl))
  obtain ⟨_, _, hsound, _⟩ := turn_text_kept _ _ rfl rfl _ h₆
  exact ⟨_, _, _, h₆, rfl, rfl, hsound⟩

end Gemini

end Gopkg.Voice
