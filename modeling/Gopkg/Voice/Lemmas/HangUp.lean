import Gopkg.Voice.Lemmas.CallerAudio

/-!
# Hanging up

Runs in which the caller's stream ends, cleanly or with an error, the goroutines find the channels of items
closed, and `Run` returns.
-/

namespace Gopkg.Voice

open Lts

variable {V : Type}

/-- The call after its transport has come to the state `r`, with these watchdogs left. -/
def CallState.hungUp (r : Twilio.State V) (holds : List HoldPc) : CallState V :=
  { CallState.answered with transport := r, holds := holds }

def streamReader (pc : ReaderPc (List UInt8) Frame V) (conn : Conn V) (errs : Option (Err V)) : Twilio.State V :=
  { pc := pc, vars := (), inbox := [], conn := conn, errs := errs }

theorem transportReads (C : CallSetup) (holds : List HoldPc) (x : Ending V) :
    Run (Step (phoneCall V C)) (CallState.hungUp (streamReader .top .live none) holds) []
      (CallState.hungUp (streamReader .reading (.ended x) none) holds) := by
  have hread : Step (phoneCall V C) (CallState.hungUp (streamReader .top .live none) holds) [] _ :=
    .adapter (.T_Tick (e := none) (.R_Read rfl rfl))
  exact (Run.single hread).snoc (.env (.N_Transport (.P_End x rfl)))

theorem transportCloses (C : CallSetup) (holds : List HoldPc) :
    Run (Step (phoneCall V C)) (CallState.hungUp (streamReader .top .live none) holds) [.transportEnded .clean]
      (CallState.hungUp (streamReader .exited (.ended .clean) none) holds) := by
  have hclean := (transportReads (V := V) C holds .clean).snoc (.adapter (.T_Tick (.R_Clean rfl rfl rfl)))
  have herrs := hclean.snoc (.adapter (.T_Tick (.R_CloseErrs rfl)))
  have hitems := herrs.snoc (.adapter (.T_Tick (.R_CloseItems rfl)))
  exact hitems

/-- The stream fails, and the read loop leaves the error in its channel. -/
theorem transportFails (C : CallSetup) (holds : List HoldPc) (e : Err V) :
    Run (Step (phoneCall V C)) (CallState.hungUp (streamReader .top .live none) holds) [.transportEnded (.failed e)]
      (CallState.hungUp (streamReader .exited (.ended (.failed e)) (some e)) holds) := by
  have hfailed := (transportReads C holds (.failed e)).snoc (.adapter (.T_Tick (.R_Failed rfl rfl rfl)))
  have hput := hfailed.snoc (.adapter (.T_Tick (.R_Put rfl rfl)))
  have herrs := hput.snoc (.adapter (.T_Tick (.R_CloseErrs rfl)))
  have hitems := herrs.snoc (.adapter (.T_Tick (.R_CloseItems rfl)))
  exact hitems

/-- What `Run` shows from there on, when the caller-audio goroutine takes the closed channel of frames. -/
def hangUpTrace (V : Type) : List (Event V) :=
  [.recordEnd .transportClosed none, .llmEnded .clean, .recordEnd .llmClosed none, .transportClose, .llmClose,
    .callback (.onSessionEnd .transportClosed) false]

theorem hangsUp (C : CallSetup) (holds : List HoldPc) (conn : Conn V) (errs : Option (Err V)) :
    ∃ s, Run (Step (phoneCall V C)) (CallState.hungUp (streamReader .exited conn errs) holds) (hangUpTrace V) s ∧
      s.main = .returned none ∧ s.ctx = none ∧ s.holds = holds := by
  have hclosed : Step (phoneCall V C) (CallState.hungUp (streamReader .exited conn errs) holds) [] _ :=
    .audio (.A_Closed rfl (.C_Closed rfl))
  have haudio := (Run.single hclosed).snoc (.audio (.A_Exit rfl .X_Closed))
  have hread := (haudio.snoc (.adapter (.L_Tick (e := none) ⟨_, .R_Read rfl rfl, rfl⟩))).snoc
    (.env (.N_LLM ⟨_, .P_End .clean rfl, rfl⟩))
  have hexited := ((hread.snoc (.adapter (.L_Tick ⟨_, .R_Clean rfl rfl rfl, rfl⟩))).snoc
    (.adapter (.L_Tick ⟨_, .R_CloseErrs rfl, rfl⟩))).snoc (.adapter (.L_Tick ⟨_, .R_CloseItems rfl, rfl⟩))
  have hevents := (hexited.snoc (.events (.E_Closed rfl ⟨_, .C_Closed rfl, rfl⟩))).snoc
    (.events (.E_Exit rfl .X_Closed))
  have hclose := ((hevents.snoc (.main (.M_Done rfl rfl rfl))).snoc (.main (.M_CloseTransport rfl))).snoc
    (.main (.M_CloseLLM rfl))
  exact ⟨_, hclose.snoc (.main (.M_End (p := false) rfl)), rfl, rfl, rfl⟩

end Gopkg.Voice
