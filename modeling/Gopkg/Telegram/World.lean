import Gopkg.Lts.Exec
import Gopkg.Telegram.Handlers

/-!
# The handlers of one user's messages

The bot runs the handler of every message in a goroutine of its own. Each operation of a handler is one
step; Redis and the gateway may fail, and a failed operation may or may not have taken effect.
-/

namespace Gopkg.Telegram

open Lts

variable {F : Type}

/-- The mark of the `/addcredit` conversation that a `Get` found. -/
def foundFlow : Except Unit (Option ConversationState) → Option Nat
  | .ok (some cs) => cs.creditFlow
  | _ => none

/-- The conversation a handler has in hand after an operation: the one its last `Get` found. -/
def readAfter (read : Option Nat) : (op : Op F) → Ans op → Option Nat
  | .stateGet, a => foundFlow a
  | .stateSet _, _ | .stateClear, _ | .getSession, _ | .getValidToken, _ | .newUUID, _
  | .replyToTicket, _ | .getCurrencyList _, _ | .adminUpdateCurrency _ _ _, _ | .adminDeposit _ _ _, _
  | .askAI _ _, _ => read

/-- A handler in progress. `own` marks the states it creates. -/
structure Proc (F : Type) where
  prog : Call F (Result F)
  own : Nat
  read : Option Nat

/-- A handler that has returned is gone. -/
def Proc.resume (p : Proc F) : List (Proc F) :=
  match p.prog with
  | .ret _ => []
  | .call _ _ => [p]

structure World (F : Type) where
  store : Option ConversationState
  -- The conversations of the deposits that the gateway executed.
  paid : List Nat
  procs : List (Proc F)
  nextFlow : Nat

def World.init : World F := { store := none, paid := [], procs := [], nextFlow := 0 }

/-- The answers an operation can get; `done` says whether it took effect. An operation that failed may
have taken effect all the same, its reply being lost. -/
def Answers (store : Option ConversationState) : (op : Op F) → (done : Bool) → Ans op → Prop
  | .stateGet, done, .ok cs => done = true ∧ cs = store
  | .stateGet, done, .error _ => done = false
  | .stateSet _, done, a => a = true → done = true
  | .stateClear, done, a => a = true → done = true
  | .adminDeposit _ _ _, done, a => a.isOk = true → done = true
  | _, _, _ => True

def World.effect (w : World F) : Op F → (done : Bool) → World F
  | .stateSet cs, true => { w with store := some cs }
  | .stateClear, true => { w with store := none }
  | .adminDeposit flow _ _, true => { w with paid := flow :: w.paid }
  | _, _ => w

inductive Event (F : Type) where
  | arrived (m : Incoming)
  | performed (i : Nat) (op : Op F) (done : Bool) (a : Ans op)
  | expired

inductive Step (h : HandlerSet F) : World F → List (Event F) → World F → Prop
  | W_Arrive {w : World F} (m : Incoming) : Step h w [.arrived m]
      { w with procs := w.procs ++ [⟨handler h w.nextFlow m, w.nextFlow, none⟩], nextFlow := w.nextFlow + 1 }
  | W_Perform {w : World F} (pre post : List (Proc F)) {op : Op F} {next : Ans op → Call F (Result F)}
      {own : Nat} {read : Option Nat} {done : Bool} {a : Ans op} :
      w.procs = pre ++ ⟨.call op next, own, read⟩ :: post → Answers w.store op done a →
      Step h w [.performed pre.length op done a]
        { w.effect op done with
            procs := pre ++ Proc.resume ⟨next a, own, readAfter read op a⟩ ++ post }
  | W_Expire {w : World F} : Step h w [.expired] { w with store := none }

/-! ## Orderly steps -/

/-- What keeps the handlers of one conversation out of each other's way: a `Get` finds an `/addcredit`
conversation only while no other handler has it in hand, no reply to an executed deposit is lost, and the
`Clear` of a handler whose conversation has been paid takes effect. -/
def Event.Orderly (w : World F) : Event F → Prop
  | .performed i .stateGet _ a => ∀ f ∈ foundFlow a, ∀ q ∈ w.procs.eraseIdx i, q.read ≠ some f
  | .performed _ (.adminDeposit _ _ _) done a => done = true → a.isOk = true
  | .performed i .stateClear done _ => ∀ p ∈ w.procs[i]?, ∀ f ∈ p.read, f ∈ w.paid → done = true
  | _ => True

def Orderly (w : World F) (evs : List (Event F)) (_ : World F) : Prop := ∀ ev ∈ evs, ev.Orderly w

instance (w : World F) : (ev : Event F) → Decidable (ev.Orderly w)
  | .performed i .stateGet _ a => inferInstanceAs
      (Decidable (∀ f ∈ foundFlow a, ∀ q ∈ w.procs.eraseIdx i, q.read ≠ some f))
  | .performed _ (.adminDeposit _ _ _) done a => inferInstanceAs (Decidable (done = true → a.isOk = true))
  | .performed i .stateClear done _ => inferInstanceAs
      (Decidable (∀ p ∈ w.procs[i]?, ∀ f ∈ p.read, f ∈ w.paid → done = true))
  | .performed _ (.stateSet _) _ _ | .performed _ .getSession _ _ | .performed _ .getValidToken _ _
  | .performed _ .newUUID _ _ | .performed _ .replyToTicket _ _ | .performed _ (.getCurrencyList _) _ _
  | .performed _ (.adminUpdateCurrency _ _ _) _ _ | .performed _ (.askAI _ _) _ _ | .arrived _ | .expired =>
      inferInstanceAs (Decidable True)

instance (w : World F) (evs : List (Event F)) (w' : World F) : Decidable (Orderly w evs w') :=
  inferInstanceAs (Decidable (∀ ev ∈ evs, ev.Orderly w))

/-! ## Schedules -/

/-- The choices that fix the next step. The environment answers whatever operation the handler is at. -/
inductive Act (F : Type) where
  | arrive (m : Incoming)
  | answer (i : Nat) (done : Bool) (reply : Option ConversationState → (op : Op F) → Ans op)

instance : (store : Option ConversationState) → (op : Op F) → (done : Bool) → (a : Ans op) →
    Decidable (Answers store op done a)
  | store, .stateGet, done, .ok cs => inferInstanceAs (Decidable (done = true ∧ cs = store))
  | _, .stateGet, done, .error _ => inferInstanceAs (Decidable (done = false))
  | _, .stateSet _, done, a => inferInstanceAs (Decidable (a = true → done = true))
  | _, .stateClear, done, a => inferInstanceAs (Decidable (a = true → done = true))
  | _, .adminDeposit _ _ _, done, a => inferInstanceAs (Decidable (a.isOk = true → done = true))
  | _, .getSession, _, _ | _, .getValidToken, _, _ | _, .newUUID, _, _ | _, .replyToTicket, _, _
  | _, .getCurrencyList _, _, _ | _, .adminUpdateCurrency _ _ _, _, _ | _, .askAI _ _, _, _ =>
      inferInstanceAs (Decidable True)

def World.act (h : HandlerSet F) (w : World F) : Act F → Option (List (Event F) × World F)
  | .arrive m => some ([.arrived m],
      { w with procs := w.procs ++ [⟨handler h w.nextFlow m, w.nextFlow, none⟩], nextFlow := w.nextFlow + 1 })
  | .answer i done reply =>
      match w.procs[i]? with
      | some ⟨.call op next, own, read⟩ =>
          let a := reply w.store op
          if Answers w.store op done a then
            some ([.performed i op done a], { w.effect op done with
              procs := w.procs.take i ++ Proc.resume ⟨next a, own, readAfter read op a⟩ ++ w.procs.drop (i + 1) })
          else none
      | _ => none

theorem act_sound (h : HandlerSet F) (w : World F) (a : Act F) (evs : List (Event F)) (w' : World F) :
    w.act h a = some (evs, w') → Step h w evs w' := by
  intro hact
  cases a with
  | arrive m =>
      simp only [World.act, Option.some.injEq, Prod.mk.injEq] at hact
      obtain ⟨rfl, rfl⟩ := hact
      exact .W_Arrive m
  | answer i done reply =>
      simp only [World.act] at hact
      split at hact
      · rename_i op next own read hp
        split at hact
        · rename_i ha
          simp only [Option.some.injEq, Prod.mk.injEq] at hact
          obtain ⟨rfl, rfl⟩ := hact
          obtain ⟨hi, hget⟩ := List.getElem?_eq_some_iff.mp hp
          have hlen : (w.procs.take i).length = i := List.length_take_of_le (Nat.le_of_lt hi)
          have hsplit : w.procs = w.procs.take i ++ ⟨.call op next, own, read⟩ :: w.procs.drop (i + 1) := by
            rw [← hget, ← List.drop_eq_getElem_cons hi, List.take_append_drop]
          have hs := Step.W_Perform (h := h) _ _ hsplit ha
          rwa [hlen] at hs
        · cases hact
      · cases hact

end Gopkg.Telegram
