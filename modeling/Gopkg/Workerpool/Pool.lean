import Gopkg.Lts.Run

/-!
# Worker pool

`workerpool/workerpool.go`, as the interleaving of its goroutines: the workers, the calls of `Submit` and
`SubmitCtx`, and the calls of `Wait`. The channel of tasks has no buffer, so that a send and its receive are one
step. The lock of the closed flag is held for one step at a time; `Wait` sets the flag and closes the channel
in one. A task is known by the call that submits it.
-/

namespace Gopkg.Workerpool

inductive WorkerPc where
  -- `range p.tasks`.
  | receiving
  | received (task : Nat)
  | running (task : Nat)
  | exited
  deriving DecidableEq, Repr

/-- How a call of `Submit` or `SubmitCtx` ends: `Submit on closed pool` is the panic of `Submit` itself, and
the other one is that of a send on a closed channel. -/
inductive Outcome where
  | accepted
  | errClosed
  | ctxErr
  | closedPanic
  | sendPanic
  deriving DecidableEq, Repr

inductive SubmitPc where
  | checking
  | sending
  | ended (o : Outcome)
  deriving DecidableEq, Repr

structure SubmitCall where
  -- Whether the call is one of `SubmitCtx`.
  ctx : Bool
  pc : SubmitPc
  deriving DecidableEq, Repr

inductive WaitPc where
  | called
  -- `p.wg.Wait()`.
  | waiting
  | returned
  deriving DecidableEq, Repr

structure WaitCall where
  -- Not in the source: the tasks that had been accepted when the call started.
  before : List Nat
  pc : WaitPc
  deriving DecidableEq, Repr

structure Pool where
  workers : List WorkerPc
  wg : Nat
  closed : Bool
  submits : List SubmitCall
  waits : List WaitCall
  deriving DecidableEq, Repr

/-- The number of workers that `New` starts. -/
def size (workers : Int) : Nat := (if workers < 1 then 1 else workers).toNat

def new (workers : Int) : Pool where
  workers := List.replicate (size workers) .receiving
  wg := size workers
  closed := false
  submits := []
  waits := []

def Pool.setSubmit (p : Pool) (i : Nat) (c : SubmitCall) : Pool := { p with submits := p.submits.set i c }

def Pool.setWorker (p : Pool) (k : Nat) (w : WorkerPc) : Pool := { p with workers := p.workers.set k w }

def Pool.setWait (p : Pool) (j : Nat) (c : WaitCall) : Pool := { p with waits := p.waits.set j c }

def SubmitCall.accepted (c : SubmitCall) : Bool := c.pc = .ended .accepted

/-- The tasks that have been accepted so far. -/
def Pool.accepted (p : Pool) : List Nat :=
  (List.range p.submits.length).filter fun i => p.submits[i]?.any SubmitCall.accepted

inductive Event where
  | submitted (task : Nat)
  | ended (task : Nat) (o : Outcome)
  | began (task : Nat)
  | finished (task : Nat) (panicked : Bool)
  | waitCalled (call : Nat)
  | waitClosed (call : Nat)
  | waitReturned (call : Nat)
  deriving DecidableEq, Repr

/-! ## Steps -/

inductive SubmitStep : Pool → List Event → Pool → Prop
  | S_Call {p : Pool} (ctx : Bool) :
      SubmitStep p [.submitted p.submits.length] { p with submits := p.submits ++ [⟨ctx, .checking⟩] }
  | S_Closed {p : Pool} {i : Nat} {ctx : Bool} {o : Outcome} : p.submits[i]? = some ⟨ctx, .checking⟩ →
      p.closed = true → o = (if ctx then .errClosed else .closedPanic) →
      SubmitStep p [.ended i o] (p.setSubmit i ⟨ctx, .ended o⟩)
  | S_Checked {p : Pool} {i : Nat} {ctx : Bool} : p.submits[i]? = some ⟨ctx, .checking⟩ → p.closed = false →
      SubmitStep p [] (p.setSubmit i ⟨ctx, .sending⟩)
  | S_Send {p : Pool} {i k : Nat} {ctx : Bool} : p.submits[i]? = some ⟨ctx, .sending⟩ →
      p.workers[k]? = some .receiving → p.closed = false →
      SubmitStep p [.ended i .accepted] ((p.setSubmit i ⟨ctx, .ended .accepted⟩).setWorker k (.received i))
  -- a send on a closed channel, or one that waits when the channel is closed
  | S_Panic {p : Pool} {i : Nat} {ctx : Bool} : p.submits[i]? = some ⟨ctx, .sending⟩ → p.closed = true →
      SubmitStep p [.ended i .sendPanic] (p.setSubmit i ⟨ctx, .ended .sendPanic⟩)
  | S_Cancelled {p : Pool} {i : Nat} : p.submits[i]? = some ⟨true, .sending⟩ →
      SubmitStep p [.ended i .ctxErr] (p.setSubmit i ⟨true, .ended .ctxErr⟩)

inductive WorkerStep : Pool → List Event → Pool → Prop
  | W_Begin {p : Pool} {k i : Nat} : p.workers[k]? = some (.received i) →
      WorkerStep p [.began i] (p.setWorker k (.running i))
  -- a panic of the task is recovered
  | W_Finish {p : Pool} {k i : Nat} (panicked : Bool) : p.workers[k]? = some (.running i) →
      WorkerStep p [.finished i panicked] (p.setWorker k .receiving)
  | W_Exit {p : Pool} {k : Nat} : p.workers[k]? = some .receiving → p.closed = true →
      WorkerStep p [] { p.setWorker k .exited with wg := p.wg - 1 }

inductive WaitStep : Pool → List Event → Pool → Prop
  | Q_Call {p : Pool} : WaitStep p [.waitCalled p.waits.length] { p with waits := p.waits ++ [⟨p.accepted, .called⟩] }
  | Q_Close {p : Pool} {j : Nat} {before : List Nat} : p.waits[j]? = some ⟨before, .called⟩ → p.closed = false →
      WaitStep p [.waitClosed j] { p.setWait j ⟨before, .waiting⟩ with closed := true }
  -- the pool is closed already
  | Q_Skip {p : Pool} {j : Nat} {before : List Nat} : p.waits[j]? = some ⟨before, .called⟩ → p.closed = true →
      WaitStep p [.waitReturned j] (p.setWait j ⟨before, .returned⟩)
  | Q_Return {p : Pool} {j : Nat} {before : List Nat} : p.waits[j]? = some ⟨before, .waiting⟩ → p.wg = 0 →
      WaitStep p [.waitReturned j] (p.setWait j ⟨before, .returned⟩)

inductive Step : Pool → List Event → Pool → Prop
  | submit {p p' : Pool} {evs : List Event} : SubmitStep p evs p' → Step p evs p'
  | worker {p p' : Pool} {evs : List Event} : WorkerStep p evs p' → Step p evs p'
  | wait {p p' : Pool} {evs : List Event} : WaitStep p evs p' → Step p evs p'

end Gopkg.Workerpool
