import Mathlib.Data.List.ReduceOption

/-!
# Typed errors

`errorsx/errorsx.go`, and `errors.As` and `errors.Is` as far as they walk over errors. The kind of an error is read
through a pointer, which may be nil.
-/

namespace Gopkg.Errorsx

inductive Kind where
  | unknown
  | notFound
  | invalidArgument
  | conflict
  | unauthenticated
  | permissionDenied
  | failedPrecondition
  | resourceExhausted
  | unavailable
  | deadlineExceeded
  | other (kind : Int)
  deriving DecidableEq

inductive Panic where
  | nilDereference
  deriving DecidableEq

/-- The error values, other than nil. -/
inductive Err where
  /-- An error of another package, with nothing wrapped. -/
  | plain (text : String)
  /-- A nil `*Error` in an interface. -/
  | nilError
  /-- An `*Error` whose `wrap` is nil. -/
  | leaf (kind : Kind) (msg : String)
  | wrapping (kind : Kind) (msg : String) (wrap : Err)
  /-- What `fmt.Errorf` returns for a format with `%w`, once or more. -/
  | errorf (text : String) (errs : List Err)

/-- An `*Error`, of which only the kind is read. -/
abbrev Pointer := Option Kind

def Pointer.kind : Pointer → Except Panic Kind
  | none => .error .nilDereference
  | some kind => .ok kind

def new (kind : Kind) (msg : String) : Err := .leaf kind msg

/-- The `*Error` that is returned, as an error value. -/
def wrap (kind : Kind) (err : Option Err) (msg : String) : Err :=
  match err with
  | none => .nilError
  | some err => .wrapping kind msg err

/-- The sentinels are `new kind msg`. -/
def sentinels : List (Kind × String) :=
  [(.notFound, "not found"), (.invalidArgument, "invalid argument"), (.conflict, "conflict"),
    (.unauthenticated, "unauthenticated"), (.permissionDenied, "permission denied"),
    (.failedPrecondition, "failed precondition"), (.resourceExhausted, "resource exhausted"),
    (.unavailable, "unavailable"), (.deadlineExceeded, "deadline exceeded")]

mutual
/-- `errors.As` for an `*Error`. A nil one is found as well. -/
def Err.as : Err → Option Pointer
  | .plain _ => none
  | .nilError => some none
  | .leaf kind _ => some (some kind)
  | .wrapping kind _ _ => some (some kind)
  | .errorf _ errs => asFirst errs

def asFirst : List Err → Option Pointer
  | [] => none
  | err :: errs => err.as.or (asFirst errs)
end

def kindOf (err : Option Err) : Except Panic Kind :=
  match err.bind Err.as with
  | some e => e.kind
  | none => .ok .unknown

def httpStatus (err : Option Err) : Except Panic Nat :=
  (kindOf err).map fun
    | .notFound => 404
    | .invalidArgument => 400
    | .conflict => 409
    | .unauthenticated => 401
    | .permissionDenied => 403
    | .failedPrecondition => 412
    | .resourceExhausted => 429
    | .unavailable => 503
    | .deadlineExceeded => 504
    | .unknown | .other _ => 500

/-- The method `Is`. -/
def Pointer.is (e : Pointer) (target : Err) : Except Panic Bool :=
  match target.as with
  | none => .ok false
  | some t => do return (← e.kind) == (← t.kind)

/-- What `==` says of two errors: they are one pointer. -/
structure Identity where
  same : Err → Err → Bool
  eq_of_same : ∀ err err', same err err' → err = err'

/-- `if x { return true }` before what follows. -/
def orElse (x y : Except Panic Bool) : Except Panic Bool := x.bind fun b => if b then .ok true else y

mutual
/-- `errors.Is`, for a target that is not nil. -/
def Err.is (id : Identity) (target : Err) : Err → Except Panic Bool
  | .plain text => .ok (id.same (.plain text) target)
  | .nilError =>
      -- `Unwrap` would read the nil pointer after `Is` did
      orElse (.ok (id.same .nilError target)) (orElse (Pointer.is none target) (.error .nilDereference))
  | .leaf kind msg => orElse (.ok (id.same (.leaf kind msg) target)) (Pointer.is (some kind) target)
  | .wrapping kind msg wrap =>
      orElse (.ok (id.same (.wrapping kind msg wrap) target))
        (orElse (Pointer.is (some kind) target) (Err.is id target wrap))
  | .errorf text errs => orElse (.ok (id.same (.errorf text errs) target)) (isAny id target errs)

def isAny (id : Identity) (target : Err) : List Err → Except Panic Bool
  | [] => .ok false
  | err :: errs => orElse (Err.is id target err) (isAny id target errs)
end

/-- `errors.Is`, for a target that is not nil. -/
def errorsIs (id : Identity) (err : Option Err) (target : Err) : Except Panic Bool :=
  err.elim (.ok false) (Err.is id target)

end Gopkg.Errorsx
