import Mathlib.Algebra.Ring.Nat
import Gopkg.Stringcase.Split

/-!
# Money

`money/money.go`: amounts as `int64` minor units of a currency, and the registry of the scales of currencies.
-/

namespace Gopkg

/-- `type Currency string` -/
abbrev Money.Currency := String

@[ext]
structure Money where
  minor : Int64
  currency : Money.Currency
  deriving DecidableEq, Repr

namespace Money

inductive Err
  | currencyMismatch (c other : Currency)
  | divideByZero
  | overflow
  | unknownCurrency (c : Currency)
  | badScale
  deriving DecidableEq, Repr

def Err.error : Err → String
  | .currencyMismatch c other => s!"money: currency mismatch: {c} vs {other}"
  | .divideByZero => "money: divide by zero"
  | .overflow => "money: overflow"
  | .unknownCurrency c => s!"money: unknown currency: {c}"
  | .badScale => "money: scale must be in [0, 8]"

/-- The package map of scales. `Register` lets no other scale into it. -/
structure Registry where
  scales : String → Option Nat
  scale_le : ∀ code s, scales code = some s → s ≤ 8

/-- The entries that the package starts with. -/
def defaults : List (String × Nat) :=
  ["USD", "EUR", "GBP", "CAD", "AUD", "CHF", "NZD", "SEK", "NOK", "DKK", "PLN", "CZK", "HUF", "RON", "SGD", "HKD",
    "TWD", "CNY", "INR", "THB", "MYR", "IDR"].map (·, 2) ++
  ["JPY", "KRW", "VND", "CLP", "ISK", "IQD"].map (·, 0) ++
  ["KWD", "BHD", "OMR", "JOD", "TND"].map (·, 3) ++
  ["AED", "SAR", "EGP", "QAR", "LBP", "TRY", "ILS", "ZAR", "NGN", "KES", "MAD", "DZD", "BRL", "MXN", "ARS", "COP",
    "PEN", "RUB"].map (·, 2)

theorem defaults_le : ∀ e ∈ defaults, e.2 ≤ 8 := by decide

theorem mem_of_lookup_eq_some {l : List (String × Nat)} {code : String} {s : Nat} (h : l.lookup code = some s) :
    (code, s) ∈ l := by
  rw [List.lookup_eq_some_iff] at h
  obtain ⟨l₁, l₂, rfl, _⟩ := h
  simp

def registry : Registry where
  scales code := defaults.lookup code
  scale_le _ _ h := defaults_le _ (mem_of_lookup_eq_some h)

variable (u : Stringcase.Unicode)

def Currency.code (c : Currency) : String := Stringcase.upper u c

def register (reg : Registry) (code : String) (scale : Int) : Except Err Registry :=
  if h : scale < 0 ∨ 8 < scale then .error .badScale
  else .ok
    { scales := fun key => if key = Stringcase.upper u code then some scale.toNat else reg.scales key
      scale_le := by
        intro key s hs
        split at hs
        · cases hs
          omega
        · exact reg.scale_le key s hs }

def scale (reg : Registry) (c : Currency) : Except Err Nat :=
  match reg.scales (c.code u) with
  | none => .error (.unknownCurrency c)
  | some s => .ok s

def fromMinor (reg : Registry) (minor : Int64) (currency : Currency) : Except Err Money := do
  let _ ← scale u reg currency
  return ⟨minor, currency⟩

def addOverflows (a b : Int64) : Bool :=
  (b > 0 && a > Int64.maxValue - b) || (b < 0 && a < Int64.minValue - b)

def subOverflows (a b : Int64) : Bool :=
  (b < 0 && a > Int64.maxValue + b) || (b > 0 && a < Int64.minValue + b)

/-- `strconv.FormatInt(n, 10)`, and the verb `%d`. -/
def formatInt (n : Int64) : String := toString n.toInt

def sameCurrency (m other : Money) : Except Err Unit :=
  if m.currency.code u ≠ other.currency.code u then .error (.currencyMismatch m.currency other.currency)
  else .ok ()

/-- The body of `Add` and `Sub`: what the operation leaves, in the first currency. -/
def checked (m other : Money) (overflows : Bool) (minor : Int64) : Except Err Money := do
  m.sameCurrency u other
  if overflows then throw .overflow
  return ⟨minor, m.currency⟩

def add (m other : Money) : Except Err Money :=
  m.checked u other (addOverflows m.minor other.minor) (m.minor + other.minor)

def sub (m other : Money) : Except Err Money :=
  m.checked u other (subOverflows m.minor other.minor) (m.minor - other.minor)

def mulInt (m : Money) (factor : Int64) : Except Err Money :=
  if factor = 0 then .ok ⟨0, m.currency⟩
  else if m.minor ≠ 0 ∧ m.minor * factor / factor ≠ m.minor then .error .overflow
  else .ok ⟨m.minor * factor, m.currency⟩

def divInt (m : Money) (divisor : Int64) : Except Err Money :=
  if divisor = 0 then .error .divideByZero else .ok ⟨m.minor / divisor, m.currency⟩

def equal (m other : Money) : Bool := m.currency.code u = other.currency.code u ∧ m.minor = other.minor

def cmp (m other : Money) : Except Err Int := do
  m.sameCurrency u other
  return if m.minor < other.minor then -1 else if m.minor > other.minor then 1 else 0

def negate (m : Money) : Money := ⟨-m.minor, m.currency⟩

/-- The digits after the point, with the zeros before them. -/
def fracStr (frac : Int64) (scale : Nat) : String :=
  let digits := formatInt frac
  if digits.length < scale then String.ofList (List.replicate (scale - digits.length) '0') ++ digits else digits

def string (reg : Registry) (m : Money) : String :=
  match scale u reg m.currency with
  | .error _ => formatInt m.minor ++ " <unknown:" ++ m.currency ++ ">"
  | .ok scale =>
      let abs := if m.minor < 0 then -m.minor else m.minor
      let sign := if m.minor < 0 then "-" else ""
      if scale = 0 then sign ++ formatInt abs ++ " " ++ m.currency.code u
      else
        -- `int64(math.Pow10(scale))`
        let divisor := Int64.ofNat (10 ^ scale)
        sign ++ formatInt (abs / divisor) ++ "." ++ fracStr (abs % divisor) scale ++ " " ++ m.currency.code u

end Money

end Gopkg
