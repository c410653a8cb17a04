import Mathlib.Algebra.Order.Field.Rat
import Gopkg.Go.Map

/-!
# Exchange rates in memory

`Memory` of `financial/fx/fx.go`, as `NewMemory` makes it. A rate of a pair is kept under one string for both codes.
-/

namespace Gopkg.Fx

open Go

/-- A `float64`. A finite one is the exact number, with no sign at zero. -/
inductive Number where
  | finite (q : ℚ)
  | inf (negative : Bool)
  | nan
  deriving DecidableEq

/-- `r > 0 && !math.IsInf(r, 0) && !math.IsNaN(r)` -/
def validRate : Number → Bool
  | .finite q => 0 < q
  | _ => false

/-- `1.0 / r` -/
def Number.inverse : Number → Number
  | .finite q => if q = 0 then .inf false else .finite (1 / q)
  | .inf _ => .finite 0
  | .nan => .nan

inductive ContextErr where
  | canceled
  | deadlineExceeded
  deriving DecidableEq

/-- `invalidRate` is `ErrInvalidRate` with the text `: what = rate`, and `rateNotFound` is `ErrRateNotFound` with the
text `: what`. -/
inductive Err where
  | context (err : ContextErr)
  | invalidRate (what : String) (rate : Number)
  | rateNotFound (what : String)
  deriving DecidableEq

structure Memory where
  rates : Map String Number

def newMemory : Memory := ⟨∅⟩

def key (src dst : String) : String := src ++ ">" ++ dst

/-- `%s→%s` -/
def arrow (src dst : String) : String := src ++ "→" ++ dst

namespace Memory

def set (m : Memory) (src dst : String) (rate : Number) : Memory × Option Err :=
  if !validRate rate then (m, some (.invalidRate (arrow src dst) rate))
  else (⟨m.rates.insert (key src dst) rate⟩, none)

def setPair (m : Memory) (src dst : String) (rate : Number) : Memory × Option Err :=
  if !validRate rate then (m, some (.invalidRate (arrow src dst) rate))
  else (⟨(m.rates.insert (key src dst) rate).insert (key dst src) rate.inverse⟩, none)

/-- The first loop of `Load`. -/
def checkRates : List (Entry String Number) → Option Err
  | [] => none
  | ⟨k, v⟩ :: rest => if !validRate v then some (.invalidRate k v) else checkRates rest

/-- `Load`, with the orders in which the rates are checked and copied. -/
def loadIn (m : Memory) (checked copied : List (Entry String Number)) : Memory × Option Err :=
  (checkRates checked).elim (⟨writeAll ∅ (copied.map fun e => (e.1, e.2))⟩, none) fun err => (m, some err)

inductive Load (m : Memory) (rates : Map String Number) : Memory × Option Err → Prop
  | range {checked copied : List (Entry String Number)} :
      Iterates rates checked → Iterates rates copied → Load m rates (m.loadIn checked copied)

/-- `ctx` is what `ctx.Err()` returns. -/
def getRate (m : Memory) (ctx : Option ContextErr) (src dst : String) : Except Err Number :=
  match ctx with
  | some err => .error (.context err)
  | none =>
    if src = dst then .ok (.finite 1)
    else (m.rates.lookup (key src dst)).elim (.error (.rateNotFound (arrow src dst))) .ok

end Memory

/-! ## Histories -/

inductive Call where
  | set (src dst : String) (rate : Number)
  | setPair (src dst : String) (rate : Number)

/-- The pairs that a call is to set, with their rates. -/
def Call.installs : Call → List ((String × String) × Number)
  | .set src dst rate => if validRate rate then [((src, dst), rate)] else []
  | .setPair src dst rate => if validRate rate then [((src, dst), rate), ((dst, src), rate.inverse)] else []

/-- Both codes of the call are among `C`. -/
def Call.Over (C : Set String) : Call → Prop
  | .set src dst _ | .setPair src dst _ => src ∈ C ∧ dst ∈ C

def Call.run (m : Memory) : Call → Memory
  | .set src dst rate => (m.set src dst rate).1
  | .setPair src dst rate => (m.setPair src dst rate).1

def memoryAfter (calls : List Call) : Memory := calls.foldl Call.run newMemory

/-- The rate that was set last for exactly this pair. -/
def installed (calls : List Call) (src dst : String) : Option Number := latest (calls.flatMap Call.installs) (src, dst)

/-- No other pair of codes of `C` has the key of a pair of two different codes. -/
def KeysApart (C : Set String) : Prop :=
  ∀ a ∈ C, ∀ b ∈ C, ∀ src ∈ C, ∀ dst ∈ C, src ≠ dst → key a b = key src dst → a = src ∧ b = dst

variable {C : Set String} {m : Memory} {c : Call} {calls : List Call} {src dst : String} {table : Map String Number}
  {r : Memory × Option Err}

theorem Call.run_eq (m : Memory) (c : Call) :
    c.run m = ⟨writeAll m.rates (c.installs.map fun w => (key w.1.1 w.1.2, w.2))⟩ := by
  cases c with
  | set src dst rate =>
      cases hvalid : validRate rate <;> simp [Call.run, Memory.set, Call.installs, hvalid, writeAll]
  | setPair src dst rate =>
      cases hvalid : validRate rate <;> simp [Call.run, Memory.setPair, Call.installs, hvalid, writeAll]

theorem foldl_run_rates (m : Memory) (calls : List Call) : (calls.foldl Call.run m).rates =
    writeAll m.rates ((calls.flatMap Call.installs).map fun w => (key w.1.1 w.1.2, w.2)) := by
  induction calls generalizing m with
  | nil => rfl
  | cons c calls ih =>
      rw [List.foldl_cons, ih, Call.run_eq, List.flatMap_cons, List.map_append, writeAll, writeAll, writeAll,
        List.foldl_append]

theorem Call.Over.mem_of_installs (h : c.Over C) {w : (String × String) × Number} (hw : w ∈ c.installs) :
    w.1.1 ∈ C ∧ w.1.2 ∈ C := by
  cases c with
  | set src dst rate =>
      cases hvalid : validRate rate <;> simp [Call.installs, hvalid] at hw
      subst hw
      exact h
  | setPair src dst rate =>
      cases hvalid : validRate rate <;> simp [Call.installs, hvalid] at hw
      rcases hw with rfl | rfl
      · exact h
      · exact ⟨h.2, h.1⟩

/-- The rates of the memory are the rates of the pairs, as long as the keys stay apart. -/
theorem getRate_memoryAfter (hapart : KeysApart C) (hcalls : ∀ c ∈ calls, c.Over C) (hsrc : src ∈ C) (hdst : dst ∈ C)
    (hne : src ≠ dst) : (memoryAfter calls).getRate none src dst =
      (installed calls src dst).elim (.error (.rateNotFound (arrow src dst))) .ok := by
  have hkeys : ∀ w ∈ calls.flatMap Call.installs, key w.1.1 w.1.2 = key src dst → w.1 = (src, dst) := by
    intro w hw hkey
    obtain ⟨c, hc, hw⟩ := List.mem_flatMap.mp hw
    obtain ⟨ha, hb⟩ := (hcalls c hc).mem_of_installs hw
    obtain ⟨hsrc, hdst⟩ := hapart _ ha _ hb _ hsrc _ hdst hne hkey
    exact Prod.ext hsrc hdst
  have hlatest := latest_map_key (fun p : String × String => key p.1 p.2) (p := (src, dst)) hkeys
  simp only [Memory.getRate, if_neg hne, memoryAfter, foldl_run_rates, lookup_writeAll]
  rw [hlatest]
  simp [newMemory, installed]

/-- A rate is found under every pair with its key, though it was set for one. -/
theorem getRate_of_same_key {a b : String} {rate : Number} (hvalid : validRate rate = true) (hne : src ≠ dst)
    (hkey : key a b = key src dst) : (memoryAfter [.set a b rate]).getRate none src dst = .ok rate := by
  simp [memoryAfter, Call.run, Memory.set, hvalid, Memory.getRate, hne, hkey]

theorem installed_other_pair {a b : String} {rate : Number} (hother : ¬ (a = src ∧ b = dst)) :
    installed [.set a b rate] src dst = none := by
  cases hvalid : validRate rate <;> simp [installed, Call.installs, hvalid, latest, hother]

/-- Codes without a `>` cannot interfere. -/
theorem keysApart_of_no_separator (hC : ∀ c ∈ C, '>' ∉ c.toList) : KeysApart C := by
  intro a ha b hb src _ dst _ _ hkey
  have hchars : a.toList ++ '>' :: b.toList = src.toList ++ '>' :: dst.toList := by
    simpa [key] using congrArg String.toList hkey
  obtain ⟨hsrc, _, hdst⟩ := (List.append_cons_inj_of_notMem (hC a ha) (hC b hb)).mp hchars
  exact ⟨String.toList_inj.mp hsrc, String.toList_inj.mp hdst⟩

/-! ## `Load` -/

theorem checkRates_isSome (order : List (Entry String Number)) :
    (Memory.checkRates order).isSome ↔ ∃ e ∈ order, validRate e.2 = false := by
  induction order with
  | nil => simp [Memory.checkRates]
  | cons e rest ih =>
      obtain ⟨k, v⟩ := e
      cases hvalid : validRate v <;> simp [Memory.checkRates, hvalid, ih]

theorem Memory.Load.cases (h : Memory.Load m table r) :
    (∃ err, r = (m, some err) ∧ ∃ k v, table.lookup k = some v ∧ validRate v = false) ∨
      r = (⟨table⟩, none) ∧ ∀ k v, table.lookup k = some v → validRate v = true := by
  cases h with
  | @range checked copied hchecked hcopied =>
      have hsome := checkRates_isSome checked
      rw [Memory.loadIn, hcopied.writeAll_eq]
      cases hcheck : Memory.checkRates checked with
      | none =>
          rw [hcheck] at hsome
          refine .inr ⟨rfl, fun k v hv => ?_⟩
          refine Bool.of_not_eq_false fun hinvalid => ?_
          exact absurd (hsome.mpr ⟨_, hchecked.mem_iff.mpr hv, hinvalid⟩) Bool.false_ne_true
      | some err =>
          rw [hcheck] at hsome
          obtain ⟨⟨k, v⟩, hmem, hinvalid⟩ := hsome.mp rfl
          exact .inl ⟨err, rfl, k, v, hchecked.mem_iff.mp hmem, hinvalid⟩

/-- Within a set of codes the rates of pairs do not interfere if and only if the keys are apart, and a `Load` that is
rejected changes no rate. -/
theorem pairs_independent_iff (C : Set String) :
    ((∀ calls : List Call, (∀ c ∈ calls, c.Over C) → ∀ src ∈ C, ∀ dst ∈ C, src ≠ dst →
        (memoryAfter calls).getRate none src dst =
          (installed calls src dst).elim (.error (.rateNotFound (arrow src dst))) .ok) ↔ KeysApart C) ∧
      ∀ (m : Memory) (table : Map String Number) (r : Memory × Option Err), Memory.Load m table r →
        (r.2 ≠ none ↔ ∃ k v, table.lookup k = some v ∧ validRate v = false) ∧
          (r.2 ≠ none → ∀ ctx src dst, r.1.getRate ctx src dst = m.getRate ctx src dst) := by
  refine ⟨⟨fun hrates a ha b hb src hsrc dst hdst hne hkey => ?_, fun hapart calls hcalls src hsrc dst hdst hne => ?_⟩,
    fun m table r hload => ?_⟩
  · by_contra hother
    have hone := hrates [.set a b (.finite 1)] (by simpa [Call.Over] using ⟨ha, hb⟩) src hsrc dst hdst hne
    rw [getRate_of_same_key (by decide) hne hkey, installed_other_pair hother] at hone
    cases hone
  · exact getRate_memoryAfter hapart hcalls hsrc hdst hne
  · rcases hload.cases with ⟨err, rfl, hinvalid⟩ | ⟨rfl, hvalid⟩
    · exact ⟨⟨fun _ => hinvalid, fun _ => nofun⟩, fun _ _ _ _ => rfl⟩
    · refine ⟨⟨fun herr => absurd rfl herr, ?_⟩, fun herr => absurd rfl herr⟩
      rintro ⟨k, v, hv, hinvalid⟩
      rw [hvalid k v hv] at hinvalid
      cases hinvalid

/-- A code with a `>` in it: the rate of `A` to `B>C` is returned for `A>B` to `C`. -/
theorem separator_in_code_interferes :
    (memoryAfter [.set "A" "B>C" (.finite 2)]).getRate none "A>B" "C" = .ok (.finite 2) ∧
      installed [.set "A" "B>C" (.finite 2)] "A>B" "C" = none :=
  ⟨getRate_of_same_key (by decide) (by decide) (by decide), installed_other_pair (by decide)⟩

end Gopkg.Fx
