import Gopkg.Digits.Decimal
import Gopkg.Float.Cents

/-!
# Texts of doubles

Go's `float64`, `strconv.ParseFloat`, and the verb `%.2f`. A parser rounds the exact number that a text denotes.
-/

namespace Gopkg.Float

open Digits

/-- The magnitude of a finite double. -/
structure Magnitude where
  val : ℚ
  nonneg : 0 ≤ val
  nearest_val : binary64.nearest val = val
  val_lt : val < 2 ^ 1024
  deriving DecidableEq

inductive Float64 where
  | nan
  | inf (negative : Bool)
  | finite (negative : Bool) (magnitude : Magnitude)
  deriving DecidableEq

namespace Float64

def zero : Float64 := .finite false ⟨0, le_rfl, Format.nearest_zero, by norm_num⟩

/-- The nearest double to a number of the magnitude `|q|`, or an infinity when it is too large. -/
def round (negative : Bool) (q : ℚ) : Float64 :=
  if h : binary64.nearest |q| < 2 ^ 1024 then
    .finite negative ⟨_, Format.nearest_nonneg (abs_nonneg q), Format.nearest_nearest (abs_nonneg q), h⟩
  else .inf negative

def isFinite : Float64 → Bool
  | .finite _ _ => true
  | _ => false

/-- The number, for a finite double. -/
def value : Float64 → Option ℚ
  | .finite negative m => some (Decimal.signOf negative * m.val)
  | _ => none

/-- `x <= 0` -/
def leZero : Float64 → Bool
  | .nan => false
  | .inf negative => negative
  | .finite negative m => negative || m.val == 0

/-- `fmt.Sprintf("%.2f", x)` -/
def formatFixed2 : Float64 → String
  | .nan => "NaN"
  | .inf negative => if negative then "-Inf" else "+Inf"
  | .finite negative m => String.ofList (Decimal.fixed negative (cents m.val).toNat 2).chars

end Float64

/-! ## `ParseFloat` -/

def readSign : List Char → Bool × List Char
  | '+' :: s => (false, s)
  | '-' :: s => (true, s)
  | s => (false, s)

/-- `inf` and `infinity` with an optional sign, and `nan`, in any case. -/
def special (s : List Char) : Option Float64 :=
  let word := (readSign s).2.map Char.toLower
  if word = ['i', 'n', 'f'] ∨ word = ['i', 'n', 'f', 'i', 'n', 'i', 't', 'y'] then some (.inf (readSign s).1)
  else if s.map Char.toLower = ['n', 'a', 'n'] then some .nan
  else none

/-- The prefix of a hexadecimal number, with something after it. -/
def readBase : List Char → Bool × List Char
  | '0' :: x :: c :: s => if x.toLower = 'x' then (true, c :: s) else (false, '0' :: x :: c :: s)
  | s => (false, s)

def digitOf (hex : Bool) (c : Char) : Option ℕ :=
  if c.isDigit then some (c.toNat - '0'.toNat)
  else if hex ∧ 'a' ≤ c.toLower ∧ c.toLower ≤ 'f' then some (c.toLower.toNat - 'a'.toNat + 10)
  else none

/-- The number that the digits make up without the point, and how many of them come after the point. -/
structure Mantissa where
  value : ℕ
  places : ℕ
  sawDot : Bool
  sawDigits : Bool

def readDigits (hex : Bool) : Mantissa → List Char → Mantissa × List Char
  | m, [] => (m, [])
  | m, c :: s =>
      if c = '_' then readDigits hex m s
      else if c = '.' then if m.sawDot then (m, c :: s) else readDigits hex { m with sawDot := true } s
      else
        match digitOf hex c with
        | none => (m, c :: s)
        | some d =>
            readDigits hex
              { m with
                value := (if hex then 16 else 10) * m.value + d
                places := if m.sawDot then m.places + 1 else m.places
                sawDigits := true } s

/-- The digits of an exponent, which is cut off once it is absurdly large. -/
def readExpDigits : ℕ → List Char → ℕ × List Char
  | e, [] => (e, [])
  | e, c :: s =>
      if c = '_' then readExpDigits e s
      else if c.isDigit then readExpDigits (if e < 10000 then e * 10 + (c.toNat - '0'.toNat) else e) s
      else (e, c :: s)

/-- What is left after the digits: nothing or an exponent, which a hexadecimal number must have. -/
def readExponent (hex : Bool) : List Char → Option ℤ
  | [] => if hex then none else some 0
  | c :: s =>
      if c.toLower = (if hex then 'p' else 'e') then
        match (readSign s).2 with
        | [] => none
        | d :: rest =>
            if d.isDigit ∧ (readExpDigits 0 (d :: rest)).2 = [] then
              some ((if (readSign s).1 then -1 else 1) * (readExpDigits 0 (d :: rest)).1)
            else none
      else none

/-- The last character that `underscoreOK` has seen. -/
inductive Saw where
  | start
  | digit
  | underscore
  | other
  deriving DecidableEq

def underscoreLoop (hex : Bool) : Saw → List Char → Bool
  | saw, [] => saw ≠ .underscore
  | saw, c :: s =>
      if (digitOf hex c).isSome then underscoreLoop hex .digit s
      else if c = '_' then if saw = .digit then underscoreLoop hex .underscore s else false
      else if saw = .underscore then false
      else underscoreLoop hex .other s

/-- Underscores stand between digits only, or between a digit and the prefix of a base. -/
def underscoreOK (s : List Char) : Bool :=
  match (readSign s).2 with
  | '0' :: b :: rest =>
      if b.toLower = 'b' ∨ b.toLower = 'o' ∨ b.toLower = 'x' then underscoreLoop (b.toLower = 'x') .digit rest
      else underscoreLoop false .start ('0' :: b :: rest)
  | rest => underscoreLoop false .start rest

/-- The sign and the magnitude of a number. -/
def readFloat (s : List Char) : Option (Bool × ℚ) :=
  let hex := (readBase (readSign s).2).1
  let (m, rest) := readDigits hex ⟨0, 0, false, false⟩ (readBase (readSign s).2).2
  if m.sawDigits ∧ underscoreOK s then
    (readExponent hex rest).map fun e : ℤ =>
      ((readSign s).1, if hex then m.value * 2 ^ (e - 4 * m.places) else m.value * 10 ^ (e - m.places))
  else none

/-- The double, and whether the error is nil. -/
def parseFloat (s : String) : Float64 × Bool :=
  match special s.toList with
  | some x => (x, true)
  | none =>
      match readFloat s.toList with
      | none => (.zero, false)
      | some (negative, q) => (.round negative q, (Float64.round negative q).isFinite)

/-- The number that a text denotes, if it denotes one. -/
def typed (s : String) : Option ℚ :=
  if (special s.toList).isSome then none else (readFloat s.toList).map fun x => Decimal.signOf x.1 * x.2

/-! ## Numerals are read back -/

variable {d : Decimal} {l rest : List Char} {m : Mantissa} {c : Char}

theorem digit_ne (hc : c.isDigit) : c ≠ '_' ∧ c ≠ '.' ∧ c ≠ '+' ∧ c ≠ '-' := by
  refine ⟨?_, ?_, ?_, ?_⟩
  all_goals
    rintro rfl
    exact absurd hc (by decide)

/-- Digits are taken as they come. -/
theorem readDigits_digits (hl : ∀ c ∈ l, c.isDigit) (hm : m.sawDigits = true ∨ l ≠ []) :
    readDigits false m (l ++ rest) =
      readDigits false
        { m with
          value := Nat.ofDigitChars 10 l m.value
          places := if m.sawDot then m.places + l.length else m.places
          sawDigits := true } rest := by
  induction l generalizing m with
  | nil =>
      have hsaw : m.sawDigits = true := hm.resolve_right fun h => h rfl
      cases m
      simp_all
  | cons c l ih =>
      rw [List.forall_mem_cons] at hl
      obtain ⟨hunderscore, hdot, _⟩ := digit_ne hl.1
      have hdigit : digitOf false c = some (c.toNat - '0'.toNat) := if_pos hl.1
      rw [List.cons_append, readDigits, if_neg hunderscore, if_neg hdot]
      simp only [hdigit]
      rw [ih hl.2 (.inl rfl), Nat.ofDigitChars_cons, List.length_cons]
      cases hdot : m.sawDot with
      | true => simp [Nat.add_assoc, Nat.add_comm 1]
      | false => simp

theorem readDigits_decimal (d : Decimal) :
    readDigits false ⟨0, 0, false, false⟩ (d.whole ++ d.tail) =
      (⟨Nat.ofDigitChars 10 (d.whole ++ d.frac) 0, d.frac.length, d.frac ≠ [], true⟩, []) := by
  rw [readDigits_digits d.whole_digits (.inr d.whole_ne), Decimal.tail]
  by_cases hfrac : d.frac = []
  · simp [hfrac, readDigits]
  · have hdot : readDigits false ⟨Nat.ofDigitChars 10 d.whole 0, 0, false, true⟩ ('.' :: d.frac) =
        readDigits false ⟨Nat.ofDigitChars 10 d.whole 0, 0, true, true⟩ (d.frac ++ []) := by
      rw [readDigits, List.append_nil]
      rfl
    rw [if_neg hfrac]
    simp only [Bool.false_eq_true, if_false]
    rw [hdot, readDigits_digits d.frac_digits (.inl rfl), Nat.ofDigitChars_append]
    simp [hfrac, readDigits]

theorem readSign_chars (d : Decimal) : readSign d.chars = (d.negative, d.whole ++ d.tail) := by
  obtain ⟨c, rest, hd, hc⟩ := d.head_isDigit
  obtain ⟨_, _, hplus, hminus⟩ := digit_ne hc
  rw [Decimal.chars, hd]
  cases d.negative with
  | true => rfl
  | false =>
      change readSign (c :: rest) = _
      unfold readSign
      split
      next h => exact absurd (List.cons.inj h).1 hplus
      next h => exact absurd (List.cons.inj h).1 hminus
      next => rfl

/-- There is no letter in a numeral, and no underscore. -/
theorem chars_plain (d : Decimal) : ∀ c ∈ d.whole ++ d.tail, c.isDigit ∨ c = '.' := by
  intro c hc
  rcases List.mem_append.mp hc with hc | hc
  · exact .inl (d.whole_digits c hc)
  · unfold Decimal.tail at hc
    split at hc
    next => cases hc
    next =>
      rcases List.mem_cons.mp hc with rfl | hc
      · exact .inr rfl
      · exact .inl (d.frac_digits c hc)

theorem plain_le (hc : c.isDigit ∨ c = '.') : c.val.toNat ≤ 57 := by
  rcases hc with hc | rfl
  · simp only [Char.isDigit, Bool.and_eq_true, decide_eq_true_eq, UInt32.le_iff_toNat_le] at hc
    exact hc.2
  · decide

theorem plain_toLower (hc : c.isDigit ∨ c = '.') : c.toLower = c := by
  have hle := plain_le hc
  refine dif_neg fun hupper => ?_
  have hge : 65 ≤ c.val.toNat := UInt32.le_iff_toNat_le.mp hupper.1
  omega

/-- So none of its characters is taken for one of a word or of a prefix. -/
theorem plain_toLower_ne {x : Char} (hc : c.isDigit ∨ c = '.') (hx : x.isLower) : c.toLower ≠ x := by
  have hle := plain_le hc
  rw [plain_toLower hc]
  rintro rfl
  have hge : 97 ≤ c.val.toNat := UInt32.le_iff_toNat_le.mp (decide_eq_true_eq.mp (Bool.and_eq_true_iff.mp hx).1)
  omega

theorem readBase_plain (hl : ∀ c ∈ l, c.isDigit ∨ c = '.') : readBase l = (false, l) := by
  unfold readBase
  split
  next x c s =>
    exact if_neg (plain_toLower_ne (hl x (by simp)) rfl)
  next => rfl

theorem underscoreLoop_plain (hl : ∀ c ∈ l, c.isDigit ∨ c = '.') {saw : Saw} (hsaw : saw ≠ .underscore) :
    underscoreLoop false saw l = true := by
  induction l generalizing saw with
  | nil => simp [underscoreLoop, hsaw]
  | cons c l ih =>
      rw [List.forall_mem_cons] at hl
      rw [underscoreLoop]
      split
      next => exact ih hl.2 nofun
      next hdigit =>
        rcases hl.1 with hc | rfl
        · exact absurd (by simp [digitOf, hc]) hdigit
        · have hunderscore : '.' ≠ '_' := by decide
          rw [if_neg hunderscore]
          exact ih hl.2 nofun

theorem underscoreOK_chars (d : Decimal) : underscoreOK d.chars = true := by
  have hplain := chars_plain d
  unfold underscoreOK
  simp only [readSign_chars]
  split
  next b rest h =>
    rw [h] at hplain
    have hb := hplain b (by simp)
    rw [if_neg]
    · exact underscoreLoop_plain hplain nofun
    rintro (h | h | h)
    · exact plain_toLower_ne hb rfl h
    · exact plain_toLower_ne hb rfl h
    · exact plain_toLower_ne hb rfl h
  next => exact underscoreLoop_plain hplain nofun

theorem special_chars (d : Decimal) : special d.chars = none := by
  obtain ⟨c, rest, hd, hc⟩ := d.head_isDigit
  have hword : ∀ {x : Char} {l : List Char}, x.isLower → (c :: rest).map Char.toLower ≠ x :: l := by
    intro x l hx h
    exact plain_toLower_ne (.inl hc) hx (List.cons.inj h).1
  have hchars : d.chars.map Char.toLower ≠ ['n', 'a', 'n'] := by
    rw [Decimal.chars, hd]
    cases d.negative with
    | true => exact fun h => absurd (List.cons.inj h).1 (by decide)
    | false => exact hword rfl
  unfold special
  simp only [readSign_chars, hd]
  rw [if_neg fun h => h.elim (hword rfl) (hword rfl), if_neg hchars]

/-- The numeral of a number is read as that number. -/
theorem readFloat_chars (d : Decimal) : readFloat d.chars =
    some (d.negative, (Nat.ofDigitChars 10 (d.whole ++ d.frac) 0 : ℚ) / 10 ^ d.frac.length) := by
  unfold readFloat
  simp only [readSign_chars, readBase_plain (chars_plain d), readDigits_decimal, underscoreOK_chars, readExponent,
    Bool.false_eq_true, if_false, and_self, if_true, Option.map_some]
  rw [zero_sub, zpow_neg, zpow_natCast, div_eq_mul_inv]

/-! ## Two places -/

theorem cents_nonneg (m : Magnitude) : 0 ≤ cents m.val := by
  refine le_halfEven ?_
  rw [Int.cast_zero]
  linarith [m.nonneg]

/-- A finite double that is formatted is read as the nearest one to its nearest hundredth. -/
theorem parseFloat_formatFixed2 (negative : Bool) (m : Magnitude) :
    (parseFloat (Float64.formatFixed2 (.finite negative m))).1 = .round negative (cents m.val / 100) := by
  have hcast : (((cents m.val).toNat : ℕ) : ℚ) = cents m.val := by
    exact_mod_cast Int.toNat_of_nonneg (cents_nonneg m)
  have hread := readFloat_chars (Decimal.fixed negative (cents m.val).toNat 2)
  rw [Decimal.ofDigitChars_fixed, Decimal.length_frac_fixed, hcast, show (10 : ℚ) ^ 2 = 100 by norm_num] at hread
  unfold parseFloat Float64.formatFixed2
  simp only [String.toList_ofList, special_chars, hread]
  rfl

theorem readFloat_nonneg {s : List Char} {negative : Bool} {q : ℚ} (h : readFloat s = some (negative, q)) : 0 ≤ q := by
  unfold readFloat at h
  simp only at h
  split at h
  next =>
    obtain ⟨e, _, he⟩ := Option.map_eq_some_iff.mp h
    cases he
    split
    · exact mul_nonneg (Nat.cast_nonneg _) (zpow_nonneg (by norm_num) _)
    · exact mul_nonneg (Nat.cast_nonneg _) (zpow_nonneg (by norm_num) _)
  next => cases h

theorem special_not_finite {s : List Char} {x : Float64} (h : special s = some x) :
    x = .nan ∨ ∃ negative, x = .inf negative := by
  unfold special at h
  simp only at h
  split at h
  next =>
    cases h
    exact .inr ⟨_, rfl⟩
  next =>
    split at h
    next =>
      cases h
      exact .inl rfl
    next => cases h

theorem round_eq_finite_iff {negative : Bool} {q : ℚ} {m : Magnitude} :
    Float64.round negative q = .finite negative m ↔ binary64.nearest |q| = m.val := by
  unfold Float64.round
  split
  next hlt =>
    cases m
    simp
  next hlt =>
    refine ⟨nofun, fun h => absurd m.val_lt ?_⟩
    rwa [← h]

theorem round_of_isFinite {negative : Bool} {q : ℚ} (h : (Float64.round negative q).isFinite = true) :
    ∃ m, Float64.round negative q = .finite negative m ∧ binary64.nearest |q| = m.val := by
  unfold Float64.round at h ⊢
  split at h
  next hlt =>
    rw [dif_pos hlt]
    exact ⟨_, rfl, rfl⟩
  next => cases h

/-- A word for no finite number stays one through `%.2f`. -/
theorem reformatted_special {x : Float64} (hx : x = .nan ∨ ∃ negative, x = .inf negative) :
    (parseFloat x.formatFixed2).1.value = none := by
  rcases hx with rfl | ⟨negative, rfl⟩
  · rfl
  · cases negative <;> rfl

/-- A positive double is read back exactly when the hundredth that stands for it goes back to it. -/
theorem reformatted_finite {m : Magnitude} :
    (parseFloat (Float64.formatFixed2 (.finite false m))).1 = .finite false m ↔
      binary64.nearest (cents m.val / 100) = m.val := by
  have hnonneg : (0 : ℚ) ≤ (cents m.val : ℚ) / 100 := div_nonneg (Int.cast_nonneg (cents_nonneg m)) (by norm_num)
  rw [parseFloat_formatFixed2, round_eq_finite_iff, abs_of_nonneg hnonneg]

/-- The text is a numeral of the positive number `q`, and `m` is the double that is read for it. -/
structure Accepted (s : String) (m : Magnitude) (q : ℚ) : Prop where
  parsed : (parseFloat s).1 = .finite false m
  typed_eq : typed s = some q
  nearest_eq : binary64.nearest q = m.val
  pos : 0 < q
  val_pos : 0 < m.val

/-- A text that `ParseFloat` accepts is a word for no finite number, or the numeral of a positive number. -/
theorem accepted_cases {s : String} (hok : (parseFloat s).2 = true) (hpos : (parseFloat s).1.leZero = false) :
    (typed s = none ∧ ((parseFloat s).1 = .nan ∨ ∃ negative, (parseFloat s).1 = .inf negative)) ∨
      ∃ m q, Accepted s m q := by
  cases hspecial : special s.toList with
  | some x =>
      have hparse : parseFloat s = (x, true) := by simp [parseFloat, hspecial]
      refine .inl ⟨by simp [typed, hspecial], ?_⟩
      rw [hparse]
      exact special_not_finite hspecial
  | none =>
      cases hread : readFloat s.toList with
      | none => simp [parseFloat, hspecial, hread] at hok
      | some found =>
          obtain ⟨negative, q⟩ := found
          have hparse : parseFloat s = (.round negative q, (Float64.round negative q).isFinite) := by
            simp [parseFloat, hspecial, hread]
          rw [hparse] at hok hpos
          obtain ⟨m, hround, hval⟩ := round_of_isFinite hok
          rw [hround] at hpos
          obtain ⟨rfl, hne⟩ : negative = false ∧ m.val ≠ 0 := by simpa [Float64.leZero] using hpos
          have hq := readFloat_nonneg hread
          rw [abs_of_nonneg hq] at hval
          refine .inr ⟨m, q, ?_, ?_, hval, ?_, lt_of_le_of_ne m.nonneg hne.symm⟩
          · rw [hparse, hround]
          · simp [typed, hspecial, hread, Decimal.signOf]
          · refine lt_of_le_of_ne hq fun h => hne ?_
            rw [← hval, ← h, Format.nearest_zero]

/-- What `ParseFloat` accepts as a number above zero is found again after `%.2f` exactly when it is a whole number of
hundredths. -/
theorem reformatted_iff (s : String) (hok : (parseFloat s).2 = true) (hpos : (parseFloat s).1.leZero = false)
    (hfew : ∀ q, typed s = some q → FewDigits q) :
    ((∃ v, (parseFloat (parseFloat s).1.formatFixed2).1.value = some v ∧ 0 < v) ∧
      (parseFloat (parseFloat s).1.formatFixed2).1 = (parseFloat s).1) ↔
      ∃ (q : ℚ) (n : ℤ), typed s = some q ∧ 100 * q = n := by
  rcases accepted_cases hok hpos with ⟨htyped, hword⟩ | ⟨m, q, h⟩
  · rw [reformatted_special hword, htyped]
    simp
  · have hiff := nearest_cents_iff h.pos (hfew q h.typed_eq) (by rw [h.nearest_eq]; exact h.val_pos)
    rw [h.parsed, reformatted_finite, h.typed_eq, ← h.nearest_eq, hiff]
    constructor
    · rintro ⟨_, n, hn⟩
      exact ⟨q, n, rfl, hn⟩
    · rintro ⟨q', n, hq, hn⟩
      cases hq
      refine ⟨⟨m.val, ?_, h.val_pos⟩, n, hn⟩
      have hback : binary64.nearest (cents m.val / 100) = m.val := by
        rw [← h.nearest_eq]
        exact hiff.mpr ⟨n, hn⟩
      rw [reformatted_finite.mpr hback]
      simp [Float64.value, Decimal.signOf]

end Gopkg.Float
