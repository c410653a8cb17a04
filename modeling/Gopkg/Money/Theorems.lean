import Gopkg.Digits.Decimal
import Gopkg.Money.Money
import Gopkg.Word.Exact
import Mathlib.Tactic.NormNum

/-!
# Theorems about money
-/

namespace Gopkg.Money

open Word

variable {u : Stringcase.Unicode} {reg : Registry} {a b m s : Money} {x y : Int64} {k scale : Nat}

/-! ## Sums and differences -/

theorem addOverflows_iff : addOverflows x y = true ↔ ¬ Fits (x.toInt + y.toInt) := by
  have hlo := y.le_toInt
  have hhi := y.toInt_lt
  have hmax : 0 < y.toInt → (Int64.maxValue - y).toInt = 2 ^ 63 - 1 - y.toInt := by
    intro hpos
    rw [toInt_sub_iff.mpr (by rw [Int64.toInt_maxValue, Fits]; omega), Int64.toInt_maxValue]
  have hmin : y.toInt < 0 → (Int64.minValue - y).toInt = -2 ^ 63 - y.toInt := by
    intro hneg
    rw [toInt_sub_iff.mpr (by rw [Int64.toInt_minValue, Fits]; omega), Int64.toInt_minValue]
  simp only [addOverflows, Bool.or_eq_true, Bool.and_eq_true, decide_eq_true_eq, gt_iff_lt, Int64.lt_iff_toInt_lt,
    Int64.toInt_zero, Fits]
  have hx := x.le_toInt
  have hx' := x.toInt_lt
  omega

theorem subOverflows_iff : subOverflows x y = true ↔ ¬ Fits (x.toInt - y.toInt) := by
  have hlo := y.le_toInt
  have hhi := y.toInt_lt
  have hmax : y.toInt < 0 → (Int64.maxValue + y).toInt = 2 ^ 63 - 1 + y.toInt := by
    intro hneg
    rw [toInt_add_iff.mpr (by rw [Int64.toInt_maxValue, Fits]; omega), Int64.toInt_maxValue]
  have hmin : 0 < y.toInt → (Int64.minValue + y).toInt = -2 ^ 63 + y.toInt := by
    intro hpos
    rw [toInt_add_iff.mpr (by rw [Int64.toInt_minValue, Fits]; omega), Int64.toInt_minValue]
  simp only [subOverflows, Bool.or_eq_true, Bool.and_eq_true, decide_eq_true_eq, gt_iff_lt, Int64.lt_iff_toInt_lt,
    Int64.toInt_zero, Fits]
  have hx := x.le_toInt
  have hx' := x.toInt_lt
  omega

/-- The exact amount, or an overflow where no word holds it. -/
def ExactOrOverflow (r : Except Err Money) (n : Int) (c : Currency) : Prop :=
  (r = .error .overflow ↔ ¬ Fits n) ∧ (Fits n → ∃ m, r = .ok m ∧ m.minor.toInt = n ∧ m.currency = c)

/-- A mismatch of currencies that are not the same in capitals, or else the exact amount in the first one. -/
def ExactOrRefused (u : Stringcase.Unicode) (a b : Money) (r : Except Err Money) (n : Int) : Prop :=
  ((∃ c other, r = .error (.currencyMismatch c other)) ↔
      a.currency.toList.map u.toUpper ≠ b.currency.toList.map u.toUpper) ∧
    (a.currency.toList.map u.toUpper = b.currency.toList.map u.toUpper → ExactOrOverflow r n a.currency)

theorem code_inj {c c' : Currency} : c.code u = c'.code u ↔ c.toList.map u.toUpper = c'.toList.map u.toUpper :=
  String.ofList_inj

theorem exactOrRefused_iff {r : Except Err Money} {n : Int} : ExactOrRefused u a b r n ↔
    ((∃ c other, r = .error (.currencyMismatch c other)) ↔ a.currency.code u ≠ b.currency.code u) ∧
      (a.currency.code u = b.currency.code u → ExactOrOverflow r n a.currency) := by
  simp only [ExactOrRefused, Ne, code_inj]

theorem exactOrOverflow_ok {n : Int} {c : Currency} (hfits : Fits n) (hx : x.toInt = n) :
    ExactOrOverflow (.ok ⟨x, c⟩) n c :=
  ⟨⟨nofun, fun h => absurd hfits h⟩, fun _ => ⟨_, rfl, hx, rfl⟩⟩

theorem exactOrOverflow_overflow {n : Int} {c : Currency} (hfits : ¬ Fits n) :
    ExactOrOverflow (.error .overflow) n c :=
  ⟨⟨fun _ => hfits, fun _ => rfl⟩, fun h => absurd h hfits⟩

theorem checked_spec {overflows : Bool} {n : Int} (hover : overflows = true ↔ ¬ Fits n) (hx : Fits n → x.toInt = n) :
    ExactOrRefused u a b (a.checked u b overflows x) n := by
  rw [exactOrRefused_iff]
  unfold checked sameCurrency
  by_cases hcode : a.currency.code u = b.currency.code u
  · rw [if_neg (not_not.mpr hcode)]
    refine ⟨⟨?_, absurd hcode⟩, fun _ => ?_⟩
    · rintro ⟨c, other, h⟩
      cases overflows <;> cases h
    · cases overflows with
      | true => exact exactOrOverflow_overflow (hover.mp rfl)
      | false =>
          have hfits : Fits n := not_not.mp fun h => nomatch hover.mpr h
          exact exactOrOverflow_ok hfits (hx hfits)
  · rw [if_pos hcode]
    exact ⟨⟨fun _ => hcode, fun _ => ⟨_, _, rfl⟩⟩, fun h => absurd h hcode⟩

theorem add_spec (u : Stringcase.Unicode) (a b : Money) :
    ExactOrRefused u a b (a.add u b) (a.minor.toInt + b.minor.toInt) :=
  checked_spec addOverflows_iff toInt_add_iff.mpr

theorem sub_spec (u : Stringcase.Unicode) (a b : Money) :
    ExactOrRefused u a b (a.sub u b) (a.minor.toInt - b.minor.toInt) :=
  checked_spec subOverflows_iff toInt_sub_iff.mpr

/-- What a sum or a difference that was not refused is. -/
theorem ExactOrRefused.ok {r : Except Err Money} {n : Int} (h : ExactOrRefused u a b r n) (hr : r = .ok s) :
    a.currency.code u = b.currency.code u ∧ s.minor.toInt = n ∧ s.currency = a.currency := by
  rw [exactOrRefused_iff] at h
  have hcode : a.currency.code u = b.currency.code u := by
    by_contra hne
    obtain ⟨c, other, herr⟩ := h.1.mpr hne
    cases hr.symm.trans herr
  obtain ⟨hover, hexact⟩ := h.2 hcode
  have hfits : Fits n := by
    by_contra hnot
    cases hr.symm.trans (hover.mpr hnot)
  obtain ⟨m, hm, hminor, hcurrency⟩ := hexact hfits
  cases hr.symm.trans hm
  exact ⟨hcode, hminor, hcurrency⟩

theorem ExactOrRefused.succeeds {r : Except Err Money} {n : Int} (h : ExactOrRefused u a b r n)
    (hcode : a.currency.code u = b.currency.code u) (hn : n = x.toInt) :
    r = .ok ⟨x, a.currency⟩ := by
  rw [exactOrRefused_iff] at h
  obtain ⟨m, hm, hminor, hcurrency⟩ := (h.2 hcode).2 (hn ▸ fits_toInt x)
  rw [hm]
  exact congrArg _ (Money.ext (Int64.toInt_inj.mp (hminor.trans hn)) hcurrency)

/-- Sums and differences are exact or refused, and so a sum can be taken back and turned round. -/
theorem add_sub_exact (u : Stringcase.Unicode) :
    (∀ a b : Money, ExactOrRefused u a b (a.add u b) (a.minor.toInt + b.minor.toInt)) ∧
      (∀ a b : Money, ExactOrRefused u a b (a.sub u b) (a.minor.toInt - b.minor.toInt)) ∧
      ∀ a b s : Money, a.add u b = .ok s →
        (∃ d, s.sub u b = .ok d ∧ d.equal u a) ∧ ∃ t, b.add u a = .ok t ∧ t.equal u s := by
  refine ⟨add_spec u, sub_spec u, fun a b s hs => ?_⟩
  obtain ⟨hcode, hminor, hcurrency⟩ := (add_spec u a b).ok hs
  have hdifference : s.minor.toInt - b.minor.toInt = a.minor.toInt := by omega
  have hsum : b.minor.toInt + a.minor.toInt = s.minor.toInt := by omega
  refine ⟨⟨_, (sub_spec u s b).succeeds (hcurrency ▸ hcode) hdifference, ?_⟩,
    _, (add_spec u b a).succeeds hcode.symm hsum, ?_⟩
  · simp [equal, hcurrency]
  · simp [equal, hcurrency, hcode]

theorem cmp_spec (u : Stringcase.Unicode) (a b : Money) : a.cmp u b =
    if a.currency.code u = b.currency.code u then .ok (a.minor.toInt - b.minor.toInt).sign
    else .error (.currencyMismatch a.currency b.currency) := by
  unfold cmp sameCurrency
  simp only [gt_iff_lt, Int64.lt_iff_toInt_lt]
  by_cases hcode : a.currency.code u = b.currency.code u
  · rw [if_neg (not_not.mpr hcode), if_pos hcode]
    refine congrArg Except.ok ?_
    rcases Int.lt_trichotomy a.minor.toInt b.minor.toInt with h | h | h
    · rw [if_pos h, Int.sign_eq_neg_one_of_neg (by omega)]
    · rw [if_neg (by omega), if_neg (by omega), h, Int.sub_self, Int.sign_zero]
    · rw [if_neg (by omega), if_pos h, Int.sign_eq_one_of_pos (by omega)]
  · rw [if_pos hcode, if_neg hcode]
    rfl

/-! ## Products -/

/-- An amount of zero passes the check too. -/
theorem mulInt_eq (m : Money) (factor : Int64) : m.mulInt factor =
    if factor ≠ 0 ∧ m.minor * factor / factor ≠ m.minor then .error .overflow
    else .ok ⟨m.minor * factor, m.currency⟩ := by
  unfold mulInt
  by_cases hfactor : factor = 0
  · rw [if_pos hfactor, if_neg fun h => h.1 hfactor, hfactor, Int64.mul_zero]
  · rw [if_neg hfactor]
    by_cases hminor : m.minor = 0
    · have hzero : m.minor * factor / factor = m.minor := by rw [hminor, Int64.zero_mul, Int64.zero_div]
      rw [if_neg fun h => h.1 hminor, if_neg fun h => h.2 hzero]
    · simp only [ne_eq, hminor, hfactor, not_false_eq_true, true_and]

/-- A product is exact or refused, but for the smallest amount times `-1`. -/
theorem mulInt_exact_iff (m : Money) (factor : Int64) :
    ExactOrOverflow (m.mulInt factor) (m.minor.toInt * factor.toInt) m.currency ↔
      ¬ (m.minor = Int64.minValue ∧ factor = -1) := by
  rw [mulInt_eq]
  constructor
  · rintro hexact ⟨hminor, rfl⟩
    rw [hminor] at hexact
    rw [if_neg (by decide)] at hexact
    exact nomatch hexact.1.mpr (by decide)
  · intro hmin
    by_cases hfits : Fits (m.minor.toInt * factor.toInt)
    · rw [if_neg fun h => h.2 ((mul_div_eq_iff h.1).mpr (.inl hfits))]
      exact exactOrOverflow_ok hfits (toInt_mul_iff.mpr hfits)
    · have hfactor : factor ≠ 0 := by
        rintro rfl
        rw [Int64.toInt_zero, Int.mul_zero] at hfits
        exact hfits (by decide)
      rw [if_pos ⟨hfactor, fun h => ((mul_div_eq_iff hfactor).mp h).elim hfits hmin⟩]
      exact exactOrOverflow_overflow hfits

theorem mulInt_wraps :
    (Money.mulInt ⟨Int64.minValue, "USD"⟩ (-1) = .ok ⟨Int64.minValue, "USD"⟩) ∧
      ¬ Fits (Int64.minValue.toInt * (-1 : Int64).toInt) := by
  decide

/-! ## Opposites and quotients -/

/-- The quotient rounded toward zero, by its remainder. -/
def TruncatedQuotient (n d q : Int) : Prop := ∃ r : Int, q * d + r = n ∧ r.natAbs < d.natAbs ∧ 0 ≤ r * n

theorem truncatedQuotient_tdiv {n d : Int} (hd : d ≠ 0) : TruncatedQuotient n d (n.tdiv d) := by
  refine ⟨n.tmod d, Int.tdiv_mul_add_tmod n d, ?_, ?_⟩
  · rw [Int.natAbs_tmod]
    exact Nat.mod_lt _ (Int.natAbs_pos.mpr hd)
  · rcases Int.le_total 0 n with hn | hn
    · exact Int.mul_nonneg (Int.tmod_nonneg d hn) hn
    · have hneg := Int.tmod_nonneg d (Int.neg_nonneg_of_nonpos hn)
      rw [Int.neg_tmod] at hneg
      exact Int.mul_nonneg_of_nonpos_of_nonpos (Int.nonpos_of_neg_nonneg hneg) hn

theorem add_negate_iff (u : Stringcase.Unicode) (m : Money) :
    (∃ z, m.add u m.negate = .ok z ∧ z.minor = 0) ↔ m.minor ≠ Int64.minValue := by
  rw [← toInt_neg_iff]
  constructor
  · rintro ⟨z, hz, hzero⟩
    obtain ⟨_, hsum, _⟩ := (add_spec u m m.negate).ok hz
    rw [hzero, Int64.toInt_zero] at hsum
    change 0 = m.minor.toInt + (-m.minor).toInt at hsum
    omega
  · intro hneg
    refine ⟨⟨0, m.currency⟩, (add_spec u m m.negate).succeeds rfl ?_, rfl⟩
    change m.minor.toInt + (-m.minor).toInt = (0 : Int64).toInt
    rw [hneg, Int64.toInt_zero]
    omega

theorem divInt_iff (m : Money) (d : Int64) :
    (∀ q, m.divInt d = .ok q → TruncatedQuotient m.minor.toInt d.toInt q.minor.toInt) ↔
      ¬ (m.minor = Int64.minValue ∧ d = -1) := by
  unfold divInt
  constructor
  · rintro hexact ⟨hminor, rfl⟩
    rw [hminor] at hexact
    obtain ⟨r, hsum, hlt, _⟩ := hexact ⟨Int64.minValue, m.currency⟩ rfl
    rw [Int64.toInt_minValue, show (-1 : Int64).toInt = -1 from rfl] at hsum
    rw [show (-1 : Int64).toInt = -1 from rfl] at hlt
    omega
  · intro hmin q hq
    split at hq
    next => cases hq
    next hd =>
      cases hq
      rw [toInt_div_iff.mpr hmin]
      exact truncatedQuotient_tdiv (ne_zero_iff.mp hd)

/-- An amount and its opposite cancel, but for the smallest amount. Quotients are exact but for the smallest amount by
`-1`. -/
theorem negate_divInt_exact_iff (u : Stringcase.Unicode) (m : Money) :
    ((∃ z, m.add u m.negate = .ok z ∧ z.minor = 0) ↔ m.minor ≠ Int64.minValue) ∧
      ∀ d : Int64, (∀ q, m.divInt d = .ok q → TruncatedQuotient m.minor.toInt d.toInt q.minor.toInt) ↔
        ¬ (m.minor = Int64.minValue ∧ d = -1) :=
  ⟨add_negate_iff u m, divInt_iff m⟩

/-- The smallest amount is its own opposite, and its own quotient by `-1`. -/
theorem negate_divInt_wrap :
    Money.add .asciiOnly ⟨Int64.minValue, "USD"⟩ (negate ⟨Int64.minValue, "USD"⟩) = .error .overflow ∧
      Money.divInt ⟨Int64.minValue, "USD"⟩ (-1) = .ok ⟨Int64.minValue, "USD"⟩ := by
  decide

/-! ## Texts -/

open Digits

theorem toList_formatInt (hx : x.toInt = k) : (formatInt x).toList = Nat.toDigits 10 k := by
  rw [formatInt, hx]
  change (toString k).toList = _
  rw [Nat.toString_eq_ofList_toDigits, String.toList_ofList]

theorem toList_formatInt_neg (hx : x.toInt < 0) : ∃ l, (formatInt x).toList = '-' :: l := by
  rw [formatInt]
  cases hn : x.toInt with
  | ofNat n =>
      rw [hn] at hx
      exact absurd hx (Int.not_lt.mpr (Int.natCast_nonneg n))
  | negSucc n => exact ⟨(Nat.repr (n + 1)).toList, String.toList_append⟩

theorem toInt_pow10 (hscale : scale ≤ 8) : (Int64.ofNat (10 ^ scale)).toInt = (10 ^ scale : Nat) := by
  refine Int64.toInt_ofNat_of_lt (Nat.lt_of_le_of_lt (Nat.pow_le_pow_right (by decide) hscale) (by decide))

theorem toInt_magnitude (hx : x ≠ Int64.minValue) : (if x < 0 then -x else x).toInt = x.toInt.natAbs := by
  split
  next hneg =>
    rw [Int64.lt_iff_toInt_lt, Int64.toInt_zero] at hneg
    rw [toInt_neg_iff.mpr hx]
    omega
  next hneg =>
    rw [Int64.lt_iff_toInt_lt, Int64.toInt_zero] at hneg
    omega

/-- The digits after the point are as many as the scale. -/
theorem toList_fracStr (hscale : scale ≠ 0) (hx : x.toInt = (k % 10 ^ scale : Nat)) :
    (fracStr x scale).toList = Decimal.places k scale := by
  have hdigits := toList_formatInt hx
  have hlength : (formatInt x).length = (Nat.toDigits 10 (k % 10 ^ scale)).length := by
    rw [← String.length_toList, hdigits]
  rw [Decimal.places, if_neg hscale, List.leftpad, fracStr]
  simp only [hlength]
  split
  next => rw [String.toList_append, String.toList_ofList, hdigits]
  next h =>
    rw [Nat.sub_eq_zero_of_le (Nat.not_lt.mp h), hdigits]
    rfl

/-- The text is a numeral with `scale` places for the number, and then the code. -/
def Denotes (text : String) (scale : Nat) (code : String) (q : ℚ) : Prop :=
  ∃ d : Decimal, text.toList = d.chars ++ ' ' :: code.toList ∧ d.frac.length = scale ∧ d.value = q

section Registered

variable {c : Currency} (hscale : Money.scale u reg c = .ok scale)

include hscale

theorem scale_le_eight : scale ≤ 8 := by
  unfold Money.scale at hscale
  split at hscale
  next => cases hscale
  next h =>
    cases hscale
    exact reg.scale_le _ _ h

theorem toList_string (hx : x ≠ Int64.minValue) : (string u reg ⟨x, c⟩).toList =
    (Decimal.fixed (x < 0) x.toInt.natAbs scale).chars ++ ' ' :: (c.code u).toList := by
  have hmagnitude := toInt_magnitude hx
  have hpow := toInt_pow10 (scale_le_eight hscale)
  have hsign : (if x < 0 then "-" else "").toList = Decimal.signChars (x < 0) := by
    by_cases h : x < 0
    · rw [if_pos h, decide_eq_true h]
      rfl
    · rw [if_neg h, decide_eq_false h]
      rfl
  simp only [string, hscale]
  generalize (if x < 0 then -x else x) = y at hmagnitude ⊢
  by_cases hzero : scale = 0
  · subst hzero
    rw [if_pos rfl, Decimal.chars_fixed, if_pos rfl, Nat.pow_zero, Nat.div_one]
    simp only [String.toList_append, hsign, toList_formatInt hmagnitude, List.append_assoc, List.append_nil]
    rfl
  · have hdivisor : Int64.ofNat (10 ^ scale) ≠ -1 := by
      rw [Ne, eq_neg_one_iff, hpow]
      exact fun h => absurd (h ▸ Int.natCast_nonneg (10 ^ scale)) (by decide)
    have hwhole : (y / Int64.ofNat (10 ^ scale)).toInt = (x.toInt.natAbs / 10 ^ scale : Nat) := by
      rw [toInt_div_iff.mpr fun h => hdivisor h.2, hmagnitude, hpow]
      rfl
    have hfrac : (y % Int64.ofNat (10 ^ scale)).toInt = (x.toInt.natAbs % 10 ^ scale : Nat) := by
      rw [Int64.toInt_mod, hmagnitude, hpow]
      rfl
    rw [if_neg hzero, Decimal.chars_fixed, if_neg hzero]
    simp only [String.toList_append, hsign, toList_formatInt hwhole, toList_fracStr hzero hfrac, List.append_assoc]
    rfl

theorem toList_string_minValue : ∃ l, (string u reg ⟨Int64.minValue, c⟩).toList = '-' :: '-' :: l := by
  simp only [string, hscale, show Int64.minValue < 0 by decide, if_true, neg_minValue]
  split
  · obtain ⟨l, hl⟩ := toList_formatInt_neg (x := Int64.minValue) (by decide)
    simp only [String.toList_append, hl]
    exact ⟨_, rfl⟩
  · have hwhole : ∀ n ≤ 8, (Int64.minValue / Int64.ofNat (10 ^ n)).toInt < 0 := by decide
    obtain ⟨l, hl⟩ := toList_formatInt_neg (hwhole scale (scale_le_eight hscale))
    simp only [String.toList_append, hl]
    exact ⟨_, rfl⟩

theorem string_denotes (hx : x ≠ Int64.minValue) :
    Denotes (string u reg ⟨x, c⟩) scale (c.code u) (x.toInt / 10 ^ scale) := by
  refine ⟨_, toList_string hscale hx, Decimal.length_places, ?_⟩
  rw [Decimal.value_fixed, ← mul_div_assoc, decide_eq_decide.mpr lt_zero_iff, Decimal.signOf_mul_natAbs]

/-- The text of the smallest amount has two signs. -/
theorem not_denotes_minValue {q : ℚ} : ¬ Denotes (string u reg ⟨Int64.minValue, c⟩) scale (c.code u) q := by
  rintro ⟨d, htext, _⟩
  obtain ⟨l, hl⟩ := toList_string_minValue hscale
  exact d.append_ne_sign_sign (htext.symm.trans hl)

end Registered

theorem denotes_unique {text text' code : String} {q q' : ℚ} (h : Denotes text scale code q)
    (h' : Denotes text' scale code q') (htext : text = text') : q = q' := by
  obtain ⟨d, hd, _, rfl⟩ := h
  obtain ⟨d', hd', _, rfl⟩ := h'
  rw [htext, hd', List.append_cancel_right_eq] at hd
  rw [Decimal.chars_injective hd]

/-- The text of an amount of a registered currency is its numeral, but for the smallest amount. No two amounts have the
same text. -/
theorem string_denotes_iff (u : Stringcase.Unicode) (reg : Registry) (c : Currency) (scale : Nat)
    (hscale : Money.scale u reg c = .ok scale) :
    (∀ x : Int64, Denotes (string u reg ⟨x, c⟩) scale (c.code u) (x.toInt / 10 ^ scale) ↔ x ≠ Int64.minValue) ∧
      ∀ x y : Int64, string u reg ⟨x, c⟩ = string u reg ⟨y, c⟩ → x = y := by
  refine ⟨fun x => ⟨?_, string_denotes hscale⟩, fun x y htext => ?_⟩
  · rintro hdenotes rfl
    exact not_denotes_minValue hscale hdenotes
  · by_cases hx : x = Int64.minValue
    · by_cases hy : y = Int64.minValue
      · rw [hx, hy]
      · have hdenotes := string_denotes hscale hy
        rw [← htext, hx] at hdenotes
        exact absurd hdenotes (not_denotes_minValue hscale)
    · by_cases hy : y = Int64.minValue
      · have hdenotes := string_denotes hscale hx
        rw [htext, hy] at hdenotes
        exact absurd hdenotes (not_denotes_minValue hscale)
      · have hq := denotes_unique (string_denotes hscale hx) (string_denotes hscale hy) htext
        have hpow : (10 ^ scale : ℚ) ≠ 0 := pow_ne_zero scale (by norm_num)
        rw [div_left_inj' hpow, Int.cast_inj] at hq
        exact Int64.toInt_inj.mp hq

theorem string_denotes_iff_usd : Denotes (string .asciiOnly registry ⟨-5, "usd"⟩) 2 "USD" (-5 / 10 ^ 2) := by
  have hscale : Money.scale .asciiOnly registry "usd" = .ok 2 := by decide
  exact ((string_denotes_iff .asciiOnly registry "usd" 2 hscale).1 (-5)).mpr (by decide)

/-- The smallest amount of dollars. -/
theorem string_minValue :
    string .asciiOnly registry ⟨Int64.minValue, "USD"⟩ = "--92233720368547758.-8 USD" ∧
      ∀ q, ¬ Denotes (string .asciiOnly registry ⟨Int64.minValue, "USD"⟩) 2 "USD" q := by
  have hscale : Money.scale .asciiOnly registry "USD" = .ok 2 := by decide
  exact ⟨by decide, fun _ => not_denotes_minValue hscale⟩

end Gopkg.Money
