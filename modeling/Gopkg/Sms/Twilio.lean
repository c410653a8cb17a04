import Mathlib.Data.Rat.Init
import Mathlib.Tactic.NormNum
import Gopkg.Go.Map
import Gopkg.Prefix.Longest

/-!
# The price of a message

`CostEstimate` of `communication/sms/twilio/twilio.go`. Prices are in dollars. A string that is compared byte by byte
is compared character by character here.
-/

namespace Gopkg.Sms.Twilio

open Go

/-- The prices by dial codes. The map may be nil, which is not the same as empty. -/
structure Provider where
  countryPricing : Option (Map String ℚ)

def defaultPrices : List (Entry String ℚ) :=
  [⟨"+1", 75 / 10000⟩, ⟨"+44", 4 / 100⟩, ⟨"+49", 65 / 1000⟩, ⟨"+964", 758 / 10000⟩, ⟨"+971", 322 / 10000⟩,
    ⟨"+966", 424 / 10000⟩]

def defaultCountryPricing : Map String ℚ := defaultPrices.toFinmap

def Provider.pricing (p : Provider) : Map String ℚ := p.countryPricing.getD defaultCountryPricing

/-- `len(phoneNumber) > len(code) && phoneNumber[:len(code)] == code` -/
def hasCode (phoneNumber code : String) : Bool :=
  phoneNumber.toList.length > code.toList.length && phoneNumber.toList.take code.toList.length == code.toList

/-- The loop over the map. -/
def estimate (phoneNumber : String) : List (Entry String ℚ) → ℚ × String
  | [] => (5 / 100, "USD")
  | ⟨code, price⟩ :: rest => if hasCode phoneNumber code then (price, "USD") else estimate phoneNumber rest

/-- What `CostEstimate` may return, along with a nil error. -/
inductive CostEstimate (p : Provider) (phoneNumber : String) : ℚ × String → Prop
  | range {order : List (Entry String ℚ)} :
      Iterates p.pricing order → CostEstimate p phoneNumber (estimate phoneNumber order)

variable {p : Provider} {phone code code' : String} {price price' : ℚ} {order : List (Entry String ℚ)}

/-! ## The codes of a number -/

/-- The code is configured with this price, and the number goes on after it. -/
structure Priced (p : Provider) (phone code : String) (price : ℚ) : Prop where
  configured : p.pricing.lookup code = some price
  shorter : code.toList.length < phone.toList.length
  starts : code.toList <+: phone.toList

/-- A configured code that is shorter than the number. -/
def Code (p : Provider) (phone : String) (c : List Char) : Prop :=
  c.length < phone.toList.length ∧ ∃ price, p.pricing.lookup (String.ofList c) = some price

/-- The price of the longest code that the number begins with, or the default if it begins with none. -/
inductive LongestPrice (p : Provider) (phone : String) : ℚ → Prop
  | code {code : String} {price : ℚ} : Prefix.Longest (Code p phone) phone.toList code.toList →
      p.pricing.lookup code = some price → LongestPrice p phone price
  | default : (∀ code price, ¬ Priced p phone code price) → LongestPrice p phone (5 / 100)

theorem Priced.isCode (h : Priced p phone code price) : Code p phone code.toList := by
  refine ⟨h.shorter, price, ?_⟩
  rw [String.ofList_toList]
  exact h.configured

theorem priced_of_longest (h : Prefix.Longest (Code p phone) phone.toList code.toList)
    (hprice : p.pricing.lookup code = some price) : Priced p phone code price :=
  ⟨hprice, h.code.1, h.starts⟩

theorem LongestPrice.unique (h : LongestPrice p phone price) (h' : LongestPrice p phone price') : price = price' := by
  cases h with
  | code hlongest hprice =>
      cases h' with
      | code hlongest' hprice' =>
          rw [String.toList_inj.mp (hlongest.unique hlongest'), hprice'] at hprice
          exact (Option.some.inj hprice).symm
      | default hnone => exact absurd (priced_of_longest hlongest hprice) (hnone _ _)
  | default hnone =>
      cases h' with
      | code hlongest' hprice' => exact absurd (priced_of_longest hlongest' hprice') (hnone _ _)
      | default _ => rfl

theorem hasCode_iff : hasCode phone code = true ↔
    code.toList.length < phone.toList.length ∧ code.toList <+: phone.toList := by
  rw [hasCode, Bool.and_eq_true, decide_eq_true_eq, beq_iff_eq, List.prefix_iff_eq_take, gt_iff_lt]
  exact and_congr_right fun _ => eq_comm

/-! ## The loop -/

theorem estimate_spec (phone : String) (order : List (Entry String ℚ)) :
    (∃ code price, ⟨code, price⟩ ∈ order ∧ hasCode phone code ∧ estimate phone order = (price, "USD")) ∨
      (∀ code price, ⟨code, price⟩ ∈ order → ¬ hasCode phone code) ∧ estimate phone order = (5 / 100, "USD") := by
  induction order with
  | nil => exact .inr ⟨nofun, rfl⟩
  | cons e rest ih =>
      obtain ⟨code, price⟩ := e
      by_cases hcode : hasCode phone code
      · exact .inl ⟨code, price, List.mem_cons_self, hcode, if_pos hcode⟩
      · rw [estimate, if_neg hcode]
        refine ih.imp ?_ ?_
        · rintro ⟨code', price', hmem, hcode', heq⟩
          exact ⟨code', price', List.mem_cons_of_mem _ hmem, hcode', heq⟩
        · rintro ⟨hnone, heq⟩
          refine ⟨fun code' price' hmem => ?_, heq⟩
          rcases List.mem_cons.mp hmem with heq | hmem
          · cases heq
            exact hcode
          · exact hnone code' price' hmem

theorem costEstimate_cases {r : ℚ × String} (h : CostEstimate p phone r) : r.2 = "USD" ∧
    ((∃ code, Priced p phone code r.1) ∨ (∀ code price, ¬ Priced p phone code price) ∧ r.1 = 5 / 100) := by
  cases h with
  | @range order horder =>
      rcases estimate_spec phone order with ⟨code, price, hmem, hcode, heq⟩ | ⟨hnone, heq⟩
      · obtain ⟨hshorter, hstarts⟩ := hasCode_iff.mp hcode
        rw [heq]
        exact ⟨rfl, .inl ⟨code, horder.mem_iff.mp hmem, hshorter, hstarts⟩⟩
      · rw [heq]
        refine ⟨rfl, .inr ⟨fun code price hpriced => ?_, rfl⟩⟩
        exact hnone code price (horder.mem_iff.mpr hpriced.configured) (hasCode_iff.mpr ⟨hpriced.2, hpriced.3⟩)

/-- The price of any code of the number may be returned. -/
theorem costEstimate_of_priced (h : Priced p phone code price) : CostEstimate p phone (price, "USD") := by
  obtain ⟨rest, hrest⟩ := exists_iterates_first h.configured
  have hfirst : estimate phone (⟨code, price⟩ :: rest) = (price, "USD") :=
    if_pos (hasCode_iff.mpr ⟨h.shorter, h.starts⟩)
  rw [← hfirst]
  exact .range hrest

/-- The price of the longest code is returned in every order of the map if and only if all codes that the number begins
with have one price. -/
theorem cost_of_longest_code_iff (p : Provider) (phone : String) :
    (∀ r, CostEstimate p phone r → r.2 = "USD" ∧ LongestPrice p phone r.1) ↔
      ∀ code price code' price', Priced p phone code price → Priced p phone code' price' → price = price' := by
  constructor
  · intro hlongest code price code' price' h h'
    exact (hlongest _ (costEstimate_of_priced h)).2.unique (hlongest _ (costEstimate_of_priced h')).2
  · intro hone r hr
    obtain ⟨husd, ⟨code, hcode⟩ | ⟨hnone, hdefault⟩⟩ := costEstimate_cases hr
    · refine ⟨husd, ?_⟩
      obtain ⟨c, hc⟩ := Prefix.exists_longest hcode.isCode hcode.starts
      obtain ⟨price, hprice⟩ := hc.code.2
      rw [← String.toList_ofList (l := c)] at hc
      rw [hone _ _ _ _ hcode (priced_of_longest hc hprice)]
      exact .code hc hprice
    · rw [hdefault]
      exact ⟨husd, .default hnone⟩

/-- No code of the default prices begins with another one. -/
theorem default_one_price (h : Priced ⟨none⟩ phone code price) (h' : Priced ⟨none⟩ phone code' price') :
    price = price' := by
  have happart : ∀ e ∈ defaultPrices, ∀ e' ∈ defaultPrices, e.1.toList <+: e'.1.toList → e.1 = e'.1 := by
    decide
  have hmem : ∀ {code price}, Priced ⟨none⟩ phone code price → ⟨code, price⟩ ∈ defaultPrices := by
    intro code price h
    exact List.of_mem_dlookup (Finmap.dlookup_list_toFinmap code defaultPrices ▸ h.configured)
  have hsame : code = code' := by
    rcases List.prefix_or_prefix_of_prefix h.starts h'.starts with hle | hle
    · exact happart _ (hmem h) _ (hmem h') hle
    · exact (happart _ (hmem h') _ (hmem h) hle).symm
  have hprice := h.configured
  rw [hsame, h'.configured] at hprice
  exact (Option.some.inj hprice).symm

def bahamasPrices : List (Entry String ℚ) := [⟨"+1", 75 / 10000⟩, ⟨"+1242", 4 / 100⟩]

/-- The Bahamas are dialled through the code of North America. -/
def withBahamas : Provider := ⟨some bahamasPrices.toFinmap⟩

theorem lookup_withBahamas (code : String) : withBahamas.pricing.lookup code = bahamasPrices.dlookup code :=
  Finmap.dlookup_list_toFinmap code bahamasPrices

/-- A number of the Bahamas may be estimated at the price of North America. -/
theorem bahamas_at_other_price : CostEstimate withBahamas "+12425550100" (75 / 10000, "USD") ∧
    LongestPrice withBahamas "+12425550100" (4 / 100) ∧ (75 / 10000 : ℚ) ≠ 4 / 100 := by
  have hone : Priced withBahamas "+12425550100" "+1" (75 / 10000) := ⟨lookup_withBahamas _, by decide, by decide⟩
  have hlongest : Prefix.Longest (Code withBahamas "+12425550100") "+12425550100".toList "+1242".toList := by
    refine ⟨⟨by decide, _, lookup_withBahamas _⟩, by decide, ?_⟩
    rintro c ⟨_, price, hprice⟩ _
    rw [lookup_withBahamas] at hprice
    have hall : ∀ e ∈ bahamasPrices, e.1.toList.length ≤ 5 := by decide
    simpa using hall _ (List.of_mem_dlookup hprice)
  exact ⟨costEstimate_of_priced hone, .code hlongest (lookup_withBahamas _), by norm_num⟩

end Gopkg.Sms.Twilio
