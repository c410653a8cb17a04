import Gopkg.Prefix.Longest
import Gopkg.Router.SmsRouter

/-!
# Theorems about SMS routing
-/

namespace Gopkg.Router

open Sorting

variable {r r' : SMSRouter} {rules rules' : List SMSRoutingRule} {rule : SMSRoutingRule} {country : String}
  {p : Provider}

/-! ## The order of the rules -/

/-- Every country has its rules in the order of their priority, as they were inserted where that is the same. -/
def Routed (rules : List SMSRoutingRule) (r : SMSRouter) : Prop :=
  ∀ country, StableSorted (·.providerPriority) (rulesFor country rules) (r.routes country)

@[simp] theorem rulesFor_append :
    rulesFor country (rules ++ rules') = rulesFor country rules ++ rulesFor country rules' :=
  List.filter_append ..

theorem appendRule_eq (routes : String → List SMSRoutingRule) (rule : SMSRoutingRule) (country : String) :
    appendRule routes rule country = routes country ++ rulesFor country [rule] := by
  by_cases h : rule.countryCode = country
  · subst h
    simp [appendRule, rulesFor]
  · simp [appendRule, rulesFor, h, Function.update_of_ne (Ne.symm h)]

theorem Routed.empty : Routed [] { r with routes := fun _ => [] } :=
  fun _ => .nil

theorem Routed.loadRoutes (r : SMSRouter) (rules : List SMSRoutingRule) :
    Routed (rules.filter (·.isActive)) (r.loadRoutes rules) := by
  intro country
  have hloaded : ∀ m : String → List SMSRoutingRule,
      rules.foldl (fun m route => if !route.isActive then m else appendRule m route) m country =
        m country ++ rulesFor country (rules.filter (·.isActive)) := by
    induction rules with
    | nil => simp [rulesFor]
    | cons rule rules ih =>
        intro m
        rw [List.foldl_cons, ih]
        cases h : rule.isActive with
        | false => simp [h]
        | true =>
            have hcons : rulesFor country ((rule :: rules).filter (·.isActive)) =
                rulesFor country [rule] ++ rulesFor country (rules.filter (·.isActive)) := by
              rw [← rulesFor_append]
              simp [h]
            rw [hcons, ← List.append_assoc, ← appendRule_eq]
            simp
  simp only [SMSRouter.loadRoutes, hloaded, List.nil_append]
  exact exchangeSort_stable ..

theorem Routed.addRoute (h : Routed rules r) (rule : SMSRoutingRule) : Routed (rules ++ [rule]) (r.addRoute rule) := by
  intro country
  rw [rulesFor_append]
  by_cases hc : country = rule.countryCode
  · subst hc
    simp only [SMSRouter.addRoute, Function.update_self, appendRule_eq]
    exact (h rule.countryCode).append_of_sorted (exchangeSort_stable ..)
  · have hnone : rulesFor country [rule] = [] := by simp [rulesFor, Ne.symm hc]
    simp only [SMSRouter.addRoute, Function.update_of_ne hc, appendRule_eq, hnone, List.append_nil]
    exact h country

theorem Routed.addRoutes (h : Routed rules r) (rules' : List SMSRoutingRule) :
    Routed (rules ++ rules') (rules'.foldl SMSRouter.addRoute r) := by
  induction rules' generalizing rules r with
  | nil => simpa using h
  | cons rule rules' ih =>
      have hadd := ih (h.addRoute rule)
      rwa [List.append_assoc] at hadd

theorem Routed.unique (h : Routed rules r) (h' : Routed rules r') : r.routes = r'.routes :=
  funext fun country => (h country).unique (h' country)

theorem Routed.apply (h : Routed rules r) (op : Op) : Routed (op.insert rules) (r.apply op) := by
  cases op with
  | loadRoutes routes => exact .loadRoutes r routes
  | addRoute rule => exact h.addRoute rule
  | setDefaultRoute rule => exact h

theorem Routed.run (registry : Option ProviderLookup) (ops : List Op) :
    Routed (inserted ops) ((newSMSRouter registry).run ops) := by
  have hrun : ∀ {rules r}, Routed rules r → Routed (ops.foldl Op.insert rules) (r.run ops) := by
    induction ops with
    | nil => exact fun h => h
    | cons op ops ih => exact fun h => ih (h.apply op)
  exact hrun fun _ => .nil

/-! ## The choice of a provider -/

theorem lookupSMS_eq_some {code : String} : r.lookupSMS code = some p ↔
    ∃ get, r.registry = some get ∧ get code = some p ∧ p.isSMS = true := by
  unfold SMSRouter.lookupSMS
  cases r.registry with
  | none => simp
  | some get =>
      cases hget : get code with
      | none => simp [hget]
      | some q =>
          simp only [Option.ite_none_right_eq_some, Option.some.injEq, exists_eq_left', hget]
          exact ⟨fun ⟨hsms, heq⟩ => ⟨heq, heq ▸ hsms⟩, fun ⟨heq, hsms⟩ => ⟨heq ▸ hsms, heq⟩⟩

theorem enabledSMS_eq_some {code : String} : r.enabledSMS code = some p ↔ r.Resolves code p := by
  rw [SMSRouter.enabledSMS, Option.filter_eq_some_iff, lookupSMS_eq_some]
  constructor
  · rintro ⟨⟨get, hget, hp, hsms⟩, henabled⟩
    exact ⟨get, hget, hp, hsms, henabled⟩
  · rintro ⟨get, hget, hp, hsms, henabled⟩
    exact ⟨⟨get, hget, hp, hsms⟩, henabled⟩

theorem enabledSMS_eq_none {code : String} : r.enabledSMS code = none ↔ ∀ p, ¬ r.Resolves code p := by
  simp [Option.eq_none_iff_forall_ne_some, enabledSMS_eq_some]

/-- The provider a rule gives. -/
def SMSRouter.serve (r : SMSRouter) (rule : SMSRoutingRule) : Option Provider :=
  if rule.isActive then r.enabledSMS rule.providerCode else none

theorem serve_eq_some : r.serve rule = some p ↔ r.Serves rule p := by
  simp [SMSRouter.serve, SMSRouter.Serves, enabledSMS_eq_some]

theorem serve_eq_none : r.serve rule = none ↔ ∀ p, ¬ r.Serves rule p := by
  simp [Option.eq_none_iff_forall_ne_some, serve_eq_some]

theorem firstEnabled_eq_findSome (r : SMSRouter) (rules : List SMSRoutingRule) :
    r.firstEnabled rules = rules.findSome? r.serve := by
  induction rules with
  | nil => rfl
  | cons rule rules ih =>
      rw [SMSRouter.firstEnabled, List.findSome?_cons, ← ih, SMSRouter.serve]
      cases rule.isActive with
      | false => rfl
      | true => cases r.enabledSMS rule.providerCode <;> rfl

theorem firstEnabled_eq_some : r.firstEnabled rules = some p ↔ ∃ pre rule post,
    rules = pre ++ rule :: post ∧ r.Serves rule p ∧ ∀ rule' ∈ pre, ∀ p', ¬ r.Serves rule' p' := by
  simp only [firstEnabled_eq_findSome, List.findSome?_eq_some_iff, serve_eq_some, serve_eq_none]

theorem firstEnabled_eq_none : r.firstEnabled rules = none ↔ ∀ rule ∈ rules, ∀ p, ¬ r.Serves rule p := by
  simp only [firstEnabled_eq_findSome, List.findSome?_eq_none_iff, serve_eq_none]

/-- The default route is only asked when no rule of the country gives a provider. -/
theorem getProviderForNumber_eq (r : SMSRouter) (phone : String) : r.getProviderForNumber phone =
    (extractCountryCode phone,
      match (r.firstEnabled (r.routes (extractCountryCode phone))).or (r.enabledSMS r.defaultRoute.providerCode) with
      | some sms => .ok sms
      | none => .error s!"no SMS provider available for country {extractCountryCode phone}") := by
  unfold SMSRouter.getProviderForNumber
  cases hrules : r.firstEnabled (r.routes (extractCountryCode phone)) with
  | some sms => simp [hrules]
  | none => cases r.enabledSMS r.defaultRoute.providerCode <;> simp [hrules]

/-- Routes loaded at once are those of their active rules added one by one. The rules of a country are a permutation of
those inserted for it, sorted by priority, and those of one priority stand as they were inserted. The provider of a
number is that of the first rule of its country to give one, then that of the default route, and there is an error when
neither is. -/
theorem routing_is_stable_priority_order (registry : Option ProviderLookup) (ops : List Op) :
    let r := (newSMSRouter registry).run ops
    (∀ rules, (r.loadRoutes rules).routes =
      ((rules.filter (·.isActive)).foldl SMSRouter.addRoute { r with routes := fun _ => [] }).routes) ∧
    (∀ country,
      (r.routes country).Perm (rulesFor country (inserted ops)) ∧
      (r.routes country).Pairwise (fun a b => a.providerPriority ≤ b.providerPriority) ∧
      ∀ k, (r.routes country).filter (fun rule => rule.providerPriority = k) =
        (rulesFor country (inserted ops)).filter fun rule => rule.providerPriority = k) ∧
    ∀ phone,
      (r.getProviderForNumber phone).1 = extractCountryCode phone ∧
      (∀ p, (r.getProviderForNumber phone).2 = .ok p ↔
        (∃ pre rule post, r.routes (extractCountryCode phone) = pre ++ rule :: post ∧ r.Serves rule p ∧
          ∀ rule' ∈ pre, ∀ p', ¬ r.Serves rule' p') ∨
        (∀ rule ∈ r.routes (extractCountryCode phone), ∀ p', ¬ r.Serves rule p') ∧
          r.Resolves r.defaultRoute.providerCode p) ∧
      ((∃ err, (r.getProviderForNumber phone).2 = .error err) ↔
        (∀ rule ∈ r.routes (extractCountryCode phone), ∀ p', ¬ r.Serves rule p') ∧
          ∀ p', ¬ r.Resolves r.defaultRoute.providerCode p') := by
  intro r
  have hrouted : Routed (inserted ops) r := .run registry ops
  refine ⟨?_, ?_, ?_⟩
  · intro rules
    exact (Routed.loadRoutes r rules).unique (Routed.empty.addRoutes _)
  · intro country
    exact ⟨(hrouted country).perm, (hrouted country).sorted, (hrouted country).stable⟩
  · intro phone
    rw [getProviderForNumber_eq]
    refine ⟨rfl, ?_, ?_⟩
    · intro p
      rw [← firstEnabled_eq_some, ← firstEnabled_eq_none, ← enabledSMS_eq_some, ← Option.or_eq_some_iff]
      cases (r.firstEnabled (r.routes (extractCountryCode phone))).or (r.enabledSMS r.defaultRoute.providerCode)
      all_goals simp
    · rw [← firstEnabled_eq_none, ← enabledSMS_eq_none, ← Option.or_eq_none_iff]
      cases (r.firstEnabled (r.routes (extractCountryCode phone))).or (r.enabledSMS r.defaultRoute.providerCode)
      all_goals simp

/-! ## Country codes -/

/-- The digits and the plus signs of a number. -/
def digitsAndPlus (phoneNumber : String) : List Char :=
  phoneNumber.toList.filter fun c => ('0' ≤ c && c ≤ '9') || c == '+'

/-- A code of the table, with its plus sign. -/
def KnownCode (c : List Char) : Prop := ∃ code ∈ countryCodes, c = '+' :: code.toList

theorem length_countryCodes : ∀ code ∈ countryCodes, code.toList.length ∈ [3, 2, 1] := by
  decide

theorem knownCode_cons {c : List Char} : KnownCode ('+' :: c) ↔ String.ofList c ∈ countryCodes := by
  constructor
  · rintro ⟨code, hcode, heq⟩
    rw [(List.cons.inj heq).2, String.ofList_toList]
    exact hcode
  · intro hcode
    exact ⟨_, hcode, by rw [String.toList_ofList]⟩

/-- The code that is returned is the longest known one, or the default when there is none. -/
theorem extractCountryCode_cons {phone : String} {cleaned : List Char} (h : digitsAndPlus phone = '+' :: cleaned) :
    Prefix.Longest KnownCode (digitsAndPlus phone) (extractCountryCode phone).toList ∨
      (extractCountryCode phone).toList = "+964".toList ∧ ∀ c, KnownCode c → ¬ c <+: digitsAndPlus phone := by
  have hplus : ∀ c, KnownCode c → ∃ c', c = '+' :: c' := by
    rintro c ⟨code, _, rfl⟩
    exact ⟨_, rfl⟩
  have hlen : ∀ c, KnownCode ('+' :: c) → c.length ∈ [3, 2, 1] := by
    intro c hc
    have hmem := length_countryCodes _ (knownCode_cons.mp hc)
    rwa [String.toList_ofList] at hmem
  have hprobe : ∀ n, (decide (n ≤ cleaned.length) && countryCodes.contains (String.ofList (cleaned.take n))) = true ↔
      n ≤ cleaned.length ∧ KnownCode ('+' :: cleaned.take n) := by
    simp [knownCode_cons]
  unfold extractCountryCode
  rw [show phone.toList.filter _ = '+' :: cleaned from h, h]
  split
  next _ heq =>
    cases heq
    split
    next n hfind =>
      left
      rw [show ("+" ++ String.ofList (cleaned.take n)).toList = '+' :: cleaned.take n by simp]
      exact (Prefix.longest_of_find hprobe hlen (by decide) hfind).cons hplus
    next hfind =>
      refine .inr ⟨rfl, fun c hc hstarts => ?_⟩
      obtain ⟨c', rfl⟩ := hplus c hc
      exact Prefix.not_starts_of_find hprobe hlen hfind hc ((List.prefix_cons_inj '+').mp hstarts)
  next hother => exact absurd rfl (hother cleaned)

/-- A number in international form gets its own country code if and only if the table has one for it. What else is in
the number does not matter. -/
theorem own_country_code_iff (phone : String) (hplus : (digitsAndPlus phone).head? = some '+') :
    ((extractCountryCode phone).toList <+: digitsAndPlus phone ↔ ∃ c, KnownCode c ∧ c <+: digitsAndPlus phone) ∧
    (Prefix.Longest KnownCode (digitsAndPlus phone) (extractCountryCode phone).toList ↔
      ∃ c, KnownCode c ∧ c <+: digitsAndPlus phone) ∧
    ∀ phone', digitsAndPlus phone' = digitsAndPlus phone → extractCountryCode phone' = extractCountryCode phone := by
  obtain ⟨cleaned, hcleaned⟩ := List.head?_eq_some_iff.mp hplus
  have hsame : ∀ phone', digitsAndPlus phone' = digitsAndPlus phone →
      extractCountryCode phone' = extractCountryCode phone := by
    intro phone' heq
    unfold digitsAndPlus at heq
    rw [extractCountryCode, heq]
    rfl
  have hdefault : KnownCode "+964".toList := ⟨"964", by decide, rfl⟩
  rcases extractCountryCode_cons hcleaned with hlongest | ⟨hcode, hnone⟩
  · have hknown : ∃ c, KnownCode c ∧ c <+: digitsAndPlus phone := ⟨_, hlongest.code, hlongest.starts⟩
    exact ⟨iff_of_true hlongest.starts hknown, iff_of_true hlongest hknown, hsame⟩
  · have hunknown : ¬ ∃ c, KnownCode c ∧ c <+: digitsAndPlus phone := fun ⟨c, hc, hstarts⟩ => hnone c hc hstarts
    rw [hcode]
    exact ⟨iff_of_false (hnone _ hdefault) hunknown, iff_of_false (fun h => hnone _ h.code h.starts) hunknown, hsame⟩

/-- A number from Turkey. -/
theorem own_country_code_iff_turkey :
    Prefix.Longest KnownCode (digitsAndPlus "+90 (212) 555-0100") (extractCountryCode "+90 (212) 555-0100").toList :=
  (own_country_code_iff "+90 (212) 555-0100" (by decide)).2.1.mpr ⟨"+90".toList, ⟨"90", by decide, rfl⟩, by decide⟩

/-- A number from Ireland, whose code `+353` is not in the table, is routed to Iraq. -/
theorem ireland_routed_to_iraq : digitsAndPlus "+353 1 555 0100" = "+35315550100".toList ∧
    extractCountryCode "+353 1 555 0100" = "+964" ∧
    ¬ (extractCountryCode "+353 1 555 0100").toList <+: digitsAndPlus "+353 1 555 0100" := by
  decide

end Gopkg.Router
