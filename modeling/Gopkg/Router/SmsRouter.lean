import Mathlib.Algebra.Order.Ring.Int
import Mathlib.Logic.Function.Basic
import Gopkg.Sorting.Exchange

/-!
# SMS routing

`communication/router/sms_router.go`. The methods of the router hold its lock, so that each is one function of the
router.
-/

namespace Gopkg.Router

structure SMSRoutingRule where
  countryCode : String
  providerCode : String
  providerPriority : Int
  isActive : Bool
  isFallback : Bool
  rateLimitPerSec : Int
  rateLimitPerDay : Int
  deriving DecidableEq, Repr

/-- A provider, as the router sees it: whether it is an `SMSProvider`, and whether it is enabled. -/
structure Provider where
  code : String
  isSMS : Bool
  enabled : Bool
  deriving DecidableEq, Repr

/-- `Get`, which returns nil for an unknown code. -/
abbrev ProviderLookup := String → Option Provider

structure SMSRouter where
  registry : Option ProviderLookup
  -- A country that is not in the map has the nil slice.
  routes : String → List SMSRoutingRule
  defaultRoute : SMSRoutingRule

def newSMSRouter (registry : Option ProviderLookup) : SMSRouter where
  registry := registry
  routes _ := []
  defaultRoute :=
    { countryCode := "*", providerCode := "twilio_sms", providerPriority := 0, isActive := true, isFallback := true
      rateLimitPerSec := 0, rateLimitPerDay := 0 }

def sortRules (rules : List SMSRoutingRule) : List SMSRoutingRule := Sorting.exchangeSort (·.providerPriority) rules

/-- `routes[rule.CountryCode] = append(routes[rule.CountryCode], rule)` -/
def appendRule (routes : String → List SMSRoutingRule) (rule : SMSRoutingRule) : String → List SMSRoutingRule :=
  Function.update routes rule.countryCode (routes rule.countryCode ++ [rule])

def SMSRouter.loadRoutes (r : SMSRouter) (routes : List SMSRoutingRule) : SMSRouter :=
  let loaded := routes.foldl (fun m route => if !route.isActive then m else appendRule m route) fun _ => []
  { r with routes := fun country => sortRules (loaded country) }

def SMSRouter.addRoute (r : SMSRouter) (rule : SMSRoutingRule) : SMSRouter :=
  let routes := appendRule r.routes rule
  { r with routes := Function.update routes rule.countryCode (sortRules (routes rule.countryCode)) }

def SMSRouter.setDefaultRoute (r : SMSRouter) (rule : SMSRoutingRule) : SMSRouter := { r with defaultRoute := rule }

def SMSRouter.lookupSMS (r : SMSRouter) (code : String) : Option Provider :=
  match r.registry with
  | none => none
  | some get =>
      match get code with
      | some p => if p.isSMS then some p else none
      | none => none

def countryCodes : List String :=
  ["964", "971", "966", "962", "963", "965", "968", "973", "974", "961", "967", "970", "218", "249", "213", "212",
    "216", "20", "44", "49", "33", "39", "34", "31", "32", "90", "86", "91", "81", "82", "61", "64", "1", "7"]

def extractCountryCode (phoneNumber : String) : String :=
  match phoneNumber.toList.filter fun c => ('0' ≤ c && c ≤ '9') || c == '+' with
  | '+' :: cleaned =>
      match [3, 2, 1].find? fun n => n ≤ cleaned.length && countryCodes.contains (String.ofList (cleaned.take n)) with
      | some n => "+" ++ String.ofList (cleaned.take n)
      | none => "+964"
  | _ => "+964"

/-- `sms := r.lookupSMS(code); sms != nil && sms.Enabled()` -/
def SMSRouter.enabledSMS (r : SMSRouter) (code : String) : Option Provider :=
  (r.lookupSMS code).filter (·.enabled)

/-- The loop over the rules of a country. -/
def SMSRouter.firstEnabled (r : SMSRouter) : List SMSRoutingRule → Option Provider
  | [] => none
  | rule :: rules =>
      if !rule.isActive then r.firstEnabled rules
      else
        match r.enabledSMS rule.providerCode with
        | some sms => some sms
        | none => r.firstEnabled rules

def SMSRouter.getProviderForNumber (r : SMSRouter) (phoneNumber : String) : String × Except String Provider :=
  let countryCode := extractCountryCode phoneNumber
  match r.firstEnabled (r.routes countryCode) with
  | some sms => (countryCode, .ok sms)
  | none =>
      match r.enabledSMS r.defaultRoute.providerCode with
      | some sms => (countryCode, .ok sms)
      | none => (countryCode, .error s!"no SMS provider available for country {countryCode}")

/-! ## Sequences of calls -/

inductive Op where
  | loadRoutes (routes : List SMSRoutingRule)
  | addRoute (rule : SMSRoutingRule)
  | setDefaultRoute (rule : SMSRoutingRule)

def SMSRouter.apply (r : SMSRouter) : Op → SMSRouter
  | .loadRoutes routes => r.loadRoutes routes
  | .addRoute rule => r.addRoute rule
  | .setDefaultRoute rule => r.setDefaultRoute rule

def SMSRouter.run (r : SMSRouter) (ops : List Op) : SMSRouter := ops.foldl SMSRouter.apply r

/-- What a call makes of the rules inserted so far: loading starts again from the active ones. -/
def Op.insert (rules : List SMSRoutingRule) : Op → List SMSRoutingRule
  | .loadRoutes routes => routes.filter (·.isActive)
  | .addRoute rule => rules ++ [rule]
  | .setDefaultRoute _ => rules

def inserted (ops : List Op) : List SMSRoutingRule := ops.foldl Op.insert []

def rulesFor (country : String) (rules : List SMSRoutingRule) : List SMSRoutingRule :=
  rules.filter fun rule => rule.countryCode = country

/-- There is a registry, and it has an enabled SMS provider under the code. -/
def SMSRouter.Resolves (r : SMSRouter) (code : String) (p : Provider) : Prop :=
  ∃ get, r.registry = some get ∧ get code = some p ∧ p.isSMS = true ∧ p.enabled = true

/-- The rule gives a provider. -/
def SMSRouter.Serves (r : SMSRouter) (rule : SMSRoutingRule) (p : Provider) : Prop :=
  rule.isActive = true ∧ r.Resolves rule.providerCode p

end Gopkg.Router
