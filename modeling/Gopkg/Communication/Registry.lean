import Mathlib.Data.String.Basic
import Gopkg.Go.Map

/-!
# The registry of providers

`communication/provider/registry.go`. Each method holds the lock from its first access to its last, so a history is a
sequence of calls.
-/

namespace Gopkg.Communication

open Go

abbrev Channel := String

/-- What a registry asks a provider for. -/
structure Provider where
  code : String
  supportedChannels : List Channel

structure Registry where
  providers : Map String Provider
  byChannel : Map Channel (List Provider)

/-- `provider: nil`, `provider: empty Code`, and `provider %q already registered`. -/
inductive Err where
  | nilProvider
  | emptyCode
  | alreadyRegistered (code : String)

def newRegistry : Registry := ⟨∅, ∅⟩

/-- `r.byChannel[ch] = append(r.byChannel[ch], p)` -/
def addTo (p : Provider) (byChannel : Map Channel (List Provider)) (ch : Channel) : Map Channel (List Provider) :=
  byChannel.insert ch ((byChannel.lookup ch).getD [] ++ [p])

namespace Registry

def register (r : Registry) : Option Provider → Registry × Option Err
  | none => (r, some .nilProvider)
  | some p =>
    if p.code = "" then (r, some .emptyCode)
    else if (r.providers.lookup p.code).isSome then (r, some (.alreadyRegistered p.code))
    else (⟨r.providers.insert p.code p, p.supportedChannels.foldl (addTo p) r.byChannel⟩, none)

def get (r : Registry) (code : String) : Option Provider := r.providers.lookup code

/-- `ByChannel` -/
def listByChannel (r : Registry) (ch : Channel) : List Provider := (r.byChannel.lookup ch).getD []

/-- What `Codes` may return. -/
inductive Codes (r : Registry) : List String → Prop
  | range {order : List (Entry String Provider)} : Iterates r.providers order → Codes r (order.map Sigma.fst)

def len (r : Registry) : Nat := r.providers.entries.card

/-- The registry after a sequence of calls. -/
def registerAll (r : Registry) (calls : List (Option Provider)) : Registry :=
  calls.foldl (fun r p => (r.register p).1) r

/-- The providers of the calls that return nil. -/
def accepted (r : Registry) : List (Option Provider) → List Provider
  | [] => []
  | p :: calls =>
      (if (r.register p).2.isNone then p.toList else []) ++ accepted (r.register p).1 calls

end Registry

variable {r : Registry} {p : Provider} {call : Option Provider} {calls : List (Option Provider)} {acc : List Provider}
  {ch : Channel} {code : String}

/-! ## One call -/

/-- What a call does: it is rejected and changes nothing, or it adds a provider with a new code. -/
theorem register_cases (r : Registry) (call : Option Provider) :
    (∃ err, r.register call = (r, some err)) ∨ ∃ p, call = some p ∧ p.code ≠ "" ∧ r.providers.lookup p.code = none ∧
      r.register call = (⟨r.providers.insert p.code p, p.supportedChannels.foldl (addTo p) r.byChannel⟩, none) := by
  cases call with
  | none => exact .inl ⟨_, rfl⟩
  | some p =>
      simp only [Registry.register]
      split
      next => exact .inl ⟨_, rfl⟩
      next hcode =>
        split
        next => exact .inl ⟨_, rfl⟩
        next hnew =>
          rw [Option.not_isSome_iff_eq_none] at hnew
          exact .inr ⟨p, rfl, hcode, hnew, rfl⟩

theorem lookup_addTo (p : Provider) (m : Map Channel (List Provider)) (ch ch' : Channel) :
    ((addTo p m ch').lookup ch).getD [] = (m.lookup ch).getD [] ++ if ch' = ch then [p] else [] := by
  rw [addTo, lookup_insert_eq]
  by_cases hch : ch' = ch
  · subst hch
    simp
  · simp [hch]

/-- A provider is listed once for each time that it names the channel. -/
theorem lookup_foldl_addTo (p : Provider) (chs : List Channel) (m : Map Channel (List Provider)) (ch : Channel) :
    ((chs.foldl (addTo p) m).lookup ch).getD [] = (m.lookup ch).getD [] ++ List.replicate (chs.count ch) p := by
  induction chs generalizing m with
  | nil => simp
  | cons ch' chs ih =>
      rw [List.foldl_cons, ih, lookup_addTo, List.append_assoc, List.count_cons]
      by_cases hch : ch' = ch <;> simp [hch, List.replicate_succ]

/-! ## Histories -/

/-- The providers that name a channel, each as often as it does. -/
def named (ch : Channel) (acc : List Provider) : List Provider :=
  acc.flatMap fun p => List.replicate (p.supportedChannels.count ch) p

/-- The maps of the registry, in terms of the providers that it has accepted. -/
structure Views (r : Registry) (acc : List Provider) : Prop where
  lookup_iff : ∀ code p, r.providers.lookup code = some p ↔ p ∈ acc ∧ p.code = code
  nodup : (acc.map Provider.code).Nodup
  channel : ∀ ch, r.listByChannel ch = named ch acc

theorem views_newRegistry : Views newRegistry [] where
  lookup_iff := by simp [newRegistry]
  nodup := List.nodup_nil
  channel := by simp [newRegistry, Registry.listByChannel, named]

theorem Views.isSome_iff (h : Views r acc) (code : String) :
    (r.providers.lookup code).isSome ↔ code ∈ acc.map Provider.code := by
  rw [Option.isSome_iff_exists, List.mem_map]
  exact exists_congr fun p => h.lookup_iff code p

theorem Views.add (h : Views r acc) (hnew : r.providers.lookup p.code = none) :
    Views ⟨r.providers.insert p.code p, p.supportedChannels.foldl (addTo p) r.byChannel⟩ (acc ++ [p]) := by
  have hfresh : p.code ∉ acc.map Provider.code := by
    rw [← h.isSome_iff, hnew]
    exact Bool.false_ne_true
  refine ⟨fun code q => ?_, ?_, fun ch => ?_⟩
  · rw [lookup_insert_eq, List.mem_append, List.mem_singleton]
    by_cases hcode : p.code = code
    · subst hcode
      rw [if_pos rfl, Option.some_or, Option.some.injEq]
      constructor
      · rintro rfl
        exact ⟨.inr rfl, rfl⟩
      · rintro ⟨hq | rfl, hcode⟩
        · exact absurd (List.mem_map.mpr ⟨q, hq, hcode⟩) hfresh
        · rfl
    · rw [if_neg hcode, Option.none_or, h.lookup_iff]
      refine and_congr_left fun hq => (or_iff_left ?_).symm
      rintro rfl
      exact hcode hq
  · rw [List.map_append, List.map_singleton, ← List.concat_eq_append, List.nodup_concat]
    exact ⟨hfresh, h.nodup⟩
  · rw [named, List.flatMap_append, List.flatMap_singleton, ← named, ← h.channel]
    exact lookup_foldl_addTo p p.supportedChannels r.byChannel ch

theorem Views.registerAll (h : Views r acc) (calls : List (Option Provider)) :
    Views (r.registerAll calls) (acc ++ r.accepted calls) := by
  induction calls generalizing r acc with
  | nil => simpa [Registry.accepted, Registry.registerAll] using h
  | cons call calls ih =>
      rw [Registry.accepted, ← List.append_assoc]
      refine ih ?_
      rcases register_cases r call with ⟨err, hreg⟩ | ⟨p, rfl, _, hnew, hreg⟩
      · simpa [hreg] using h
      · simpa [hreg] using h.add hnew

/-! ## The views -/

theorem Views.codes_perm (h : Views r acc) {codes : List String} (hcodes : r.Codes codes) :
    codes.Perm (acc.map Provider.code) := by
  cases hcodes with
  | @range order horder =>
      refine (List.perm_ext_iff_of_nodup horder.nodupKeys h.nodup).mpr fun code => ?_
      rw [← h.isSome_iff, List.mem_keys, Option.isSome_iff_exists]
      exact exists_congr fun p => horder.mem_iff

theorem Views.len_eq (h : Views r acc) : r.len = acc.length := by
  obtain ⟨order, horder⟩ := exists_iterates r.providers
  have hlength := (h.codes_perm (.range horder)).length_eq
  rw [List.length_map, List.length_map] at hlength
  rw [Registry.len, ← horder, Multiset.coe_card, hlength]

/-- Two codes may come in either order. -/
theorem Views.codes_ascending_iff (h : Views r acc) :
    (∀ codes, r.Codes codes → codes.Pairwise (· < ·)) ↔ acc.length ≤ 1 := by
  constructor
  · intro hascending
    obtain ⟨order, horder⟩ := exists_iterates r.providers
    rw [← h.len_eq, Registry.len, ← horder, Multiset.coe_card]
    match order, horder with
    | [], _ => exact Nat.zero_le 1
    | [_], _ => exact Nat.le_refl 1
    | e :: e' :: rest, horder =>
        have hswap : Iterates r.providers (e' :: e :: rest) :=
          (Multiset.coe_eq_coe.mpr (List.Perm.swap e e' rest)).trans horder
        have hlt := List.rel_of_pairwise_cons (hascending _ (.range horder)) List.mem_cons_self
        have hgt := List.rel_of_pairwise_cons (hascending _ (.range hswap)) List.mem_cons_self
        exact absurd hgt (lt_asymm hlt)
  · intro hlength codes hcodes
    rw [← List.length_map Provider.code, ← (h.codes_perm hcodes).length_eq] at hlength
    match codes, hlength with
    | [], _ => exact .nil
    | [_], _ => exact List.pairwise_singleton _ _

theorem length_filter_le_named (ch : Channel) (acc : List Provider) :
    (acc.filter fun p => ch ∈ p.supportedChannels).length ≤ (named ch acc).length := by
  induction acc with
  | nil => exact Nat.le_refl 0
  | cons p acc ih =>
      rw [named, List.flatMap_cons, List.length_append, List.length_replicate, ← named]
      by_cases hch : ch ∈ p.supportedChannels
      · have hpos := List.count_pos_iff.mpr hch
        rw [List.filter_cons_of_pos (by simpa using hch), List.length_cons]
        omega
      · rw [List.filter_cons_of_neg (by simpa using hch)]
        omega

theorem named_eq_filter_iff (ch : Channel) (acc : List Provider) :
    named ch acc = (acc.filter fun p => ch ∈ p.supportedChannels) ↔ ∀ p ∈ acc, p.supportedChannels.count ch ≤ 1 := by
  induction acc with
  | nil => simp [named]
  | cons p acc ih =>
      have hle := length_filter_le_named ch acc
      rw [List.forall_mem_cons, ← ih, named, List.flatMap_cons, ← named]
      by_cases hch : ch ∈ p.supportedChannels
      · have hpos := List.count_pos_iff.mpr hch
        rw [List.filter_cons_of_pos (by simpa using hch)]
        constructor
        · intro heq
          have hlength := congrArg List.length heq
          rw [List.length_append, List.length_replicate, List.length_cons] at hlength
          have hone : p.supportedChannels.count ch = 1 := by omega
          rw [hone] at heq ⊢
          exact ⟨Nat.le_refl 1, List.tail_eq_of_cons_eq heq⟩
        · rintro ⟨hone, heq⟩
          rw [Nat.le_antisymm hone hpos, heq]
          rfl
      · rw [List.filter_cons_of_neg (by simpa using hch), List.count_eq_zero_of_not_mem hch]
        simp

/-- A channel lists the providers that name it, when none names it twice. -/
theorem Views.channel_iff (h : Views r acc) :
    (∀ ch, r.listByChannel ch = acc.filter fun p => ch ∈ p.supportedChannels) ↔
      ∀ p ∈ acc, p.supportedChannels.Nodup := by
  simp only [h.channel, List.nodup_iff_count_le_one]
  constructor
  · intro hlists p hp ch
    exact (named_eq_filter_iff ch acc).mp (hlists ch) p hp
  · intro hnodup ch
    exact (named_eq_filter_iff ch acc).mpr fun p hp => hnodup p hp ch

/-- After any sequence of calls, `Get` knows the accepted providers, and a rejected call changes nothing. The codes are
in ascending order in every order of the map only if there are fewer than two, and a channel lists its providers once
each only if none of them names a channel twice. -/
theorem views_agree_iff (calls : List (Option Provider)) :
    (∀ code, ((newRegistry.registerAll calls).get code).isSome ↔
      code ∈ (newRegistry.accepted calls).map Provider.code) ∧
    (∀ call, ((newRegistry.registerAll calls).register call).2 ≠ none →
      ((newRegistry.registerAll calls).register call).1 = newRegistry.registerAll calls) ∧
    (∀ codes, (newRegistry.registerAll calls).Codes codes →
      codes.Perm ((newRegistry.accepted calls).map Provider.code)) ∧
    ((∀ codes, (newRegistry.registerAll calls).Codes codes → codes.Pairwise (· < ·)) ↔
      (newRegistry.accepted calls).length ≤ 1) ∧
    ((∀ ch, (newRegistry.registerAll calls).listByChannel ch =
        (newRegistry.accepted calls).filter fun p => ch ∈ p.supportedChannels) ↔
      ∀ p ∈ newRegistry.accepted calls, p.supportedChannels.Nodup) := by
  have h : Views (newRegistry.registerAll calls) (newRegistry.accepted calls) := views_newRegistry.registerAll calls
  refine ⟨h.isSome_iff, fun call hrejected => ?_, fun codes => h.codes_perm, h.codes_ascending_iff, h.channel_iff⟩
  rcases register_cases (newRegistry.registerAll calls) call with ⟨err, hreg⟩ | ⟨p, _, _, _, hreg⟩
  · rw [hreg]
  · rw [hreg] at hrejected
    exact absurd rfl hrejected

def twilio : Provider := ⟨"twilio", ["sms"]⟩
def sendgrid : Provider := ⟨"sendgrid", ["email", "email"]⟩

/-- The codes may come out in the order of the registration, and a channel that is named twice lists its provider
twice. -/
theorem codes_unsorted : newRegistry.accepted [some twilio, some sendgrid] = [twilio, sendgrid] ∧
    (newRegistry.registerAll [some twilio, some sendgrid]).Codes ["twilio", "sendgrid"] ∧
      ¬ ["twilio", "sendgrid"].Pairwise (· < ·) ∧
      (newRegistry.registerAll [some twilio, some sendgrid]).listByChannel "email" = [sendgrid, sendgrid] := by
  have horder : Iterates (newRegistry.registerAll [some twilio, some sendgrid]).providers
      [⟨"twilio", twilio⟩, ⟨"sendgrid", sendgrid⟩] := Multiset.coe_eq_coe.mpr (List.Perm.swap _ _ [])
  exact ⟨by rfl, .range horder, by decide, by rfl⟩

end Gopkg.Communication
