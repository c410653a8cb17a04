import Mathlib.Order.Bounds.Basic
import Gopkg.Lts.Rounds
import Gopkg.Httpx.Client

/-!
# Theorems about the client

What each attempt sends, how many there are, what is returned, and which bodies are closed.
-/

namespace Gopkg.Httpx

open Go Lts

/-! ## The world of a request -/

/-- What happens to a request: the bytes of its body, and for the `k`-th attempt the status of the response or the
error, how its body is drained and closed, and what the pause after it ends with. -/
structure World where
  content : List UInt8
  outcome : Nat → Except Err Int
  discard : Nat → Bool
  close : Nat → Bool
  pause : Nat → Option CtxErr

abbrev Event := (op : Op) × Ans op

namespace World

variable (w : World)

/-- The body of a response is numbered by the attempt. -/
def answer (k : Nat) : Except Err Response := (w.outcome k).map fun statusCode => ⟨statusCode, k⟩

/-- The state is the number of attempts so far. -/
def act (k : Nat) : (op : Op) → Ans op → Nat → Prop
  | .readAll, a, k' => a = .ok w.content ∧ k' = k
  | .closeRequestBody, _, k' => k' = k
  | .next _, a, k' => a = w.answer (k + 1) ∧ k' = k + 1
  | .discard _, a, k' => a = w.discard k ∧ k' = k
  | .close _, a, k' => a = w.close k ∧ k' = k
  | .sleep _, a, k' => a = w.pause k ∧ k' = k

theorem exists_act (k : Nat) (op : Op) : ∃ a k', w.act k op a k' := by
  cases op with
  | closeRequestBody => exact ⟨true, k, rfl⟩
  | _ => exact ⟨_, _, rfl, rfl⟩

/-- What an attempt is to send: no body, or the bytes of the body. -/
def sends : Body → Body
  | .nil => .nil
  | .noBody => .noBody
  | _ => .buffered w.content

def discards (k : Nat) : List Event :=
  match w.answer k with
  | .error _ => []
  | .ok resp => [⟨.discard resp, w.discard k⟩, ⟨.close resp, w.close k⟩]

end World

/-! ## Rounds -/

/-- The pause after `k + 1` attempts. -/
def delayAt (cfg : RetryConfig) (k : Nat) : Int := (nextDelay cfg)^[k] cfg.backoffInitial

section Rounds

variable (w : World) (cfg : RetryConfig) (body : Body)

/-- An attempt that fails, and a pause that is over. -/
def round (k : Nat) : List Event :=
  ⟨.next body, w.answer (k + 1)⟩ :: (w.discards (k + 1) ++ [⟨.sleep (delayAt cfg k), none⟩])

/-- The `k`-th attempt may be followed by another. -/
def World.Retryable (k : Nat) : Prop := shouldRetry cfg (w.answer k) = true

structure World.Passes (N k : Nat) : Prop where
  retry : w.Retryable cfg (k + 1)
  lt : k + 1 < N
  pause : w.pause (k + 1) = none

/-- How `RoundTrip` ends after `k` rounds, with what it returns and the number of attempts. -/
inductive Finish (N k : Nat) : List Event → Result × Nat → Prop
  | returned : k + 1 ≤ N → k + 1 = N ∨ ¬ w.Retryable cfg (k + 1) →
      Finish N k [⟨.next body, w.answer (k + 1)⟩] (result (w.answer (k + 1)), k + 1)
  | interrupted {err : CtxErr} : w.Retryable cfg (k + 1) → k + 1 < N → w.pause (k + 1) = some err →
      Finish N k (⟨.next body, w.answer (k + 1)⟩ :: (w.discards (k + 1) ++ [⟨.sleep (delayAt cfg k), some err⟩]))
        ((none, some (.ctx err)), k + 1)

abbrev TripRounds (N : Nat) : Nat → Nat → List Event → Result × Nat → Prop :=
  Lts.Rounds (round w cfg body) (w.Passes cfg N) (Finish w cfg body N)

end Rounds

variable {w : World} {cfg : RetryConfig} {body : Body} {bodyBytes : Option (List UInt8)} {N k c n left : Nat}
  {t last : List Event} {r : Result}

theorem discardBody_ends {a : Unit} {k' : Nat} (he : Ends w.act k (discardBody (w.answer k)) t a k') :
    t = w.discards k ∧ k' = k := by
  rw [World.discards]
  cases hanswer : w.answer k with
  | error err =>
      rw [hanswer] at he
      obtain ⟨rfl, _, rfl⟩ := ends_ret rfl he
      exact ⟨rfl, rfl⟩
  | ok resp =>
      rw [hanswer] at he
      obtain ⟨x, k₁, t₁, rfl, ⟨rfl, rfl⟩, he₁⟩ := ends_call (Op.discard resp) rfl he
      obtain ⟨x, k₂, t₂, rfl, ⟨rfl, rfl⟩, he₂⟩ := ends_call (Op.close resp) rfl he₁
      obtain ⟨rfl, _, rfl⟩ := ends_ret rfl he₂
      exact ⟨rfl, rfl⟩

/-- The body that the loop sends. -/
def sentBody (bodyBytes : Option (List UInt8)) (body : Body) : Body :=
  match bodyBytes with
  | some bytes => .buffered bytes
  | none => body

theorem sentBody_sentBody : sentBody bodyBytes (sentBody bodyBytes body) = sentBody bodyBytes body := by
  cases bodyBytes <;> rfl

/-- One pass of the loop. -/
theorem attempt_ends (he : Ends w.act k (attempts cfg bodyBytes body left (delayAt cfg k)) t r n)
    (hleft : k + left + 1 = N) :
    Finish w cfg (sentBody bodyBytes body) N k t (r, n) ∨ ∃ left' t', left = left' + 1 ∧ w.Passes cfg N k ∧
      t = round w cfg (sentBody bodyBytes body) k ++ t' ∧
      Ends w.act (k + 1) (attempts cfg bodyBytes (sentBody bodyBytes body) left' (delayAt cfg (k + 1))) t' r n := by
  unfold attempts at he
  obtain ⟨outcome, k₁, t₁, rfl, ⟨rfl, rfl⟩, he₁⟩ := ends_call (Op.next (sentBody bodyBytes body)) rfl he
  rw [Program.ret_bind] at he₁
  by_cases hretry : shouldRetry cfg (w.answer (k + 1)) = true
  · rw [if_neg (by simp [hretry])] at he₁
    cases left with
    | zero =>
        obtain ⟨rfl, rfl, rfl⟩ := ends_ret rfl he₁
        exact .inl (.returned (by omega) (.inl hleft))
    | succ left =>
        obtain ⟨t₂, t₃, a, k₂, rfl, hdiscard, he₂⟩ := ends_bind he₁
        obtain ⟨rfl, rfl⟩ := discardBody_ends hdiscard
        obtain ⟨cut, k₃, t₄, rfl, ⟨hcut, rfl⟩, he₃⟩ := ends_call (Op.sleep (delayAt cfg k)) rfl he₂
        cases cut with
        | some err =>
            obtain ⟨rfl, rfl, rfl⟩ := ends_ret rfl he₃
            exact .inl (.interrupted hretry (by omega) hcut.symm)
        | none =>
            refine .inr ⟨left, t₄, rfl, ⟨hretry, by omega, hcut.symm⟩, by simp [round], ?_⟩
            rw [delayAt, Function.iterate_succ_apply']
            exact he₃
  · rw [if_pos (by simp [hretry])] at he₁
    obtain ⟨rfl, rfl, rfl⟩ := ends_ret rfl he₁
    exact .inl (.returned (by omega) (.inr hretry))

theorem attempts_ends (he : Ends w.act 0 (attempts cfg bodyBytes body left cfg.backoffInitial) t r n)
    (hleft : left + 1 = N) : ∃ c, TripRounds w cfg (sentBody bodyBytes body) N 0 c t (r, n) := by
  refine Rounds.of_pass (L := fun left k t rn => k + left + 1 = N ∧ ∃ body', sentBody bodyBytes body' =
    sentBody bodyBytes body ∧ Ends w.act k (attempts cfg bodyBytes body' left (delayAt cfg k)) t rn.1 rn.2) ?_
    ⟨by omega, body, rfl, he⟩
  rintro left k t ⟨r, n⟩ ⟨hleft, body', hbody, he⟩
  rcases attempt_ends he hleft with hlast | ⟨left', t', rfl, hpasses, ht, hrest⟩
  · exact .inl (hbody ▸ hlast)
  · exact .inr ⟨left', t', rfl, hpasses, hbody ▸ ht, by omega, _, sentBody_sentBody.trans hbody, hrest⟩

/-! ## Attempts -/

theorem Finish.attempts (h : Finish w cfg body N k last (r, n)) : n = k + 1 ∧ n ≤ N := by
  cases h with
  | returned hle _ => exact ⟨rfl, hle⟩
  | interrupted _ hlt _ => exact ⟨rfl, by omega⟩

theorem isLeast_of_rounds (h : TripRounds w cfg body N 0 c t (r, n))
    (hquiet : ∀ d err, ⟨.sleep d, some err⟩ ∉ t) :
    IsLeast {k | k = N ∨ 1 ≤ k ∧ ¬ w.Retryable cfg k} n ∧ r = result (w.answer n) := by
  obtain ⟨last, rfl, hlast⟩ := h.ends
  rw [Nat.zero_add] at hlast
  cases hlast with
  | returned hle hend =>
      refine ⟨⟨hend.imp id fun hstop => ⟨Nat.le_add_left 1 c, hstop⟩, fun j hj => ?_⟩, rfl⟩
      by_contra hjn
      rcases hj with rfl | ⟨hpos, hstop⟩
      · omega
      · have hpasses := h.passes (j - 1) (Nat.zero_le _) (by omega)
        exact hstop (Nat.sub_add_cancel hpos ▸ hpasses.retry)
  | @interrupted err _ _ _ => exact absurd (by simp) (hquiet (delayAt cfg c) err)

theorem mem_discards {ev : Event} : ev ∈ w.discards k ↔ ∃ resp, w.answer k = .ok resp ∧
    (ev = ⟨.discard resp, w.discard k⟩ ∨ ev = ⟨.close resp, w.close k⟩) := by
  rw [World.discards]
  cases w.answer k <;> simp

theorem mem_round {ev : Event} : ev ∈ round w cfg body k ↔ ev = ⟨.next body, w.answer (k + 1)⟩ ∨
    ev ∈ w.discards (k + 1) ∨ ev = ⟨.sleep (delayAt cfg k), none⟩ := by
  simp [round]

theorem sent_of_rounds (h : TripRounds w cfg body N 0 c t (r, n)) {sent : Body} {a : Except Err Response}
    (hmem : ⟨.next sent, a⟩ ∈ t) : sent = body := by
  obtain ⟨last, rfl, hlast⟩ := h.ends
  rcases Rounds.mem_iff.mp hmem with ⟨j, _, hj⟩ | hmem
  · simp only [mem_round, mem_discards] at hj
    grind
  · cases hlast with
    | returned _ _ => grind
    | interrupted _ _ _ =>
        simp only [List.mem_cons, List.mem_append, mem_discards] at hmem
        grind

/-- A pause that sees the end of the context is the last thing that happens. -/
theorem interrupted_of_rounds (h : TripRounds w cfg body N 0 c t (r, n)) {d : Int} {err : CtxErr} {t₁ t₂ : List Event}
    (hsplit : t = t₁ ++ ⟨.sleep d, some err⟩ :: t₂) :
    t₂ = [] ∧ w.pause n = some err ∧ r = (none, some (.ctx err)) := by
  obtain ⟨last, rfl, hlast⟩ := h.ends
  have hround : ⟨.sleep d, some err⟩ ∉ (List.range' 0 c).flatMap (round w cfg body) := by
    simp [List.mem_flatMap, mem_round, mem_discards]
  obtain ⟨t₀, _, hend⟩ := append_of_not_mem hround hsplit
  rw [Nat.zero_add] at hlast
  cases hlast with
  | returned _ _ => simp [List.cons_eq_append_iff] at hend
  | @interrupted err' _ _ hpause =>
      have hbefore : ⟨.sleep d, some err⟩ ∉ ⟨.next body, w.answer (c + 1)⟩ :: w.discards (c + 1) := by
        simp [mem_discards]
      rw [← List.cons_append] at hend
      obtain ⟨t₃, _, hpaused⟩ := append_of_not_mem hbefore hend
      cases t₃ with
      | cons ev t₃ => simp at hpaused
      | nil =>
          obtain ⟨hev, rfl⟩ := List.cons.inj hpaused
          cases hev
          exact ⟨rfl, hpause, rfl⟩

/-! ## Bodies of responses -/

theorem body_of_answer {resp : Response} (h : w.answer k = .ok resp) : resp.body = k := by
  rw [World.answer] at h
  cases houtcome : w.outcome k with
  | error err => simp [houtcome, Except.map] at h
  | ok statusCode =>
      rw [houtcome] at h
      cases h
      rfl

/-- Neither drained nor closed. -/
def Untouched (resp : Response) (t : List Event) : Prop :=
  ∀ ok, ⟨.discard resp, ok⟩ ∉ t ∧ ⟨.close resp, ok⟩ ∉ t

theorem result_eq_some {outcome : Except Err Response} {resp : Response} (h : (result outcome).1 = some resp) :
    outcome = .ok resp := by
  cases outcome with
  | error err => cases h
  | ok resp' =>
      cases h
      rfl

theorem untouched_of_rounds (h : TripRounds w cfg body N 0 c t (r, n)) {resp : Response} (hr : r.1 = some resp) :
    Untouched resp t := by
  obtain ⟨last, rfl, hlast⟩ := h.ends
  rw [Nat.zero_add] at hlast
  cases hlast with
  | interrupted _ _ _ => cases hr
  | returned _ _ =>
      have hlater : ∀ j ∈ List.range' 0 c, w.answer (j + 1) ≠ .ok resp := by
        intro j hj hearlier
        have hsame := (body_of_answer hearlier).symm.trans (body_of_answer (result_eq_some hr))
        rw [List.mem_range'_1] at hj
        omega
      intro ok
      constructor <;> intro hmem <;> rcases Rounds.mem_iff.mp hmem with ⟨j, hj, hmem⟩ | hmem
      · simp only [mem_round, mem_discards] at hmem
        grind
      · simp at hmem
      · simp only [mem_round, mem_discards] at hmem
        grind
      · simp at hmem

theorem closed_of_rounds (h : TripRounds w cfg body N 0 c t (r, n)) {resp : Response} (hpos : 1 ≤ k) (hk : k ≤ n)
    (hresp : w.answer k = .ok resp) (hr : r.1 ≠ some resp) : ⟨.close resp, w.close k⟩ ∈ t := by
  have hclosed : ⟨.close resp, w.close k⟩ ∈ w.discards k := mem_discards.mpr ⟨resp, hresp, .inr rfl⟩
  obtain ⟨last, rfl, hlast⟩ := h.ends
  rw [Nat.zero_add] at hlast
  rcases Nat.lt_or_ge k (c + 1) with hlt | hge
  · have hround : ⟨.close resp, w.close k⟩ ∈ round w cfg body (k - 1) := by
      rw [mem_round, Nat.sub_add_cancel hpos]
      exact .inr (.inl hclosed)
    exact Rounds.mem_iff.mpr (.inl ⟨k - 1, List.mem_range'_1.mpr ⟨Nat.zero_le _, by omega⟩, hround⟩)
  · obtain rfl : k = c + 1 := Nat.le_antisymm (hlast.attempts.1 ▸ hk) hge
    cases hlast with
    | returned _ _ =>
        rw [hresp] at hr
        exact absurd rfl hr
    | interrupted _ _ _ => simp [hclosed]

/-! ## `RoundTrip` -/

theorem sendAll_ends (hmax : 1 < cfg.maxAttempts) (he : Ends w.act 0 (sendAll cfg bodyBytes body) t r n) :
    ∃ c, TripRounds w cfg (sentBody bodyBytes body) cfg.maxAttempts.toNat 0 c t (r, n) := by
  rw [sendAll, if_neg (by omega)] at he
  exact attempts_ends he (by omega)

/-- Before the attempts the body of the request is read, if there is one. -/
theorem roundTrip_ends (hmax : 1 < cfg.maxAttempts) (he : Ends w.act 0 (roundTrip cfg body) t r n) :
    ∃ before t' c, t = before ++ t' ∧ (∀ ev ∈ before, ev.1 = .readAll ∨ ev.1 = .closeRequestBody) ∧
      TripRounds w cfg (w.sends body) cfg.maxAttempts.toNat 0 c t' (r, n) := by
  rw [roundTrip] at he
  split at he
  next hbody =>
    obtain ⟨content, k₁, t₁, rfl, ⟨rfl, rfl⟩, he₁⟩ := ends_call Op.readAll rfl he
    obtain ⟨ok, k₂, t₂, rfl, rfl, he₂⟩ := ends_call Op.closeRequestBody rfl he₁
    obtain ⟨c, hrounds⟩ := sendAll_ends hmax he₂
    have hsends : w.sends body = .buffered w.content := by
      cases body with
      | nil => exact absurd rfl hbody.1
      | noBody => exact absurd rfl hbody.2
      | stream => rfl
      | buffered bytes => rfl
    exact ⟨[⟨.readAll, .ok w.content⟩, ⟨.closeRequestBody, ok⟩], t₂, c, rfl, by simp, hsends ▸ hrounds⟩
  next hbody =>
    obtain ⟨c, hrounds⟩ := sendAll_ends hmax he
    have hsends : w.sends body = body := by
      cases body with
      | nil => rfl
      | noBody => rfl
      | stream => simp at hbody
      | buffered bytes => simp at hbody
    exact ⟨[], t, c, rfl, by simp, hsends.symm ▸ hrounds⟩

/-- Each attempt sends the body of the request from the start, and the attempts stop at the first outcome that is not to
be retried, or when a pause sees the end of the context. What is returned has not been touched, and the bodies of all
other responses have been closed. -/
theorem roundTrip_spec (cfg : RetryConfig) (hmax : 1 < cfg.maxAttempts) (body : Body) (w : World) :
    (∃ t r n, Ends w.act 0 (roundTrip cfg body) t r n) ∧ ∀ t r n, Ends w.act 0 (roundTrip cfg body) t r n →
      (∀ sent a, ⟨.next sent, a⟩ ∈ t → sent = w.sends body) ∧
      ((∀ d err, ⟨.sleep d, some err⟩ ∉ t) →
        IsLeast {k | k = cfg.maxAttempts.toNat ∨ 1 ≤ k ∧ ¬ w.Retryable cfg k} n ∧ r = result (w.answer n) ∧
          ∀ resp, r.1 = some resp → Untouched resp t) ∧
      (∀ t₁ d err t₂, t = t₁ ++ ⟨.sleep d, some err⟩ :: t₂ →
        t₂ = [] ∧ w.pause n = some err ∧ r = (none, some (.ctx err))) ∧
      ∀ k resp, 1 ≤ k → k ≤ n → w.answer k = .ok resp → r.1 ≠ some resp → ∃ ok, ⟨.close resp, ok⟩ ∈ t := by
  refine ⟨exists_ends w.exists_act _ _, fun t r n he => ?_⟩
  obtain ⟨before, t', c, rfl, hbefore, hrounds⟩ := roundTrip_ends hmax he
  -- what matters does not happen before the attempts
  have hafter : ∀ {ev : Event}, ev.1 ≠ .readAll → ev.1 ≠ .closeRequestBody → ev ∉ before :=
    fun hread hclose hmem => (hbefore _ hmem).elim hread hclose
  refine ⟨fun sent a hmem => ?_, fun hquiet => ?_, fun t₁ d err t₂ hsplit => ?_, fun k resp hpos hk hresp hr => ?_⟩
  · exact sent_of_rounds hrounds ((List.mem_append.mp hmem).resolve_left (hafter nofun nofun))
  · obtain ⟨hleast, hresult⟩ := isLeast_of_rounds hrounds fun d err hmem => hquiet d err (List.mem_append_right _ hmem)
    refine ⟨hleast, hresult, fun resp hr ok => ?_⟩
    obtain ⟨hdiscard, hclose⟩ := untouched_of_rounds hrounds hr ok
    exact ⟨fun hmem => (List.mem_append.mp hmem).elim (hafter nofun nofun) hdiscard,
      fun hmem => (List.mem_append.mp hmem).elim (hafter nofun nofun) hclose⟩
  · have hpause : (⟨.sleep d, some err⟩ : Event) ∉ before := hafter nofun nofun
    obtain ⟨t₀, _, hrest⟩ := append_of_not_mem hpause hsplit
    exact interrupted_of_rounds hrounds hrest
  · exact ⟨w.close k, List.mem_append_right _ (closed_of_rounds hrounds hpos hk hresp hr)⟩

/-- Unavailable at first, and then not any more. -/
def recovers : World where
  content := [104, 105]
  outcome k := if k < 2 then .ok 503 else .ok 200
  discard _ := true
  close _ := true
  pause _ := none

def twice : RetryConfig := applyDefaults ⟨2, 0, 0, 0, none, false⟩

theorem roundTrip_spec_recovers : ∃ t r n, Ends recovers.act 0 (roundTrip twice .stream) t r n ∧
    ∀ sent a, ⟨.next sent, a⟩ ∈ t → sent = .buffered [104, 105] := by
  obtain ⟨⟨t, r, n, he⟩, hspec⟩ := roundTrip_spec twice (by decide) .stream recovers
  exact ⟨t, r, n, he, (hspec t r n he).1⟩

/-- With the defaults, all errors are retried but those of the context. -/
theorem shouldRetry_applyDefaults (c : RetryConfig) (err : Err) :
    shouldRetry (applyDefaults c) (.error err) = !err.isCtx := by
  have hnet : (applyDefaults c).retryOnNetErr = true := by
    dsimp only [applyDefaults]
    split <;> simp_all
  rw [shouldRetry, hnet]
  cases err.isCtx <;> rfl

end Gopkg.Httpx
