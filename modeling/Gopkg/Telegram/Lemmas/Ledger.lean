import Gopkg.Telegram.Lemmas.Discipline

/-!
# The ledger of the deposits

The invariant of the orderly runs. A conversation that has been paid is over: no state and no handler has
it any more, or the handler that paid is about to clear the state.
-/

namespace Gopkg.Telegram

open Lts

variable {F : Type} {h : HandlerSet F} {w : World F} {pre post : List (Proc F)} {p p' q : Proc F}

def World.Known (w : World F) (f : Nat) : Prop :=
  foundFlow (.ok w.store) = some f ∨ (∃ p ∈ w.procs, p.read = some f) ∨ f ∈ w.paid

/-- The handler clears the state and returns. -/
def Proc.Clearing (p : Proc F) : Prop := ∃ r, p.prog = .call .stateClear fun _ => .ret r

structure Ledger (w : World F) : Prop where
  disciplined : ∀ p ∈ w.procs, Disciplined p.own p.read p.prog
  fresh : ∀ p ∈ w.procs, p.own < w.nextFlow
  distinct : w.procs.Pairwise fun p q => p.own ≠ q.own
  known : ∀ f, w.Known f → f < w.nextFlow ∧ ∀ p ∈ w.procs, p.own ≠ f
  exclusive : w.procs.Pairwise fun p q => ∀ f, p.read = some f → q.read ≠ some f
  settled : ∀ f ∈ w.paid, (foundFlow (.ok w.store) ≠ some f ∧ ∀ p ∈ w.procs, p.read ≠ some f) ∨
    ∃ p ∈ w.procs, p.read = some f ∧ p.Clearing
  once : w.paid.Nodup

theorem Ledger.init : Ledger (World.init : World F) where
  disciplined := by simp [World.init]
  fresh := by simp [World.init]
  distinct := .nil
  known := by simp [World.init, World.Known, foundFlow]
  exclusive := .nil
  settled := by simp [World.init]
  once := .nil

theorem Proc.resume_sublist : List.Sublist p.resume [p] := by
  unfold Proc.resume
  split
  · exact List.nil_sublist _
  · exact .refl _

theorem Proc.Clearing.resume_eq (hp : p.Clearing) : p.resume = [p] := by
  obtain ⟨r, hr⟩ := hp
  simp only [Proc.resume, hr]

theorem resume_sublist_procs : List.Sublist (pre ++ p.resume ++ post) (pre ++ p :: post) := by
  rw [List.append_assoc]
  exact (List.Sublist.append_left (.append_right Proc.resume_sublist post) pre)

theorem mem_others (hq : q ∈ pre ++ p.resume ++ post) : q ∈ pre ++ post ∨ (q = p ∧ p.resume ≠ []) := by
  simp only [List.mem_append] at hq ⊢
  rcases hq with (hq | hq) | hq
  · exact .inl (.inl hq)
  · exact .inr ⟨by simpa using Proc.resume_sublist.subset hq, List.ne_nil_of_mem hq⟩
  · exact .inl (.inr hq)

theorem exclusive_symm (hpq : ∀ f, p.read = some f → q.read ≠ some f) :
    ∀ f, q.read = some f → p.read ≠ some f := fun f hq hp => hpq f hp hq

/-! ## One operation -/

/-- What an operation of the handler `p`, which becomes `p'`, may do to the store and to the paid
conversations. -/
structure Allowed (w : World F) (pre post : List (Proc F)) (p p' : Proc F)
    (store : Option ConversationState) (paid : List Nat) : Prop where
  own : p'.own = p.own
  disciplined : Disciplined p'.own p'.read p'.prog
  reads : ∀ f, p'.read = some f → p.read = some f ∨
    (foundFlow (.ok w.store) = some f ∧ ∀ q ∈ pre ++ post, q.read ≠ some f)
  writes : ∀ f, foundFlow (.ok store) = some f → foundFlow (.ok w.store) = some f ∨ p.read = some f ∨
    (f = p.own ∧ p'.resume = [])
  pays : ∀ f ∈ paid, f ∈ w.paid ∨ (p.read = some f ∧ p'.read = some f ∧ p'.Clearing)
  cleared : p.Clearing → ∀ f ∈ w.paid, p.read = some f → foundFlow (.ok store) ≠ some f ∧ p'.resume = []
  once : paid.Nodup

variable {store : Option ConversationState} {paid : List Nat}

theorem Ledger.others (hl : Ledger w) (hp : w.procs = pre ++ p :: post) :
    (∀ q ∈ pre ++ post, q ∈ w.procs ∧ p.own ≠ q.own ∧ ∀ f, p.read = some f → q.read ≠ some f) ∧
      p ∈ w.procs := by
  have hd := (List.pairwise_middle (fun h => h.symm)).mp (hp ▸ hl.distinct)
  have he := (List.pairwise_middle exclusive_symm).mp (hp ▸ hl.exclusive)
  refine ⟨fun q hq => ⟨?_, (List.pairwise_cons.mp hd).1 q hq, (List.pairwise_cons.mp he).1 q hq⟩, ?_⟩
  · rw [hp]
    simp only [List.mem_append, List.mem_cons] at hq ⊢
    exact hq.elim .inl fun h => .inr (.inr h)
  · simp [hp]

/-- A paid conversation that has been left by everyone stays so. -/
theorem Ledger.settled_left (hl : Ledger w) (hp : w.procs = pre ++ p :: post)
    (ha : Allowed w pre post p p' store paid) {f : Nat} (hf : f ∈ w.paid)
    (hstore : foundFlow (.ok w.store) ≠ some f) (hread : ∀ q ∈ w.procs, q.read ≠ some f) :
    foundFlow (.ok store) ≠ some f ∧ ∀ q ∈ pre ++ p'.resume ++ post, q.read ≠ some f := by
  obtain ⟨ho, hmem⟩ := hl.others hp
  constructor
  · intro hs
    rcases ha.writes f hs with h | h | ⟨rfl, _⟩
    · exact hstore h
    · exact hread p hmem h
    · exact (hl.known _ (.inr (.inr hf))).2 p hmem rfl
  · intro q hq
    rcases mem_others hq with hq | ⟨rfl, _⟩
    · exact hread q (ho q hq).1
    · intro h
      rcases ha.reads f h with h | ⟨h, _⟩
      · exact hread p hmem h
      · exact hstore h

theorem Ledger.settled_step (hl : Ledger w) (hp : w.procs = pre ++ p :: post)
    (ha : Allowed w pre post p p' store paid) {f : Nat} (hf : f ∈ paid) :
    (foundFlow (.ok store) ≠ some f ∧ ∀ q ∈ pre ++ p'.resume ++ post, q.read ≠ some f) ∨
      ∃ q ∈ pre ++ p'.resume ++ post, q.read = some f ∧ q.Clearing := by
  obtain ⟨ho, hmem⟩ := hl.others hp
  rcases ha.pays f hf with hf | ⟨_, hr, hc⟩
  · rcases hl.settled f hf with ⟨hs, hr⟩ | ⟨q, hq, hr, hc⟩
    · exact .inl (hl.settled_left hp ha hf hs hr)
    · rw [hp] at hq
      rcases List.mem_append.mp hq with hq | hq
      · exact .inr ⟨q, by simp [hq], hr, hc⟩
      · rcases List.mem_cons.mp hq with rfl | hq
        · -- the handler that paid clears the state, and no other handler has the conversation
          obtain ⟨hs, hnil⟩ := ha.cleared hc f hf hr
          refine .inl ⟨hs, fun q' hq' => ?_⟩
          rcases mem_others hq' with hq' | ⟨_, hne⟩
          · exact (ho q' hq').2.2 f hr
          · exact absurd hnil hne
        · exact .inr ⟨q, by simp [hq], hr, hc⟩
  · exact .inr ⟨p', by simp [hc.resume_eq], hr, hc⟩

theorem Ledger.known_step (hl : Ledger w) (hp : w.procs = pre ++ p :: post)
    (ha : Allowed w pre post p p' store paid) {f : Nat}
    (hk : World.Known { w with store := store, paid := paid, procs := pre ++ p'.resume ++ post } f) :
    f < w.nextFlow ∧ ∀ q ∈ pre ++ p'.resume ++ post, q.own ≠ f := by
  obtain ⟨ho, hmem⟩ := hl.others hp
  -- what was known before is known to be nobody's own
  have hold : w.Known f → f < w.nextFlow ∧ ∀ q ∈ pre ++ p'.resume ++ post, q.own ≠ f := by
    intro hk
    obtain ⟨hlt, hne⟩ := hl.known f hk
    refine ⟨hlt, fun q hq => ?_⟩
    rcases mem_others hq with hq | ⟨rfl, _⟩
    · exact hne q (ho q hq).1
    · rw [ha.own]; exact hne p hmem
  have hread : p.read = some f → w.Known f := fun h => .inr (.inl ⟨p, hmem, h⟩)
  rcases hk with hs | ⟨q, hq, hr⟩ | hf
  · rcases ha.writes f hs with h | h | ⟨rfl, hnil⟩
    · exact hold (.inl h)
    · exact hold (hread h)
    · refine ⟨hl.fresh p hmem, fun q hq => ?_⟩
      rcases mem_others hq with hq | ⟨_, hne⟩
      · exact (ho q hq).2.1.symm
      · exact absurd hnil hne
  · rcases mem_others hq with hq | ⟨rfl, _⟩
    · exact hold (.inr (.inl ⟨q, (ho q hq).1, hr⟩))
    · rcases ha.reads f hr with h | ⟨h, _⟩
      · exact hold (hread h)
      · exact hold (.inl h)
  · rcases ha.pays f hf with h | ⟨h, _⟩
    · exact hold (.inr (.inr h))
    · exact hold (hread h)

theorem Ledger.allowed (hl : Ledger w) (hp : w.procs = pre ++ p :: post)
    (ha : Allowed w pre post p p' store paid) :
    Ledger { w with store := store, paid := paid, procs := pre ++ p'.resume ++ post } where
  disciplined := by
    intro q hq
    rcases mem_others hq with hq | ⟨rfl, _⟩
    · exact hl.disciplined q ((hl.others hp).1 q hq).1
    · exact ha.disciplined
  fresh := by
    intro q hq
    rcases mem_others hq with hq | ⟨rfl, _⟩
    · exact hl.fresh q ((hl.others hp).1 q hq).1
    · rw [ha.own]; exact hl.fresh p (hl.others hp).2
  distinct := by
    have hd := List.pairwise_cons.mp ((List.pairwise_middle (fun h => h.symm)).mp (hp ▸ hl.distinct))
    refine List.Pairwise.sublist resume_sublist_procs ((List.pairwise_middle (fun h => h.symm)).mpr ?_)
    exact List.pairwise_cons.mpr ⟨fun q hq => by rw [ha.own]; exact hd.1 q hq, hd.2⟩
  known := fun _ hk => hl.known_step hp ha hk
  exclusive := by
    have he := List.pairwise_cons.mp ((List.pairwise_middle exclusive_symm).mp (hp ▸ hl.exclusive))
    refine List.Pairwise.sublist resume_sublist_procs ((List.pairwise_middle exclusive_symm).mpr ?_)
    refine List.pairwise_cons.mpr ⟨fun q hq f hr => ?_, he.2⟩
    rcases ha.reads f hr with h | ⟨_, h⟩
    · exact he.1 q hq f h
    · exact h q hq
  settled := fun _ hf => hl.settled_step hp ha hf
  once := ha.once

/-! ## The operations -/

section Operations

variable {op : Op F} {next : Ans op → Call F (Result F)} {own : Nat} {read : Option Nat} {done : Bool}

theorem not_clearing (hop : op ≠ .stateClear) : ¬ Proc.Clearing ⟨.call op next, own, read⟩ := by
  rintro ⟨r, hr⟩
  cases hr
  exact hop rfl

theorem Ledger.quiet (hl : Ledger w) (hp : w.procs = pre ++ ⟨.call op next, own, read⟩ :: post) (a : Ans op)
    (hread : readAfter read op a = read) (hop : op ≠ .stateClear) :
    Ledger { w with procs := pre ++ Proc.resume ⟨next a, own, readAfter read op a⟩ ++ post } := by
  have hd := (hl.disciplined _ (hl.others hp).2).2 a
  have ha : Allowed w pre post ⟨.call op next, own, read⟩ ⟨next a, own, readAfter read op a⟩ w.store w.paid :=
    ⟨rfl, hd, fun f hf => .inl (hread.symm.trans hf), fun f hf => .inl hf, fun f hf => .inl hf,
      fun hc => absurd hc (not_clearing hop), hl.once⟩
  exact hl.allowed hp ha

end Operations

section States

variable {own : Nat} {read : Option Nat} {done : Bool}

theorem Ledger.get {next : Ans (.stateGet : Op F) → Call F (Result F)} (hl : Ledger w)
    (hp : w.procs = pre ++ ⟨.call .stateGet next, own, read⟩ :: post)
    (a : Except Unit (Option ConversationState)) (ha : Answers w.store (.stateGet : Op F) done a)
    (ho : (Event.performed pre.length .stateGet done a : Event F).Orderly w) :
    Ledger { w with procs := pre ++ Proc.resume ⟨next a, own, foundFlow a⟩ ++ post } := by
  have hd := (hl.disciplined _ (hl.others hp).2).2 a
  have hfound : ∀ f, foundFlow a = some f → foundFlow (.ok w.store) = some f := by
    intro f hf
    cases a with
    | error _ => cases hf
    | ok cs => rw [← ha.2]; exact hf
  have hothers : w.procs.eraseIdx pre.length = pre ++ post := by
    simp [hp, List.eraseIdx_append_of_length_le]
  have hal : Allowed w pre post ⟨.call .stateGet next, own, read⟩ ⟨next a, own, foundFlow a⟩ w.store w.paid :=
    ⟨rfl, hd, fun f hf => .inr ⟨hfound f hf, fun q hq => ho f hf q (hothers ▸ hq)⟩, fun f hf => .inl hf,
      fun f hf => .inl hf, fun hc => absurd hc (not_clearing (by simp)), hl.once⟩
  exact hl.allowed hp hal

theorem Ledger.set {cs : ConversationState} {next : Ans (.stateSet cs : Op F) → Call F (Result F)}
    (hl : Ledger w) (hp : w.procs = pre ++ ⟨.call (.stateSet cs) next, own, read⟩ :: post) (a : Bool) :
    Ledger { w.effect (.stateSet cs) done with
      procs := pre ++ Proc.resume ⟨next a, own, read⟩ ++ post } := by
  obtain ⟨hrule, hd⟩ := hl.disciplined _ (hl.others hp).2
  cases done with
  | false => exact hl.quiet hp a rfl (by simp)
  | true =>
      have hal : Allowed w pre post ⟨.call (.stateSet cs) next, own, read⟩ ⟨next a, own, read⟩
          (some cs) w.paid := by
        refine ⟨rfl, hd a, fun f hf => .inl hf, fun f hf => .inr ?_, fun f hf => .inl hf,
          fun hc => absurd hc (not_clearing (by simp)), hl.once⟩
        rcases hrule f hf with h | ⟨h, hret⟩
        · exact .inl h
        · obtain ⟨r, hr⟩ := hret a
          exact .inr ⟨h, by simp [Proc.resume, hr]⟩
      exact hl.allowed hp hal

theorem Ledger.clear {next : Ans (.stateClear : Op F) → Call F (Result F)} (hl : Ledger w)
    (hp : w.procs = pre ++ ⟨.call .stateClear next, own, read⟩ :: post) (a : Bool)
    (ho : (Event.performed pre.length .stateClear done a : Event F).Orderly w) :
    Ledger { w.effect .stateClear done with
      procs := pre ++ Proc.resume ⟨next a, own, read⟩ ++ post } := by
  have hd := (hl.disciplined _ (hl.others hp).2).2 a
  have hget : w.procs[pre.length]? = some ⟨.call .stateClear next, own, read⟩ := by simp [hp]
  have hret : Proc.Clearing ⟨.call .stateClear next, own, read⟩ →
      Proc.resume ⟨next a, own, read⟩ = [] := by
    rintro ⟨r, hr⟩
    cases hr
    rfl
  cases done with
  | false =>
      have hal : Allowed w pre post ⟨.call .stateClear next, own, read⟩ ⟨next a, own, read⟩ w.store w.paid :=
        ⟨rfl, hd, fun f hf => .inl hf, fun f hf => .inl hf, fun f hf => .inl hf,
          fun _ f hf hr => (nomatch ho _ hget f hr hf), hl.once⟩
      exact hl.allowed hp hal
  | true =>
      have hal : Allowed w pre post ⟨.call .stateClear next, own, read⟩ ⟨next a, own, read⟩ none w.paid :=
        ⟨rfl, hd, fun f hf => .inl hf, fun f hf => (nomatch hf), fun f hf => .inl hf,
          fun hc f _ _ => ⟨nofun, hret hc⟩, hl.once⟩
      exact hl.allowed hp hal

theorem Ledger.deposit {f : Nat} {token : String} {req : AdminDepositRequest F}
    {next : Ans (.adminDeposit f token req : Op F) → Call F (Result F)} (hl : Ledger w)
    (hp : w.procs = pre ++ ⟨.call (.adminDeposit f token req) next, own, read⟩ :: post)
    (a : Except GatewayErr TransactionResponse)
    (ho : (Event.performed pre.length (.adminDeposit f token req) done a).Orderly w) :
    Ledger { w.effect (.adminDeposit f token req) done with
      procs := pre ++ Proc.resume ⟨next a, own, read⟩ ++ post } := by
  obtain ⟨hothers, hmem⟩ := hl.others hp
  obtain ⟨⟨hread, hclear⟩, hd⟩ := hl.disciplined _ hmem
  cases done with
  | false => exact hl.quiet hp a rfl (by simp)
  | true =>
      -- the conversation has not been paid yet: whoever paid would hold it and be clearing
      have hnew : f ∉ w.paid := by
        intro hf
        rcases hl.settled f hf with ⟨_, hr⟩ | ⟨q, hq, hr, hc⟩
        · exact hr _ hmem hread
        · rw [hp] at hq
          rcases List.mem_append.mp hq with hq | hq
          · exact (hothers q (List.mem_append_left _ hq)).2.2 f hread hr
          · rcases List.mem_cons.mp hq with rfl | hq
            · exact not_clearing (by simp) hc
            · exact (hothers q (List.mem_append_right _ hq)).2.2 f hread hr
      obtain ⟨resp, rfl⟩ : ∃ resp, a = .ok resp := by
        cases a with
        | error _ => exact nomatch ho rfl
        | ok resp => exact ⟨resp, rfl⟩
      have hal : Allowed w pre post ⟨.call (.adminDeposit f token req) next, own, read⟩
          ⟨next (.ok resp), own, read⟩ w.store (f :: w.paid) := by
        refine ⟨rfl, hd _, fun g hg => .inl hg, fun g hg => .inl hg, fun g hg => ?_,
          fun hc => absurd hc (not_clearing (by simp)), List.nodup_cons.mpr ⟨hnew, hl.once⟩⟩
        rcases List.mem_cons.mp hg with rfl | hg
        · exact .inr ⟨hread, hread, hclear resp⟩
        · exact .inl hg
      exact hl.allowed hp hal

end States

/-! ## Runs -/

theorem Ledger.arrive (hl : Ledger w) (m : Incoming) :
    Ledger { w with
      procs := w.procs ++ [⟨handler h w.nextFlow m, w.nextFlow, none⟩], nextFlow := w.nextFlow + 1 } where
  disciplined := by
    simp only [List.forall_mem_append, List.forall_mem_singleton]
    exact ⟨hl.disciplined, disciplined_handler m⟩
  fresh := by
    simp only [List.forall_mem_append, List.forall_mem_singleton]
    exact ⟨fun p hp => Nat.lt_succ_of_lt (hl.fresh p hp), Nat.lt_succ_self _⟩
  distinct := by
    refine List.pairwise_append.mpr ⟨hl.distinct, List.pairwise_singleton _ _, ?_⟩
    intro p hp q hq
    rw [List.mem_singleton.mp hq]
    exact Nat.ne_of_lt (hl.fresh p hp)
  known := by
    intro f hk
    have hk' : w.Known f := by
      simpa only [World.Known, List.mem_append, List.mem_singleton, or_and_right, exists_or,
        exists_eq_left, reduceCtorEq, or_false] using hk
    obtain ⟨hlt, hne⟩ := hl.known f hk'
    simp only [List.forall_mem_append, List.forall_mem_singleton]
    exact ⟨Nat.lt_succ_of_lt hlt, hne, (Nat.ne_of_lt hlt).symm⟩
  exclusive := by
    refine List.pairwise_append.mpr ⟨hl.exclusive, List.pairwise_singleton _ _, ?_⟩
    intro p _ q hq f _
    rw [List.mem_singleton.mp hq]
    nofun
  settled := by
    intro f hf
    rcases hl.settled f hf with ⟨hs, hr⟩ | ⟨p, hp, hr⟩
    · refine .inl ⟨hs, ?_⟩
      simp only [List.forall_mem_append, List.forall_mem_singleton]
      exact ⟨hr, nofun⟩
    · exact .inr ⟨p, List.mem_append_left _ hp, hr⟩
  once := hl.once

theorem Ledger.expire (hl : Ledger w) : Ledger { w with store := none } where
  disciplined := hl.disciplined
  fresh := hl.fresh
  distinct := hl.distinct
  known := by
    rintro f (hs | hk)
    · exact nomatch hs
    · exact hl.known f (.inr hk)
  exclusive := hl.exclusive
  settled := by
    intro f hf
    rcases hl.settled f hf with ⟨_, hr⟩ | hc
    · exact .inl ⟨nofun, hr⟩
    · exact .inr hc
  once := hl.once

theorem Ledger.step {evs : List (Event F)} {w' : World F} (hl : Ledger w) (hs : Step h w evs w')
    (ho : Orderly w evs w') : Ledger w' := by
  cases hs with
  | W_Arrive m => exact hl.arrive m
  | @W_Perform pre post op next own read done a hp ha =>
      have ho := ho _ (List.mem_singleton.mpr rfl)
      cases op with
      | stateGet => exact hl.get hp a ha ho
      | stateSet cs => exact hl.set hp a
      | stateClear => exact hl.clear hp a ho
      | adminDeposit f token req => exact hl.deposit hp a ho
      | getSession => exact hl.quiet hp a rfl (by simp)
      | getValidToken => exact hl.quiet hp a rfl (by simp)
      | newUUID => exact hl.quiet hp a rfl (by simp)
      | replyToTicket => exact hl.quiet hp a rfl (by simp)
      | getCurrencyList token => exact hl.quiet hp a rfl (by simp)
      | adminUpdateCurrency token code rate => exact hl.quiet hp a rfl (by simp)
      | askAI token req => exact hl.quiet hp a rfl (by simp)
  | W_Expire => exact hl.expire

theorem Ledger.run {t : List (Event F)} {w : World F} (hr : Run (Restrict (Step h) Orderly) .init t w) :
    Ledger w :=
  hr.stateInvariant .init fun _ _ _ hl hs => hl.step hs.1 hs.2

end Gopkg.Telegram
