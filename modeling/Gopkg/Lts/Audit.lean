import Gopkg.Lts.Pool

/-!
# Programs whose operations are recorded

Several programs run over one state, and every operation is put on record with its answer and with the label of the
program. A policy says which operations a program may perform after what is on record. It is kept in every interleaving
if each program, alone, performs allowed operations only, and what it knows of an answer is what the record vouches for.
-/

namespace Gopkg.Lts

variable {σ L Op α β : Type} {Ans : Op → Type}

abbrev Log (L Op : Type) (Ans : Op → Type) := List (L × (op : Op) × Ans op)

structure Recorded (σ L Op : Type) (Ans : Op → Type) where
  state : σ
  log : Log L Op Ans

/-- What happens to the state: programs begin, operations are answered, and the state changes by itself. -/
structure Service (σ L Op : Type) (Ans : Op → Type) (α : Type) where
  Start : σ → L → Program Op Ans α → σ → Prop
  Answers : σ → (op : Op) → Ans op → σ → Prop
  Env : σ → σ → Prop

namespace Service

variable {S : Service σ L Op Ans α}

inductive Act (S : Service σ L Op Ans α) :
    Recorded σ L Op Ans → L → (op : Op) → Ans op → Recorded σ L Op Ans → L → Prop
  | A_Answer {r : Recorded σ L Op Ans} {l : L} {op : Op} {a : Ans op} {s : σ} : S.Answers r.state op a s →
      Act S r l op a ⟨s, r.log ++ [(l, ⟨op, a⟩)]⟩ l

/-- The service with its record. -/
def system (S : Service σ L Op Ans α) : System (Recorded σ L Op Ans) L Op Ans α where
  Start r l p r' := S.Start r.state l p r'.state ∧ r'.log = r.log
  Act := S.Act
  Enter _ _ _ := False
  Env r r' := S.Env r.state r'.state ∧ r'.log = r.log

/-- The record is the history of the run. -/
theorem log_eq_trace {s : σ} {t : Log L Op Ans} {w : Pool (Recorded σ L Op Ans) L Op Ans α}
    (hr : Run S.system.Step ⟨⟨s, []⟩, []⟩ t w) : w.shared.log = t := by
  refine hr.invariant (I := fun t w => w.shared.log = t) rfl ?_
  rintro t w evs w' rfl hs
  cases hs with
  | S_Start hstart => exact hstart.2.trans (List.append_nil _).symm
  | S_Act _ _ hact =>
      obtain ⟨_⟩ := hact
      rfl
  | S_Enter _ henter => exact henter.elim
  | S_Env henv => exact henv.2.trans (List.append_nil _).symm

theorem step_start {r : Recorded σ L Op Ans} {procs : List (L × Program Op Ans α)} (l : L) {p : Program Op Ans α}
    {s : σ} (hstart : S.Start r.state l p s) : S.system.Step ⟨r, procs⟩ [] ⟨⟨s, r.log⟩, procs ++ [(l, p)]⟩ :=
  .S_Start ⟨hstart, rfl⟩

/-- An operation of the program at the place `i`. -/
theorem step_answer {r : Recorded σ L Op Ans} {procs : List (L × Program Op Ans α)} {l : L} (i : Nat) (op : Op)
    (a : Ans op) {next : Ans op → Program Op Ans α} {s : σ} (hi : procs[i]? = some (l, .call op next))
    (hact : S.Answers r.state op a s) : S.system.Step ⟨r, procs⟩ [(l, ⟨op, a⟩)]
      ⟨⟨s, r.log ++ [(l, ⟨op, a⟩)]⟩, procs.set i (l, next a)⟩ :=
  .S_Act hi (fun _ h => h) (.A_Answer hact)

end Service

/-! ## Policies -/

/-- `Allows` is the policy, `Inv` what it makes of the state, and `Known` what can be said of an answer then. -/
structure Policy (σ L Op : Type) (Ans : Op → Type) where
  Allows : Log L Op Ans → L → Op → Prop
  Inv : Log L Op Ans → σ → Prop
  Known : Log L Op Ans → (op : Op) → Ans op → Prop

structure Policy.Sound (P : Policy σ L Op Ans) (S : Service σ L Op Ans α) : Prop where
  mono : ∀ {log log' l op}, log ⊆ log' → P.Allows log l op → P.Allows log' l op
  answer : ∀ {log s l op a s'}, P.Inv log s → P.Allows log l op → S.Answers s op a s' →
    P.Inv (log ++ [(l, ⟨op, a⟩)]) s'
  learn : ∀ {log log' s op a s'}, P.Inv log s → S.Answers s op a s' → log ⊆ log' → P.Known log' op a
  env : ∀ {log s s'}, P.Inv log s → S.Env s s' → P.Inv log s'

section Rules

variable (P : Policy σ L Op Ans) (S : Service σ L Op Ans α)

structure Policy.Kept (r : Recorded σ L Op Ans) : Prop where
  allowed : Each (fun log e => P.Allows log e.1 e.2.1) r.log
  inv : P.Inv r.log r.state

/-- The record only grows. -/
def Policy.contract : Contract (Recorded σ L Op Ans) L where
  I := P.Kept
  R r r' := r.log ⊆ r'.log
  G _ r r' := r.log ⊆ r'.log

theorem Policy.contract_closed : P.contract.Closed where
  refl _ := List.Subset.refl _
  trans := List.Subset.trans
  guaranteed := id

/-- The program performs allowed operations only, and returns with `Q`. -/
def Policy.Obeys (Q : Recorded σ L Op Ans → β → Prop) (p : Program Op Ans β) (l : L) (r : Recorded σ L Op Ans) : Prop :=
  Safe S.Act P.contract (fun l' r b => l' = l ∧ Q r b) p l r

variable {P S} {Q : Recorded σ L Op Ans → β → Prop} {l : L} {r : Recorded σ L Op Ans}

theorem Policy.Obeys.ret {b : β} (h : Q r b) : P.Obeys S Q (.ret b) l r := ⟨rfl, h⟩

theorem Policy.Obeys.call (hP : P.Sound S) {p : Program Op Ans β} (op : Op) {next : Ans op → Program Op Ans β}
    (hp : p = .call op next) (hallowed : P.Allows r.log l op)
    (hnext : ∀ a r', r.log ⊆ r'.log → P.Kept r' → (l, ⟨op, a⟩) ∈ r'.log → P.Known r'.log op a →
      P.Obeys S Q (next a) l r') : P.Obeys S Q p l r := by
  subst hp
  rintro r₁ hsub hkept a r₂ l₂ ⟨hact⟩
  have hgrow : r₁.log ⊆ r₁.log ++ [(l, ⟨op, a⟩)] := List.subset_append_left _ _
  have hallowed₁ := hP.mono hsub hallowed
  have hkept₂ : P.Kept ⟨_, r₁.log ++ [(l, ⟨op, a⟩)]⟩ :=
    ⟨hkept.allowed.snoc hallowed₁, hP.answer hkept.inv hallowed₁ hact⟩
  refine ⟨hkept₂, hgrow, hnext a _ (List.Subset.trans hsub hgrow) hkept₂ ?_ (hP.learn hkept.inv hact hgrow)⟩
  exact List.mem_append_right _ List.mem_cons_self

theorem Policy.Obeys.bind {γ : Type} {R : Recorded σ L Op Ans → γ → Prop} {p : Program Op Ans β}
    {f : β → Program Op Ans γ} (h : P.Obeys S Q p l r) (hf : ∀ b r', Q r' b → P.Obeys S R (f b) l r') :
    P.Obeys S R (p.bind f) l r := by
  refine Safe.bind (Safe.mono h ?_)
  rintro _ r' b ⟨rfl, hQ⟩
  exact hf b r' hQ

theorem Policy.Obeys.imp {Q' : Recorded σ L Op Ans → β → Prop} {p : Program Op Ans β} (h : P.Obeys S Q p l r)
    (hQ : ∀ b r', Q r' b → Q' r' b) : P.Obeys S Q' p l r :=
  Safe.mono h fun _ r' b hb => ⟨hb.1, hQ b r' hb.2⟩

/-- The policy is kept in every run if every program that begins obeys it. -/
theorem Policy.audited (hP : P.Sound S) {s : σ} (h₀ : P.Inv [] s)
    (hstart : ∀ {log s l p s'}, P.Inv log s → S.Start s l p s' →
      P.Inv log s' ∧ P.Obeys S (fun _ _ => True) p l ⟨s', log⟩) {t : Log L Op Ans}
    {w : Pool (Recorded σ L Op Ans) L Op Ans α} (hr : Run S.system.Step ⟨⟨s, []⟩, []⟩ t w) :
    Each (fun log e => P.Allows log e.1 e.2.1) t ∧ P.Inv t w.shared.state := by
  have hmeets : S.system.Meets P.contract fun _ _ _ => True := by
    refine ⟨?_, fun _ h => h.elim, ?_, fun _ _ _ _ _ _ => trivial⟩
    · rintro ⟨s, log⟩ ⟨s', log'⟩ l p hkept ⟨hs, rfl⟩
      obtain ⟨hinv, hobeys⟩ := hstart hkept.inv hs
      exact ⟨⟨hkept.allowed, hinv⟩, List.Subset.refl _, Safe.mono hobeys fun _ _ _ _ => trivial⟩
    · rintro ⟨s, log⟩ ⟨s', log'⟩ hkept ⟨henv, rfl⟩
      exact ⟨⟨hkept.allowed, hP.env hkept.inv henv⟩, List.Subset.refl _⟩
  have hkept : P.Kept w.shared := (System.Kept.run P.contract_closed hmeets ⟨.nil, h₀⟩ hr).1
  rw [← Service.log_eq_trace hr]
  exact ⟨hkept.allowed, hkept.inv⟩

end Rules

end Gopkg.Lts
