import Gopkg.Lts.Program
import Gopkg.Lts.Run

/-!
# Programs over a shared state

Several programs run at once over one state, each operation of each of them being one step. What holds of them is
proved program by program: a program may rely on what all others do to the state, and has to guarantee as much to them.
-/

namespace Gopkg.Lts

variable {σ L Op α : Type} {Ans : Op → Type}

/-- What happens to the shared state. A program carries a label, which says what is known of it. -/
structure System (σ L Op : Type) (Ans : Op → Type) (α : Type) where
  /-- A program begins. -/
  Start : σ → L → Program Op Ans α → σ → Prop
  /-- An operation of a program gets its answer. -/
  Act : σ → L → (op : Op) → Ans op → σ → L → Prop
  /-- A program comes to a part that has a label of its own, which it then takes. -/
  Enter : L → Program Op Ans α → L → Prop
  /-- The state changes by itself. -/
  Env : σ → σ → Prop

structure Pool (σ L Op : Type) (Ans : Op → Type) (α : Type) where
  shared : σ
  procs : List (L × Program Op Ans α)

namespace System

variable {sys : System σ L Op Ans α}

inductive Step (sys : System σ L Op Ans α) :
    Pool σ L Op Ans α → List (L × (op : Op) × Ans op) → Pool σ L Op Ans α → Prop
  | S_Start {s s' : σ} {procs : List (L × Program Op Ans α)} {l : L} {p : Program Op Ans α} : sys.Start s l p s' →
      Step sys ⟨s, procs⟩ [] ⟨s', procs ++ [(l, p)]⟩
  | S_Act {s s' : σ} {procs : List (L × Program Op Ans α)} {i : Nat} {l l' : L} {op : Op}
      {next : Ans op → Program Op Ans α} {a : Ans op} : procs[i]? = some (l, .call op next) →
      (∀ l', ¬ sys.Enter l (.call op next) l') → sys.Act s l op a s' l' →
      Step sys ⟨s, procs⟩ [(l, ⟨op, a⟩)] ⟨s', procs.set i (l', next a)⟩
  | S_Enter {s : σ} {procs : List (L × Program Op Ans α)} {i : Nat} {l l' : L} {p : Program Op Ans α} :
      procs[i]? = some (l, p) → sys.Enter l p l' → Step sys ⟨s, procs⟩ [] ⟨s, procs.set i (l', p)⟩
  | S_Env {s s' : σ} {procs : List (L × Program Op Ans α)} : sys.Env s s' → Step sys ⟨s, procs⟩ [] ⟨s', procs⟩

/-- The system in which only the operations that meet the condition `C` happen. -/
def restrict (sys : System σ L Op Ans α) (C : σ → L → (op : Op) → Ans op → σ → Prop) : System σ L Op Ans α :=
  { sys with Act := fun s l op a s' l' => sys.Act s l op a s' l' ∧ C s l op a s' }

end System

/-! ## Relying and guaranteeing -/

/-- What a program may rely on and what it guarantees: the invariant `I` of the state, the changes `R` that the others
make, and the changes `G` that a program of a label makes. -/
structure Contract (σ L : Type) where
  I : σ → Prop
  R : σ → σ → Prop
  G : L → σ → σ → Prop

structure Contract.Closed (K : Contract σ L) : Prop where
  refl : ∀ s, K.R s s
  trans : ∀ {s s₁ s₂}, K.R s s₁ → K.R s₁ s₂ → K.R s s₂
  guaranteed : ∀ {l s s'}, K.G l s s' → K.R s s'

/-- The program keeps to the contract from the state `s` on, whatever the others do between its operations, and what it
returns meets `Q`. -/
def Safe (Act : σ → L → (op : Op) → Ans op → σ → L → Prop) (K : Contract σ L) (Q : L → σ → α → Prop) :
    Program Op Ans α → L → σ → Prop
  | .ret a, l, s => Q l s a
  | .call op next, l, s => ∀ s₁, K.R s s₁ → K.I s₁ → ∀ a s₂ l₂, Act s₁ l op a s₂ l₂ →
      K.I s₂ ∧ K.G l s₁ s₂ ∧ Safe Act K Q (next a) l₂ s₂

variable {Act : σ → L → (op : Op) → Ans op → σ → L → Prop} {K : Contract σ L} {Q : L → σ → α → Prop}
  {p : Program Op Ans α} {l : L} {s s' : σ}

theorem Safe.stable (hK : K.Closed) (hQ : ∀ l s s' a, K.R s s' → Q l s a → Q l s' a) (h : Safe Act K Q p l s)
    (hR : K.R s s') : Safe Act K Q p l s' := by
  cases p with
  | ret a => exact hQ l s s' a hR h
  | call op next => exact fun s₁ hR₁ => h s₁ (hK.trans hR hR₁)

/-- A program that goes on with the result of another. -/
theorem Safe.bind {β : Type} {p : Program Op Ans β} {f : β → Program Op Ans α}
    (h : Safe Act K (fun l s b => Safe Act K Q (f b) l s) p l s) : Safe Act K Q (p.bind f) l s := by
  induction p generalizing l s with
  | ret b => exact h
  | call op next ih =>
      intro s₁ hR hI a s₂ l₂ hact
      obtain ⟨hI₂, hG, hnext⟩ := h s₁ hR hI a s₂ l₂ hact
      exact ⟨hI₂, hG, ih a hnext⟩

theorem Safe.mono {Q' : L → σ → α → Prop} (h : Safe Act K Q p l s) (hQ : ∀ l s a, Q l s a → Q' l s a) :
    Safe Act K Q' p l s := by
  induction p generalizing l s with
  | ret a => exact hQ l s a h
  | call op next ih =>
      intro s₁ hR hI a s₂ l₂ hact
      obtain ⟨hI₂, hG, hnext⟩ := h s₁ hR hI a s₂ l₂ hact
      exact ⟨hI₂, hG, ih a hnext⟩

namespace System

variable {sys : System σ L Op Ans α} {w w' : Pool σ L Op Ans α} {t evs : List (L × (op : Op) × Ans op)}

/-- Every program that begins keeps to the contract, and so does the state by itself. -/
structure Meets (sys : System σ L Op Ans α) (K : Contract σ L) (Q : L → σ → α → Prop) : Prop where
  start : ∀ {s s' l p}, K.I s → sys.Start s l p s' → K.I s' ∧ K.R s s' ∧ Safe sys.Act K Q p l s'
  enter : ∀ {s l l' p}, Safe sys.Act K Q p l s → sys.Enter l p l' → Safe sys.Act K Q p l' s
  env : ∀ {s s'}, K.I s → sys.Env s s' → K.I s' ∧ K.R s s'
  result : ∀ l s s' a, K.R s s' → Q l s a → Q l s' a

/-- The invariant holds, and every program is safe. -/
def Kept (sys : System σ L Op Ans α) (K : Contract σ L) (Q : L → σ → α → Prop) (w : Pool σ L Op Ans α) : Prop :=
  K.I w.shared ∧ ∀ x ∈ w.procs, Safe sys.Act K Q x.2 x.1 w.shared

theorem Kept.step (hK : K.Closed) (hm : sys.Meets K Q) (h : sys.Kept K Q w) (hs : sys.Step w evs w') :
    sys.Kept K Q w' ∧ ∀ ev ∈ evs, K.G ev.1 w.shared w'.shared := by
  obtain ⟨hI, hsafe⟩ := h
  cases hs with
  | S_Start hstart =>
      obtain ⟨hI', hR, hnew⟩ := hm.start hI hstart
      refine ⟨⟨hI', fun x hx => ?_⟩, nofun⟩
      rcases List.mem_append.mp hx with hx | hx
      · exact (hsafe x hx).stable hK hm.result hR
      · rw [List.mem_singleton.mp hx]
        exact hnew
  | S_Act hi _ hact =>
      obtain ⟨hI', hG, hnext⟩ := hsafe _ (List.mem_of_getElem? hi) _ (hK.refl _) hI _ _ _ hact
      refine ⟨⟨hI', fun x hx => ?_⟩, fun ev hev => ?_⟩
      · rcases List.mem_or_eq_of_mem_set hx with hx | rfl
        · exact (hsafe x hx).stable hK hm.result (hK.guaranteed hG)
        · exact hnext
      · rw [List.mem_singleton.mp hev]
        exact hG
  | S_Enter hi henter =>
      refine ⟨⟨hI, fun x hx => ?_⟩, nofun⟩
      rcases List.mem_or_eq_of_mem_set hx with hx | rfl
      · exact hsafe x hx
      · have hold := hsafe _ (List.mem_of_getElem? hi)
        exact hm.enter hold henter
  | S_Env henv =>
      obtain ⟨hI', hR⟩ := hm.env hI henv
      exact ⟨⟨hI', fun x hx => (hsafe x hx).stable hK hm.result hR⟩, nofun⟩

/-- The rule of relying and guaranteeing. -/
theorem Kept.run (hK : K.Closed) (hm : sys.Meets K Q) (hI : K.I s) (hr : Run sys.Step ⟨s, []⟩ t w) : sys.Kept K Q w :=
  hr.stateInvariant (I := sys.Kept K Q) ⟨hI, nofun⟩ fun _ _ _ h hs => (h.step hK hm hs).1

end System

end Gopkg.Lts
