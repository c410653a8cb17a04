import Mathlib.Data.List.Induction
import Gopkg.Voice.Lemmas.Reader

/-!
# What a read loop hands over

The items of the messages that were read, in order. Those that are not handed over are on their way, or were given up
because the context is done.
-/

namespace Gopkg.Voice

variable {μ β α ℓ V : Type} {L : ReadLoop μ β α ℓ} {proj : α → β} {v : ℓ} {arrived read : List μ} {got : List α}
  {done done' : Bool} {r r' : Reader μ β α ℓ V} {lost : List β}

/-! ## Messages -/

/-- What the messages are turned into, and the variables of the loop after them. -/
def ReadLoop.translate (L : ReadLoop μ β α ℓ) (v : ℓ) (ms : List μ) : List β × ℓ :=
  ms.foldl (fun st m => (st.1 ++ (L.handle st.2 m).2.toList, (L.handle st.2 m).1)) ([], v)

theorem ReadLoop.translate_snoc (L : ReadLoop μ β α ℓ) (v : ℓ) (ms : List μ) (m : μ) : L.translate v (ms ++ [m]) =
    ((L.translate v ms).1 ++ (L.handle (L.translate v ms).2 m).2.toList, (L.handle (L.translate v ms).2 m).1) := by
  simp [ReadLoop.translate]

theorem ReadLoop.translate_append (L : ReadLoop μ β α ℓ) (v : ℓ) (ms ms' : List μ) :
    (L.translate v ms).1 <+: (L.translate v (ms ++ ms')).1 := by
  induction ms' using List.reverseRecOn with
  | nil => simp
  | append_singleton ms' m ih =>
      rw [← List.append_assoc, L.translate_snoc]
      exact ih.trans (List.prefix_append _ _)

/-! ## The place of the reader -/

/-- What is read and not handed over; an item stands for what it was made from. -/
def ReaderPc.pending (proj : α → β) : ReaderPc β α V → List β
  | .preparing b bs => b :: bs
  | .emitting a bs => proj a :: bs
  | _ => []

theorem ReaderPc.pending_next (bs : List β) : (ReaderPc.next bs : ReaderPc β α V).pending proj = bs := by
  cases bs <;> rfl

/-! ## The law -/

/-- `arrived` are the messages that have come so far, and `got` the items that the receiver has taken. -/
structure Reading (L : ReadLoop μ β α ℓ) (proj : α → β) (v : ℓ) (arrived : List μ) (got : List α) (done : Bool)
    (r : Reader μ β α ℓ V) (read : List μ) (lost : List β) : Prop where
  messages : arrived = read ++ r.inbox
  vars : r.vars = (L.translate v read).2
  items : got.map proj ++ r.pc.pending proj ++ lost = (L.translate v read).1
  cancelled : lost = [] ∨ done = true ∧ r.pc.Leaving

namespace Reading

theorem fresh (L : ReadLoop μ β α ℓ) (proj : α → β) (v : ℓ) (done : Bool) :
    Reading L proj v [] [] done (Reader.fresh v : Reader μ β α ℓ V) [] [] where
  messages := rfl
  vars := rfl
  items := rfl
  cancelled := .inl rfl

/-- Nothing is lost before the reader leaves. -/
theorem lost_eq_nil (h : Reading L proj v arrived got done r read lost) (hpc : ¬ r.pc.Leaving) : lost = [] :=
  h.cancelled.resolve_right fun hk => hpc hk.2

/-- A step that leaves the inbox and the pending items alone. -/
theorem quiet (h : Reading L proj v arrived got done r read lost) (hinbox : r'.inbox = r.inbox)
    (hvars : r'.vars = r.vars) (hpending : r'.pc.pending proj = r.pc.pending proj)
    (hkept : done = true → r.pc.Leaving → done' = true ∧ r'.pc.Leaving) :
    Reading L proj v arrived got done' r' read lost where
  messages := by rw [hinbox]; exact h.messages
  vars := by rw [hvars]; exact h.vars
  items := by rw [hpending]; exact h.items
  cancelled := h.cancelled.imp_right fun hk => hkept hk.1 hk.2

theorem cancel (h : Reading L proj v arrived got done r read lost) (hdone : done = true → done' = true) :
    Reading L proj v arrived got done' r read lost :=
  h.quiet rfl rfl rfl fun hd hpc => ⟨hdone hd, hpc⟩

theorem start (h : Reading L proj v arrived got done r read lost) (hpc : r.pc = .idle) :
    Reading L proj v arrived got done r.start read lost := by
  refine h.quiet rfl rfl ?_ fun _ hleaving => ?_
  · rw [hpc]; rfl
  · rw [hpc] at hleaving; exact hleaving.elim

theorem close (h : Reading L proj v arrived got done r read lost) :
    Reading L proj v arrived got done r.close read lost :=
  h.quiet rfl rfl rfl fun hd hpc => ⟨hd, hpc⟩

theorem arrive (h : Reading L proj v arrived got done r read lost) (m : μ) :
    Reading L proj v (arrived ++ [m]) got done { r with inbox := r.inbox ++ [m] } read lost where
  messages := by rw [h.messages, List.append_assoc]
  vars := h.vars
  items := h.items
  cancelled := h.cancelled

/-- One more message is read. -/
theorem read_next {m : μ} {ms : List μ} (h : Reading L proj v arrived got done r read lost) (hpc : r.pc = .reading)
    (hinbox : r.inbox = m :: ms) (hrest : r'.inbox = ms) (hvars : r'.vars = (L.handle r.vars m).1)
    (hpending : r'.pc.pending proj = (L.handle r.vars m).2.toList) :
    Reading L proj v arrived got done r' (read ++ [m]) [] := by
  have hlost : lost = [] := h.lost_eq_nil (by rw [hpc]; exact id)
  have hitems := h.items
  rw [hpc, hlost, show (ReaderPc.reading : ReaderPc β α V).pending proj = [] from rfl, List.append_nil,
    List.append_nil] at hitems
  refine ⟨?_, ?_, ?_, .inl rfl⟩
  · rw [h.messages, hinbox, hrest, List.append_assoc]
    rfl
  · rw [hvars, L.translate_snoc, h.vars]
  · rw [hpending, L.translate_snoc, ← hitems, h.vars, List.append_nil]

/-- The reader leaves what is pending behind. -/
theorem drop (h : Reading L proj v arrived got done r read lost) (hinbox : r'.inbox = r.inbox)
    (hvars : r'.vars = r.vars) (hpc : r'.pc = .closingErrs) (hdone : done = true) :
    Reading L proj v arrived got done r' read (r.pc.pending proj ++ lost) where
  messages := by rw [hinbox]; exact h.messages
  vars := by rw [hvars]; exact h.vars
  items := by
    rw [hpc, ← h.items]
    simp [ReaderPc.pending]
  cancelled := .inr ⟨hdone, by rw [hpc]; trivial⟩

theorem tick {x : Option (Ending V)} (h : Reading L proj v arrived got done r read lost)
    (hprepare : ∀ b a, L.prepare b a → proj a = b) (htick : ReaderTick L done r x r') :
    ∃ read' lost', Reading L proj v arrived got done r' read' lost' := by
  cases htick with
  | R_Return hpc _ | R_Read hpc _ | R_Clean hpc _ _ | R_Failed hpc _ _ | R_Closed hpc _ | R_Put hpc _ =>
      refine ⟨read, lost, h.quiet rfl rfl ?_ fun _ hk => ?_⟩
      · rw [hpc]; rfl
      · rw [hpc] at hk; exact hk.elim
  | R_CloseErrs hpc | R_CloseItems hpc =>
      refine ⟨read, lost, h.quiet rfl rfl ?_ fun hd _ => ⟨hd, trivial⟩⟩
      rw [hpc]; rfl
  | R_Items hpc _ hinbox hhandle =>
      refine ⟨_, _, h.read_next hpc hinbox rfl ?_ ?_⟩
      · rw [hhandle]
      · rw [hhandle, ReaderPc.pending_next]; rfl
  | R_Stop hpc _ hinbox hhandle =>
      refine ⟨_, _, h.read_next hpc hinbox rfl ?_ ?_⟩
      · rw [hhandle]
      · rw [hhandle]; rfl
  | R_Prepare hpc hmade =>
      refine ⟨read, lost, h.quiet rfl rfl ?_ fun _ hk => ?_⟩
      · rw [hpc, ← hprepare _ _ hmade]; rfl
      · rw [hpc] at hk; exact hk.elim
  | R_PrepareDone _ hdone | R_EmitDone _ hdone => exact ⟨_, _, h.drop rfl rfl rfl hdone⟩

/-- The receiver takes an item. -/
theorem take {a : α} (h : Reading L proj v arrived got done r read lost) (hrecv : ReaderRecv r (.item a) r') :
    Reading L proj v arrived (got ++ [a]) done r' read lost := by
  cases hrecv with
  | @C_Item _ bs hpc =>
      refine ⟨h.messages, h.vars, ?_, .inl (h.lost_eq_nil (by rw [hpc]; exact id))⟩
      rw [ReaderPc.pending_next, ← h.items, hpc]
      simp [ReaderPc.pending]

/-- The receiver finds an error or a closed channel. -/
theorem recv {x : Recv α V} (h : Reading L proj v arrived got done r read lost) (hrecv : ReaderRecv r x r')
    (hitem : ∀ a, x ≠ .item a) : Reading L proj v arrived got done r' read lost := by
  cases hrecv with
  | C_Item _ => exact absurd rfl (hitem _)
  | C_Closed _ | C_Error _ | C_ErrorClosed _ _ => exact h.quiet rfl rfl rfl fun hd hpc => ⟨hd, hpc⟩

/-! ## What follows -/

/-- What was taken begins what all messages are turned into. -/
theorem taken_begins (h : Reading L proj v arrived got done r read lost) :
    got.map proj <+: (L.translate v arrived).1 := by
  rw [h.messages]
  refine List.IsPrefix.trans ?_ (L.translate_append v read r.inbox)
  rw [← h.items, List.append_assoc]
  exact List.prefix_append _ _

/-- Nothing is missing once everything is read and handed over. -/
theorem taken_all (h : Reading L proj v arrived got done r read lost) (hdone : done = false) (hinbox : r.inbox = [])
    (hpending : r.pc.pending proj = []) : got.map proj = (L.translate v arrived).1 := by
  have hlost : lost = [] := h.cancelled.resolve_right fun hk => by simp [hdone] at hk
  rw [h.messages, hinbox, List.append_nil, ← h.items, hpending, hlost, List.append_nil, List.append_nil]

end Reading

end Gopkg.Voice
