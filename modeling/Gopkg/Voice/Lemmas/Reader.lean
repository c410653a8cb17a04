import Gopkg.Lts.Run
import Gopkg.Voice.PhoneCall

/-!
# The read loop

What the channel of errors holds, when the loop can move, and how it comes to its end.
-/

namespace Gopkg.Voice

variable {μ β α ℓ V : Type} {L : ReadLoop μ β α ℓ} {done : Bool} {r r' : Reader μ β α ℓ V}
  {x : Option (Ending V)} {y : Recv α V}

/-- The loop is on its way out, past the place where it reports an error. -/
def ReaderPc.Leaving : ReaderPc β α V → Prop
  | .closingErrs | .closingItems | .exited => True
  | _ => False

/-- Only a loop on its way out has left an error. -/
def Reader.Lawful (r : Reader μ β α ℓ V) : Prop := r.errs ≠ none → r.pc.Leaving

theorem Reader.Lawful.errs_eq (h : r.Lawful) (hl : ¬ r.pc.Leaving) : r.errs = none :=
  Classical.byContradiction fun hne => hl (h hne)

theorem ReaderPc.next_ne_idle (bs : List β) : (ReaderPc.next bs : ReaderPc β α V) ≠ .idle := by
  cases bs with
  | nil => exact nofun
  | cons b bs => exact nofun

/-! ## Preservation -/

theorem ReaderTick.lawful (h : ReaderTick L done r x r') (hr : r.Lawful) : r'.Lawful := by
  cases h with
  | R_Return _ _ | R_Stop _ _ _ _ | R_Clean _ _ _ | R_PrepareDone _ _ | R_EmitDone _ _ | R_CloseErrs _
  | R_CloseItems _ => exact fun _ => trivial
  | R_Put _ _ => exact fun _ => trivial
  | R_Read hp _ => exact fun hne => absurd (hr.errs_eq (by rw [hp]; exact id)) hne
  | R_Items hp _ _ _ => exact fun hne => absurd (hr.errs_eq (by rw [hp]; exact id)) hne
  | R_Failed hp _ _ => exact fun hne => absurd (hr.errs_eq (by rw [hp]; exact id)) hne
  | R_Closed hp _ => exact fun hne => absurd (hr.errs_eq (by rw [hp]; exact id)) hne
  | R_Prepare hp _ => exact fun hne => absurd (hr.errs_eq (by rw [hp]; exact id)) hne

theorem ReaderRecv.lawful (h : ReaderRecv r y r') (hr : r.Lawful) : r'.Lawful := by
  cases h with
  | C_Item hp => exact fun hne => absurd (hr.errs_eq (by rw [hp]; exact id)) hne
  | C_Closed hp => exact hr
  | C_Error he => exact fun hne => absurd rfl hne
  | C_ErrorClosed _ _ => exact hr

theorem ReaderPeer.lawful (h : ReaderPeer r r') (hr : r.Lawful) : r'.Lawful := by
  cases h with
  | P_Send m hc => exact hr
  | P_End e hc => exact hr

/-- A loop that has not been started does not move, and one that has been started stays so. -/
theorem ReaderTick.started (h : ReaderTick L done r x r') : r.pc ≠ .idle ∧ r'.pc ≠ .idle := by
  cases h with
  | R_Return hp _ | R_Read hp _ | R_Stop hp _ _ _ | R_Clean hp _ _ | R_Failed hp _ _ | R_Closed hp _
  | R_Put hp _ | R_Prepare hp _ | R_PrepareDone hp _ | R_EmitDone hp _ | R_CloseErrs hp | R_CloseItems hp =>
      rw [hp]
      exact ⟨nofun, nofun⟩
  | R_Items hp _ _ _ =>
      rw [hp]
      exact ⟨nofun, ReaderPc.next_ne_idle _⟩

theorem ReaderTick.idle_iff (h : ReaderTick L done r x r') : r'.pc = .idle ↔ r.pc = .idle :=
  iff_of_false h.started.2 h.started.1

theorem ReaderRecv.idle_iff (h : ReaderRecv r y r') : r'.pc = .idle ↔ r.pc = .idle := by
  cases h with
  | C_Item hp =>
      rw [hp]
      exact iff_of_false (ReaderPc.next_ne_idle _) nofun
  | C_Closed hp => exact .rfl
  | C_Error he => exact .rfl
  | C_ErrorClosed _ _ => exact .rfl

theorem ReaderPeer.pc_eq (h : ReaderPeer r r') : r'.pc = r.pc := by
  cases h <;> rfl

theorem ReaderTick.conn_eq (h : ReaderTick L done r x r') : r'.conn = r.conn := by
  cases h <;> rfl

theorem ReaderRecv.conn_eq (h : ReaderRecv r y r') : r'.conn = r.conn := by
  cases h <;> rfl

theorem ReaderPeer.not_closed (h : ReaderPeer r r') : r'.conn ≠ .closed := by
  cases h with
  | P_Send m hc => rw [hc]; exact nofun
  | P_End e hc => exact nofun

/-! ## Progress -/

/-- When the context is done, the loop can move unless it is parked or has exited. -/
theorem Reader.moves (hr : r.Lawful) (hidle : r.pc ≠ .idle) :
    (∃ x r', ReaderTick L true r x r') ∨ r.Parked ∨ r.pc = .exited := by
  cases hpc : r.pc with
  | idle => exact absurd hpc hidle
  | top => exact .inl ⟨_, _, .R_Return hpc rfl⟩
  | reading =>
      by_cases hclosed : r.conn = .closed
      · exact .inl ⟨_, _, .R_Closed (e := .canceled) hpc hclosed⟩
      · cases hin : r.inbox with
        | nil =>
            cases hconn : r.conn with
            | live => exact .inr (.inl ⟨hpc, hin, hconn⟩)
            | ended e =>
                cases e with
                | clean => exact .inl ⟨_, _, .R_Clean hpc hin hconn⟩
                | failed e => exact .inl ⟨_, _, .R_Failed hpc hin hconn⟩
            | closed => exact absurd hconn hclosed
        | cons m ms =>
            cases hh : L.handle r.vars m with
            | mk v re =>
                cases re with
                | items bs => exact .inl ⟨_, _, .R_Items hpc hclosed hin hh⟩
                | stop => exact .inl ⟨_, _, .R_Stop hpc hclosed hin hh⟩
  | preparing b bs => exact .inl ⟨_, _, .R_PrepareDone hpc rfl⟩
  | emitting a bs => exact .inl ⟨_, _, .R_EmitDone hpc rfl⟩
  | failing e => exact .inl ⟨_, _, .R_Put hpc (hr.errs_eq (by rw [hpc]; exact id))⟩
  | closingErrs => exact .inl ⟨_, _, .R_CloseErrs hpc⟩
  | closingItems => exact .inl ⟨_, _, .R_CloseItems hpc⟩
  | exited => exact .inr (.inr rfl)

theorem Reader.Parked.not_tick (h : r.Parked) : ¬ ReaderTick L done r x r' := by
  obtain ⟨hpc, hin, hconn⟩ := h
  intro ht
  cases ht with
  | R_Items _ _ hi _ | R_Stop _ _ hi _ => rw [hin] at hi; cases hi
  | R_Clean _ _ hc | R_Failed _ _ hc | R_Closed _ hc => rw [hconn] at hc; cases hc
  | R_Return hp _ | R_Read hp _ | R_Put hp _ | R_Prepare hp _ | R_PrepareDone hp _ | R_EmitDone hp _
  | R_CloseErrs hp | R_CloseItems hp => rw [hpc] at hp; cases hp

theorem Reader.not_tick_of_exited (h : r.pc = .exited) : ¬ ReaderTick L done r x r' := by
  intro ht
  cases ht with
  | R_Return hp _ | R_Read hp _ | R_Items hp _ _ _ | R_Stop hp _ _ _ | R_Clean hp _ _ | R_Failed hp _ _
  | R_Closed hp _ | R_Put hp _ | R_Prepare hp _ | R_PrepareDone hp _ | R_EmitDone hp _ | R_CloseErrs hp
  | R_CloseItems hp => rw [h] at hp; cases hp

theorem Reader.Parked.not_recv (h : r.Parked) (hr : r.Lawful) : ¬ ReaderRecv r y r' := by
  have hnone : r.errs = none := hr.errs_eq (by rw [h.1]; exact id)
  intro hc
  cases hc with
  | C_Item hp => rw [h.1] at hp; cases hp
  | C_Closed hp => rw [h.1] at hp; cases hp
  | C_Error he => rw [hnone] at he; cases he
  | C_ErrorClosed _ hp => rw [h.1] at hp; rcases hp with hp | hp <;> cases hp

/-! ## Errors -/

def ReaderPc.Working : ReaderPc β α V → Prop
  | .idle | .top | .reading | .preparing _ _ | .emitting _ _ => True
  | _ => False

theorem ReaderPc.next_working (bs : List β) : (ReaderPc.next bs : ReaderPc β α V).Working := by
  cases bs with
  | nil => trivial
  | cons b bs => trivial

def Reader.Silent (r : Reader μ β α ℓ V) : Prop := ∀ e, ¬ r.Pending e

theorem Reader.Lawful.silent (hr : r.Lawful) (hw : r.pc.Working) : r.Silent := by
  rintro e (hp | he)
  · rw [hp] at hw
    exact hw
  · have hl := hr (by rw [he]; exact nofun)
    cases hpc : r.pc <;> rw [hpc] at hw hl <;> first | exact hw | exact hl

variable {e : Err V}

theorem Reader.Pending.not_working (hp : r.Pending e) (hr : r.Lawful) : ¬ r.pc.Working :=
  fun hw => hr.silent hw e hp

/-- A loop whose context is not done goes on, or it finds its end. -/
theorem ReaderTick.working (h : ReaderTick L false r x r') (hw : r.pc.Working) :
    (x = none ∧ r'.pc.Working) ∨ x = some .clean ∨ ∃ e, x = some (.failed e) ∧ r'.Pending e := by
  cases h with
  | R_Read _ _ | R_Prepare _ _ => exact .inl ⟨rfl, trivial⟩
  | R_Items _ _ _ _ => exact .inl ⟨rfl, ReaderPc.next_working _⟩
  | R_Stop _ _ _ _ | R_Clean _ _ _ => exact .inr (.inl rfl)
  | R_Failed _ _ _ | R_Closed _ _ => exact .inr (.inr ⟨_, rfl, .inl rfl⟩)
  | R_Return _ hd | R_PrepareDone _ hd | R_EmitDone _ hd => cases hd
  | R_Put hp _ | R_CloseErrs hp | R_CloseItems hp => rw [hp] at hw; exact hw.elim

theorem ReaderTick.pending (h : ReaderTick L done r x r') (hr : r.Lawful) (hp : r.Pending e) :
    x = none ∧ r'.Pending e := by
  have hw := hp.not_working hr
  cases h with
  | R_Put hpc hnone =>
      rcases hp with hf | he
      · rw [hpc] at hf
        cases hf
        exact ⟨rfl, .inr rfl⟩
      · exact nomatch hnone.symm.trans he
  | R_CloseErrs hpc | R_CloseItems hpc =>
      rcases hp with hf | he
      · exact nomatch hpc.symm.trans hf
      · exact ⟨rfl, .inr he⟩
  | R_Return hpc _ | R_Read hpc _ | R_Items hpc _ _ _ | R_Stop hpc _ _ _ | R_Clean hpc _ _ | R_Failed hpc _ _
  | R_Closed hpc _ | R_Prepare hpc _ | R_PrepareDone hpc _ | R_EmitDone hpc _ =>
      rw [hpc] at hw
      exact absurd trivial hw

theorem ReaderTick.silent (h : ReaderTick L done r x r') (hs : r.Silent) (hx : ∀ e, x ≠ some (.failed e)) :
    r'.Silent := by
  have hnone : ∀ e, r.errs ≠ some e := fun e he => hs e (.inr he)
  cases h with
  | R_Failed _ _ _ | R_Closed _ _ => exact absurd rfl (hx _)
  | R_Put hp _ => exact absurd (.inl hp) (hs _)
  | @R_Items m ms v bs _ _ _ _ =>
      rintro e (hp | he)
      · have hw := ReaderPc.next_working (α := α) (V := V) bs
        have hp : ReaderPc.next bs = .failing e := hp
        rw [hp] at hw
        exact hw
      · exact hnone e he
  | R_Return _ _ | R_Read _ _ | R_Stop _ _ _ _ | R_Clean _ _ _ | R_Prepare _ _ | R_PrepareDone _ _
  | R_EmitDone _ _ | R_CloseErrs _ | R_CloseItems _ =>
      rintro e (hp | he)
      · cases hp
      · exact hnone e he

theorem ReaderRecv.working (h : ReaderRecv r y r') (hr : r.Lawful) (hw : r.pc.Working) :
    ∃ a, y = .item a ∧ r'.pc.Working := by
  cases h with
  | C_Item hp => exact ⟨_, rfl, ReaderPc.next_working _⟩
  | C_Closed hp => rw [hp] at hw; exact hw.elim
  | C_Error he => exact absurd (.inr he) (hr.silent hw _)
  | C_ErrorClosed _ hp => rcases hp with hp | hp <;> rw [hp] at hw <;> exact hw.elim

/-- The receiver of a loop with an error finds the error, or it finds the channel of items closed. -/
theorem ReaderRecv.pending (h : ReaderRecv r y r') (hr : r.Lawful) (hp : r.Pending e) :
    y = .closed ∨ (y = .error e ∧ r'.Silent) := by
  have hw := hp.not_working hr
  cases h with
  | C_Item hpc => rw [hpc] at hw; exact absurd trivial hw
  | C_Closed hpc => exact .inl rfl
  | C_Error he =>
      have hleaving := hr (by rw [he]; exact nofun)
      have hpc : ∀ e', r.pc ≠ .failing e' := fun e' hf => by rw [hf] at hleaving; exact hleaving
      rcases hp with hf | he'
      · exact absurd hf (hpc e)
      · cases he.symm.trans he'
        exact .inr ⟨rfl, fun e' h' => h'.elim (hpc e') nofun⟩
  | C_ErrorClosed hnone hpc =>
      rcases hp with hf | he
      · rcases hpc with hpc | hpc <;> exact nomatch hpc.symm.trans hf
      · exact nomatch hnone.symm.trans he

theorem ReaderRecv.silent (h : ReaderRecv r y r') (hs : r.Silent) : (∀ e, y ≠ .error e) ∧ r'.Silent := by
  cases h with
  | @C_Item a bs hp =>
      refine ⟨nofun, ?_⟩
      rintro e (hf | he)
      · have hw := ReaderPc.next_working (α := α) (V := V) bs
        have hf : ReaderPc.next bs = .failing e := hf
        rw [hf] at hw
        exact hw
      · exact hs e (.inr he)
  | C_Closed hp => exact ⟨nofun, hs⟩
  | C_Error he => exact absurd (.inr he) (hs _)
  | C_ErrorClosed _ _ => exact ⟨nofun, hs⟩

theorem ReaderPeer.pending_iff (h : ReaderPeer r r') : r'.Pending e ↔ r.Pending e := by
  cases h with
  | P_Send m hc => exact .rfl
  | P_End e hc => exact .rfl

/-! ## The end of the loop -/

/-- The steps that are left when the context is done. -/
def ReaderPc.left : ReaderPc β α V → Nat
  | .idle => 7
  | .reading => 6
  | .top => 5
  | .preparing _ _ => 4
  | .emitting _ _ | .failing _ => 3
  | .closingErrs => 2
  | .closingItems => 1
  | .exited => 0

theorem ReaderPc.next_left (bs : List β) : (ReaderPc.next bs : ReaderPc β α V).left < 6 := by
  cases bs with
  | nil => simp [ReaderPc.next, ReaderPc.left]
  | cons b bs => simp [ReaderPc.next, ReaderPc.left]

theorem ReaderTick.left_lt (h : ReaderTick L true r x r') : r'.pc.left < r.pc.left := by
  cases h with
  | R_Read _ hd => cases hd
  | R_Items hp _ _ _ =>
      rw [hp]
      exact ReaderPc.next_left _
  | R_Return hp _ | R_Stop hp _ _ _ | R_Clean hp _ _ | R_Failed hp _ _ | R_Closed hp _ | R_Put hp _
  | R_Prepare hp _ | R_PrepareDone hp _ | R_EmitDone hp _ | R_CloseErrs hp | R_CloseItems hp =>
      rw [hp]
      simp only [ReaderPc.left]
      omega

/-- A step of the loop after its context is done, or of its peer. -/
def Reader.Moves (L : ReadLoop μ β α ℓ) (r r' : Reader μ β α ℓ V) : Prop :=
  (∃ x, ReaderTick L true r x r') ∨ ReaderPeer r r'

/-- A loop whose context is done comes to its end when its peer closes the connection. -/
theorem Reader.can_exit (hr : r.Lawful) (hidle : r.pc ≠ .idle) :
    ∃ r', Relation.ReflTransGen (Reader.Moves L) r r' ∧ r'.pc = .exited := by
  induction hm : r.pc.left using Nat.strongRecOn generalizing r with
  | ind m ih =>
      rcases Reader.moves (L := L) hr hidle with ⟨x, r₁, h⟩ | ⟨hpc, hin, hconn⟩ | hx
      · obtain ⟨r', hrun, hx⟩ := ih _ (hm ▸ h.left_lt) (h.lawful hr) h.started.2 rfl
        exact ⟨r', .head (.inl ⟨x, h⟩) hrun, hx⟩
      · have hpeer : ReaderPeer r { r with conn := .ended .clean } := .P_End .clean hconn
        have h : ReaderTick L true { r with conn := .ended .clean } (some .clean)
            { r with conn := .ended .clean, pc := .closingErrs } := .R_Clean hpc hin rfl
        obtain ⟨r', hrun, hx⟩ := ih _ (hm ▸ h.left_lt) (h.lawful (hpeer.lawful hr)) h.started.2 rfl
        exact ⟨r', .head (.inr hpeer) (.head (.inl ⟨_, h⟩) hrun), hx⟩
      · exact ⟨r, .refl, hx⟩

end Gopkg.Voice
