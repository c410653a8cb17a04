import Gopkg.Voice.Whatsapp.Lemmas.Framing

/-!
# Audio that a barge-in leaves

`Clear` empties the queue of frames. The samples in `sendBuf` stay, and are encoded with the next ones.
-/

namespace Gopkg.Voice.Whatsapp

open Lts Audio

variable {encode : List Int16 → Except String (List UInt8)} {s s' : Transport} {t evs : List Event} {n : Nat}

/-- Every sample that waits is the `n`-th or a later one. -/
structure Fresh (n : Nat) (s : Transport) : Prop where
  accepted : n ≤ s.accepted
  buffered : ∀ x ∈ s.sendBuf, n ≤ x.position
  queued : ∀ f ∈ s.outQueue, ∀ x ∈ f.samples, n ≤ x.position

/-- The frames that are written are made of the `n`-th and later samples. -/
def PacedFrom (n : Nat) (t : List Event) : Prop :=
  ∀ f, .paced (some f) ∈ t → ∀ x ∈ f.samples, n ≤ x.position

theorem Fresh.step (h : Fresh n s) (hs : Step encode s evs s') : Fresh n s' ∧ PacedFrom n evs := by
  have hquiet (hevs : ∀ f, .paced (some f) ∉ evs) : PacedFrom n evs := fun f hf => absurd hf (hevs f)
  cases hs with
  | T_Send data _ _ =>
      refine ⟨⟨Nat.le_trans h.accepted (Nat.le_add_right _ _), ?_, h.queued⟩, hquiet (by simp)⟩
      exact List.forall_mem_append.mpr ⟨h.buffered, fun x hx => Nat.le_trans h.accepted (mem_number hx).1⟩
  | T_Encode _ _ _ =>
      refine ⟨⟨h.accepted, fun x hx => h.buffered x (List.mem_of_mem_drop hx), fun f hf => ?_⟩, hquiet (by simp)⟩
      rcases mem_enqueue hf with hf | rfl
      · exact h.queued f hf
      · exact fun x hx => h.buffered x (List.mem_of_mem_take hx)
  | T_EncodeFailed _ _ _ =>
      exact ⟨⟨h.accepted, fun x hx => h.buffered x (List.mem_of_mem_drop hx), h.queued⟩, hquiet (by simp)⟩
  | T_Pace _ hq =>
      have hqueued := h.queued
      rw [hq, List.forall_mem_cons] at hqueued
      refine ⟨⟨h.accepted, h.buffered, hqueued.2⟩, fun f hf => ?_⟩
      obtain rfl := Option.some.inj (Event.paced.inj (List.mem_singleton.mp hf))
      exact hqueued.1
  | T_Drop _ hq =>
      have hqueued := h.queued
      rw [hq, List.forall_mem_cons] at hqueued
      exact ⟨⟨h.accepted, h.buffered, hqueued.2⟩, hquiet (by simp)⟩
  | T_SendClosed _ _ | T_Sent _ _ | T_Silence _ _ | T_PacerExits _ | T_Clear | T_ClearReturns _ _ | T_Close _ =>
      exact ⟨⟨h.accepted, h.buffered, h.queued⟩, hquiet (by simp)⟩

theorem Fresh.run (h : Fresh n s) (hr : Run (Step encode) s t s') : PacedFrom n t := by
  have hrun : Fresh n s' ∧ PacedFrom n t := by
    refine hr.invariant (I := fun t s => Fresh n s ∧ PacedFrom n t) ⟨h, fun f hf => nomatch hf⟩ ?_
    rintro t s evs s' ⟨hfresh, hpaced⟩ hs
    obtain ⟨hfresh', hnew⟩ := hfresh.step hs
    exact ⟨hfresh', fun f hf => (List.mem_append.mp hf).elim (hpaced f) (hnew f)⟩
  exact hrun.2

/-- The samples in `sendBuf` have been accepted, and the pacer runs until the transport is closed. -/
structure Sound (s : Transport) : Prop where
  buffered : ∀ x ∈ s.sendBuf, x.position < s.accepted
  pacing : s.closed = false → s.pacing = true

theorem Sound.step (h : Sound s) (hs : Step encode s evs s') : Sound s' := by
  cases hs with
  | T_Send data _ _ =>
      refine ⟨List.forall_mem_append.mpr ⟨fun x hx => ?_, fun x hx => (mem_number hx).2⟩, h.pacing⟩
      exact Nat.lt_of_lt_of_le (h.buffered x hx) (Nat.le_add_right _ _)
  | T_Encode _ _ _ | T_EncodeFailed _ _ _ => exact ⟨fun x hx => h.buffered x (List.mem_of_mem_drop hx), h.pacing⟩
  | T_PacerExits hclosed => exact ⟨h.buffered, fun hopen => nomatch hclosed.symm.trans hopen⟩
  | T_Close _ => exact ⟨h.buffered, fun hopen => nomatch hopen⟩
  | T_SendClosed _ _ | T_Sent _ _ | T_Pace _ _ | T_Silence _ _ | T_Clear | T_Drop _ _ | T_ClearReturns _ _ =>
      exact ⟨h.buffered, h.pacing⟩

theorem Sound.run (hr : Run (Step encode) Transport.new t s) : Sound s :=
  hr.stateInvariant (I := Sound) ⟨nofun, fun _ => rfl⟩ fun _ _ _ h hs => h.step hs

/-- A sample that is left in `sendBuf` can be written later: the next `Send` completes its block. -/
theorem leftover_paced (hidle : s.sender = .idle) (hopen : s.closed = false) (hpacing : s.pacing = true)
    (hempty : s.outQueue = []) (hencode : ∀ block, ∃ data, encode block = .ok data) {x : Sample} {buf : List Sample}
    (hbuf : s.sendBuf = x :: buf) :
    ∃ t s' f, Run (Step encode) s t s' ∧ .paced (some f) ∈ t ∧ x ∈ f.samples := by
  let data : List UInt8 := List.replicate (2 * outFrameSamples) 0
  have hsend : Run (Step encode) s _ _ := .single (.T_Send data hidle hopen)
  let block := (s.sendBuf ++ number s.accepted (bytesToInt16LE data)).take outFrameSamples
  obtain ⟨encoded, hencoded⟩ := hencode (values block)
  have hlen : outFrameSamples ≤ (s.sendBuf ++ number s.accepted (bytesToInt16LE data)).length := by
    rw [List.length_append, number, List.length_mapIdx, bytesToInt16LE, length_samplesLE, List.length_replicate]
    omega
  have hblock := hsend.snoc (.T_Encode rfl hlen hencoded)
  have hqueue : enqueue s.outQueue { samples := block, data := encoded } = [{ samples := block, data := encoded }] := by
    rw [hempty]
    rfl
  have hpace := hblock.snoc (.T_Pace hpacing hqueue)
  have hx : x ∈ block := by
    simp only [block, hbuf]
    exact List.mem_cons_self
  exact ⟨_, _, _, hpace, List.mem_append_right _ List.mem_cons_self, hx⟩

end Gopkg.Voice.Whatsapp
