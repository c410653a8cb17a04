import Gopkg.Stream.Blocks
import Gopkg.Voice.Whatsapp.Transport

/-!
# Framing of the outbound audio

The blocks that were encoded, followed by `sendBuf`, are the samples that were accepted.
-/

namespace Gopkg.Voice.Whatsapp

open Lts Audio

variable {encode : List Int16 → Except String (List UInt8)} {s s' : Transport} {t evs : List Event} {n : Nat}

/-! ## Samples -/

theorem samplesLE_append : ∀ {b : List UInt8} (b' : List UInt8), b.length % 2 = 0 →
    samplesLE (b ++ b') = samplesLE b ++ samplesLE b'
  | [], _, _ => rfl
  | [_], _, h => by simp at h
  | lo :: hi :: b, b', h => by
      have hb : b.length % 2 = 0 := by
        rw [List.length_cons, List.length_cons] at h
        omega
      simp only [List.cons_append, samplesLE, samplesLE_append b' hb]

theorem length_samplesLE : ∀ b : List UInt8, (samplesLE b).length = b.length / 2
  | [] => rfl
  | [_] => by simp [samplesLE]
  | _ :: _ :: b => by
      rw [samplesLE, List.length_cons, length_samplesLE b, List.length_cons, List.length_cons]
      omega

@[simp] theorem values_append (l l' : List Sample) : values (l ++ l') = values l ++ values l' :=
  List.map_append

@[simp] theorem values_number (start : Nat) (vs : List Int16) : values (number start vs) = vs := by
  exact List.ext_getElem (by simp [values, number]) (by simp [values, number])

theorem mem_number {start : Nat} {vs : List Int16} {x : Sample} (h : x ∈ number start vs) :
    start ≤ x.position ∧ x.position < start + vs.length := by
  obtain ⟨i, hi, rfl⟩ := List.mem_mapIdx.mp h
  exact ⟨Nat.le_add_right _ _, Nat.add_lt_add_left hi _⟩

theorem length_enqueue_le {queue : List OpusFrame} (f : OpusFrame) (h : queue.length ≤ queueCapacity) :
    (enqueue queue f).length ≤ queueCapacity := by
  unfold enqueue
  split
  · rw [List.length_append]
    assumption
  · exact h

theorem mem_enqueue {queue : List OpusFrame} {f g : OpusFrame} (h : g ∈ enqueue queue f) : g ∈ queue ∨ g = f := by
  unfold enqueue at h
  split at h
  · exact (List.mem_append.mp h).imp_right List.mem_singleton.mp
  · exact .inl h

/-! ## Blocks -/

@[simp] theorem acceptedBytes_append (t t' : List Event) :
    acceptedBytes (t ++ t') = acceptedBytes t ++ acceptedBytes t' :=
  List.flatMap_append

@[simp] theorem encodedBlocks_append (t t' : List Event) :
    encodedBlocks (t ++ t') = encodedBlocks t ++ encodedBlocks t' :=
  List.filterMap_append

@[simp] theorem acceptedBytes_accepted (data : List UInt8) : acceptedBytes [.accepted data] = data :=
  List.append_nil data

@[simp] theorem acceptedBytes_encoded (block : List Sample) : acceptedBytes [.encoded block] = [] := rfl

@[simp] theorem encodedBlocks_accepted (data : List UInt8) : encodedBlocks [.accepted data] = [] := rfl

@[simp] theorem encodedBlocks_encoded (block : List Sample) : encodedBlocks [.encoded block] = [block] := rfl

/-- The accounts of a run in which no `Send` has failed. -/
structure Framed (encode : List Int16 → Except String (List UInt8)) (t : List Event) (s : Transport) : Prop where
  even : (acceptedBytes t).length % 2 = 0
  samples : values ((encodedBlocks t).flatten ++ s.sendBuf) = samplesLE (acceptedBytes t)
  full : ∀ b ∈ encodedBlocks t, b.length = outFrameSamples
  queued : (s.outQueue.map OpusFrame.samples).Sublist (encodedBlocks t)
  data : ∀ f ∈ s.outQueue, encode (values f.samples) = .ok f.data
  bounded : s.outQueue.length ≤ queueCapacity
  idle : s.sender = .idle → s.sendBuf.length < outFrameSamples

theorem Framed.new : Framed encode [] Transport.new where
  even := rfl
  samples := rfl
  full _ h := nomatch h
  queued := .slnil
  data _ h := nomatch h
  bounded := Nat.zero_le _
  idle _ := by decide

/-- A step that neither accepts nor encodes, and takes nothing but frames out of the queue. -/
theorem Framed.quiet (h : Framed encode t s) (haccepted : acceptedBytes evs = []) (hencoded : encodedBlocks evs = [])
    (hbuf : s'.sendBuf = s.sendBuf) (hqueue : s'.outQueue.Sublist s.outQueue)
    (hidle : s'.sender = .idle → s.sendBuf.length < outFrameSamples) : Framed encode (t ++ evs) s' where
  even := by
    rw [acceptedBytes_append, haccepted, List.append_nil]
    exact h.even
  samples := by
    rw [acceptedBytes_append, haccepted, encodedBlocks_append, hencoded, List.append_nil, List.append_nil, hbuf]
    exact h.samples
  full := by
    rw [encodedBlocks_append, hencoded, List.append_nil]
    exact h.full
  queued := by
    rw [encodedBlocks_append, hencoded, List.append_nil]
    exact (hqueue.map _).trans h.queued
  data f hf := h.data f (hqueue.subset hf)
  bounded := Nat.le_trans hqueue.length_le h.bounded
  idle hs := hbuf ▸ hidle hs

theorem Framed.accept (h : Framed encode t s) {data : List UInt8} (heven : data.length % 2 = 0) (accepted : Nat) :
    Framed encode (t ++ [.accepted data])
      { s with
        sendBuf := s.sendBuf ++ number s.accepted (bytesToInt16LE data)
        accepted := accepted
        sender := .encoding } where
  even := by
    rw [acceptedBytes_append, acceptedBytes_accepted, List.length_append, Nat.add_mod, h.even, heven]
  samples := by
    have hsamples := h.samples
    rw [values_append] at hsamples
    rw [acceptedBytes_append, acceptedBytes_accepted, samplesLE_append _ h.even, ← hsamples]
    simp [bytesToInt16LE]
  full := by simpa using h.full
  queued := by simpa using h.queued
  data := h.data
  bounded := h.bounded
  idle hs := nomatch hs

theorem Framed.block (h : Framed encode t s) (hfull : outFrameSamples ≤ s.sendBuf.length) {data : List UInt8}
    (hdata : encode (values (s.sendBuf.take outFrameSamples)) = .ok data) (hs : s.sender = .encoding) :
    Framed encode (t ++ [.encoded (s.sendBuf.take outFrameSamples)])
      { s with
        sendBuf := s.sendBuf.drop outFrameSamples
        outQueue := enqueue s.outQueue { samples := s.sendBuf.take outFrameSamples, data := data } } where
  even := by simpa using h.even
  samples := by
    rw [acceptedBytes_append, acceptedBytes_encoded, List.append_nil, encodedBlocks_append, encodedBlocks_encoded,
      List.flatten_append, List.flatten_singleton, List.append_assoc, List.take_append_drop]
    exact h.samples
  full := by
    rw [encodedBlocks_append]
    refine List.forall_mem_append.mpr ⟨h.full, fun b hb => ?_⟩
    obtain rfl := List.mem_singleton.mp hb
    exact List.length_take_of_le hfull
  queued := by
    rw [encodedBlocks_append, enqueue]
    split
    · rw [List.map_append]
      exact h.queued.append (.refl _)
    · exact h.queued.trans (List.sublist_append_left _ _)
  data f hf := by
    rcases mem_enqueue hf with hf | rfl
    · exact h.data f hf
    · exact hdata
  bounded := length_enqueue_le _ h.bounded
  idle hidle := nomatch hs.symm.trans hidle

theorem Framed.step (h : Framed encode t s) (heven : ∀ data, .accepted data ∈ evs → data.length % 2 = 0)
    (hok : ∀ err, .sendReturned (some err) ∉ evs) (hs : Step encode s evs s') : Framed encode (t ++ evs) s' := by
  cases hs with
  | T_SendClosed hidle _ => exact h.quiet rfl rfl rfl (.refl _) h.idle
  | T_Send data _ _ => exact h.accept (heven data List.mem_cons_self) _
  | T_Encode hs hfull hdata => exact h.block hfull hdata hs
  | T_EncodeFailed _ _ _ => exact absurd (List.mem_cons_of_mem _ List.mem_cons_self) (hok _)
  | T_Sent _ hshort => exact h.quiet rfl rfl rfl (.refl _) fun _ => hshort
  | T_Pace _ hq | T_Drop _ hq => exact h.quiet rfl rfl rfl (hq ▸ List.sublist_cons_self _ _) h.idle
  | T_Silence _ _ | T_PacerExits _ | T_Clear | T_ClearReturns _ _ | T_Close _ =>
      exact h.quiet rfl rfl rfl (.refl _) h.idle

theorem Framed.run (hr : Run (Step encode) Transport.new t s)
    (heven : ∀ data, .accepted data ∈ t → data.length % 2 = 0) (hok : ∀ err, .sendReturned (some err) ∉ t) :
    Framed encode t s := by
  induction hr with
  | refl => exact .new
  | snoc _ hs ih =>
      have hframed := ih (fun data hd => heven data (List.mem_append_left _ hd))
        fun err he => hok err (List.mem_append_left _ he)
      exact hframed.step (fun data hd => heven data (List.mem_append_right _ hd))
        (fun err he => hok err (List.mem_append_right _ he)) hs

/-- The blocks are those of the stream, and the rest of it is in `sendBuf`. -/
theorem Framed.blocks_eq (h : Framed encode t s) (hidle : s.sender = .idle) :
    (encodedBlocks t).map values = Stream.blocks outFrameSamples (samplesLE (acceptedBytes t)) ∧
      values s.sendBuf = Stream.rest outFrameSamples (samplesLE (acceptedBytes t)) := by
  have hbs : ∀ b ∈ (encodedBlocks t).map values, b.length = outFrameSamples := by
    intro b hb
    obtain ⟨block, hblock, rfl⟩ := List.mem_map.mp hb
    rw [values, List.length_map]
    exact h.full block hblock
  have hr : (values s.sendBuf).length < outFrameSamples := by
    rw [values, List.length_map]
    exact h.idle hidle
  have hsplit : ((encodedBlocks t).map values).flatten ++ values s.sendBuf = samplesLE (acceptedBytes t) := by
    rw [← h.samples, values_append]
    simp only [values, List.map_flatten]
    rfl
  rw [← hsplit]
  exact ⟨(Stream.blocks_unique hbs hr).1.symm, (Stream.blocks_unique hbs hr).2.symm⟩

end Gopkg.Voice.Whatsapp
