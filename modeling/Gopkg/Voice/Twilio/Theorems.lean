import Gopkg.Voice.Lemmas.Reading
import Gopkg.Voice.Twilio.Receive

/-!
# What `Receive` hands over
-/

namespace Gopkg.Voice.Twilio

open Lts Pacing

variable {V : Type} {s s' : Receiving V} {t evs : List Seen} {r r' : State V} {start : Int}

theorem arrived_append (t t' : List Seen) : arrived (t ++ t') = arrived t ++ arrived t' :=
  List.filterMap_append

theorem handed_append (t t' : List Seen) : handed (t ++ t') = handed t ++ handed t' :=
  List.filterMap_append

/-- Without its clock, `Receive` moves as the reader of the transport does. -/
theorem ReceiveStep.forget (h : ReceiveStep s evs s') : s'.reader = s.reader ∨
    (∃ x, (transport V).tick s.done s.reader x s'.reader) ∨ (transport V).peer s.reader s'.reader ∨
      (∃ x, (transport V).recv s.done s.reader x s'.reader) ∨ s'.reader = (transport V).close s.reader := by
  cases h with
  | V_Time _ | V_Cancel => exact .inl rfl
  | V_Arrive m hlive => exact .inr (.inr (.inl (.P_Send m hlive)))
  | V_End e hlive => exact .inr (.inr (.inl (.P_End e hlive)))
  | V_Close => exact .inr (.inr (.inr (.inr rfl)))
  | V_Stamp hpc _ => exact .inr (.inl ⟨none, .R_Prepare hpc rfl⟩)
  | V_Tick htick _ => exact .inr (.inl ⟨_, htick⟩)
  | V_Hand hrecv | V_Recv hrecv _ => exact .inr (.inr (.inr (.inl ⟨_, hrecv⟩)))

/-! ## Order -/

theorem translate_eq (ms : List (Option Message)) : (readLoop.translate () ms).1 = ms.flatMap audio := by
  induction ms using List.reverseRecOn with
  | nil => rfl
  | append_singleton ms m ih =>
      rw [ReadLoop.translate_snoc, List.flatMap_append, List.flatMap_singleton, ih]
      rfl

/-- What was handed over is what the messages read so far carry. -/
def Carried (t : List Seen) (s : Receiving V) : Prop :=
  ∃ read lost, Reading readLoop Frame.data () (arrived t) (handed t) s.done s.reader read lost

theorem Carried.step (h : Carried t s) (hs : ReceiveStep s evs s') : Carried (t ++ evs) s' := by
  obtain ⟨read, lost, h⟩ := h
  cases hs with
  | V_Time _ => rw [List.append_nil]; exact ⟨read, lost, h⟩
  | V_End _ _ => rw [List.append_nil]; exact ⟨read, lost, h.quiet rfl rfl rfl .intro⟩
  | V_Close => rw [List.append_nil]; exact ⟨read, lost, h.close⟩
  | V_Cancel => rw [List.append_nil]; exact ⟨read, lost, h.cancel fun _ => rfl⟩
  | V_Recv hrecv hitem => rw [List.append_nil]; exact ⟨read, lost, h.recv hrecv hitem⟩
  | V_Tick htick _ => rw [List.append_nil]; exact h.tick (fun _ _ heq => heq) htick
  | @V_Stamp data rest hpc _ =>
      have hmade : readLoop.prepare data ⟨data, s.now⟩ := rfl
      rw [List.append_nil]
      exact h.tick (fun _ _ heq => heq) (.R_Prepare hpc hmade)
  | V_Arrive m _ =>
      rw [Carried, arrived_append, handed_append, show handed [.arrived m] = [] from rfl, List.append_nil]
      exact ⟨read, lost, h.arrive m⟩
  | @V_Hand f _ hrecv =>
      rw [Carried, arrived_append, handed_append, show arrived [.handed f] = [] from rfl, List.append_nil]
      exact ⟨read, lost, h.take hrecv⟩

theorem Carried.run (hr : Run ReceiveStep (Receiving.start start) t s) : Carried t s :=
  hr.invariant (I := Carried) ⟨[], [], (Reading.fresh _ _ _ _).start rfl⟩ fun _ _ _ _ hi hs => hi.step hs

theorem Carried.begins (h : Carried t s) : (handed t).map (·.data) <+: (arrived t).flatMap audio := by
  obtain ⟨_, _, h⟩ := h
  rw [← translate_eq]
  exact h.taken_begins

theorem Carried.whole (h : Carried t s) (hdone : s.done = false) (hinbox : s.reader.inbox = [])
    (hpending : s.reader.pc.pending Frame.data = []) : (handed t).map (·.data) = (arrived t).flatMap audio := by
  obtain ⟨_, _, h⟩ := h
  rw [← translate_eq]
  exact h.taken_all hdone hinbox hpending

/-! ## Time -/

/-- The frame that is offered to the receiver. -/
def offered : ReaderPc (List UInt8) Frame V → List Frame
  | .emitting f _ => [f]
  | _ => []

theorem offered_next (rest : List (List UInt8)) : offered (ReaderPc.next rest : ReaderPc _ _ V) = [] := by
  cases rest <;> rfl

def stamp (f : Frame) : Tick := ⟨f.timestamp, f.timestamp⟩

/-- The frames so far, with the one on offer, are an interval apart and the next one is due after them. -/
structure Stamps (s : Receiving V) (frames : List Frame) : Prop where
  paced : Paced frameInterval (-frameInterval) (frames.map stamp)
  next : ∀ f ∈ frames, ∃ at' ∈ s.nextFrameAt, f.timestamp + frameInterval ≤ at'

theorem Stamps.sublist {frames frames' : List Frame} (h : Stamps s frames) (hsub : frames'.Sublist frames)
    (hnext : s'.nextFrameAt = s.nextFrameAt) : Stamps s' frames' where
  paced := ⟨h.paced.follows.sublist (hsub.map stamp), fun x hx => h.paced.due x ((hsub.map stamp).subset hx)⟩
  next := by
    intro f hf
    rw [hnext]
    exact h.next f (hsub.subset hf)

/-- A frame is stamped once the one before it is an interval old. -/
theorem Stamps.snoc {frames : List Frame} {data : List UInt8} {now : Int} (h : Stamps s frames)
    (hdue : ∀ at' ∈ s.nextFrameAt, at' ≤ now) (hnext : s'.nextFrameAt = some (now + frameInterval)) :
    Stamps s' (frames ++ [⟨data, now⟩]) := by
  have hbefore : ∀ f ∈ frames, f.timestamp + frameInterval ≤ now := by
    intro f hf
    obtain ⟨at', hat, hle⟩ := h.next f hf
    exact hle.trans (hdue at' hat)
  constructor
  · rw [List.map_append]
    refine h.paced.snoc ?_ le_rfl
    intro y hy
    obtain ⟨f, hf, rfl⟩ := List.mem_map.mp hy
    have hle : f.timestamp + frameInterval ≤ now := hbefore f hf
    exact ⟨hle, by change f.timestamp ≤ now + -frameInterval; linarith⟩
  · intro f hf
    refine ⟨_, hnext, ?_⟩
    rcases List.mem_append.mp hf with hf | hf
    · have hle := hbefore f hf
      have hpos : (0 : Int) ≤ frameInterval := by decide
      linarith
    · rw [List.mem_singleton.mp hf]

theorem offered_eq_nil {pc : ReaderPc (List UInt8) Frame V} (h : ∀ f rest, pc ≠ .emitting f rest) :
    offered pc = [] := by
  cases pc with
  | emitting f rest => exact absurd rfl (h f rest)
  | idle | top | reading | preparing _ _ | failing _ | closingErrs | closingItems | exited => rfl

theorem Stamps.step (h : Stamps s (handed t ++ offered s.reader.pc)) (hs : ReceiveStep s evs s') :
    Stamps s' (handed (t ++ evs) ++ offered s'.reader.pc) := by
  cases hs with
  | V_Time _ | V_Cancel | V_Close | V_End _ _ => rw [List.append_nil]; exact h.sublist (.refl _) rfl
  | V_Arrive m _ =>
      rw [handed_append]
      exact h.sublist (by simp [handed]) rfl
  | @V_Stamp data rest hpc hdue =>
      rw [hpc, offered_eq_nil (by simp), List.append_nil] at h
      rw [List.append_nil]
      exact h.snoc hdue rfl
  | V_Tick _ hkept =>
      rw [List.append_nil, offered_eq_nil hkept]
      exact h.sublist (by simp) rfl
  | @V_Hand f r hrecv =>
      cases hrecv with
      | @C_Item _ bs hpc =>
          rw [hpc] at h
          rw [handed_append, offered_next]
          exact h.sublist (by simp [handed, offered]) rfl
  | @V_Recv x r hrecv hitem =>
      rw [List.append_nil]
      cases hrecv with
      | C_Item _ => exact absurd rfl (hitem _)
      | C_Closed _ | C_Error _ | C_ErrorClosed _ _ => exact h.sublist (.refl _) rfl

theorem Stamps.run (hr : Run ReceiveStep (Receiving.start start) t s) :
    Stamps s (handed t ++ offered s.reader.pc) :=
  hr.invariant (I := fun t s => Stamps s (handed t ++ offered s.reader.pc)) ⟨.nil, nofun⟩
    fun _ _ _ _ hi hs => hi.step hs

/-! ## Round trip -/

/-- What the side that writes can do. -/
inductive Write where
  | send (f : Frame)
  | clear
  | mark (name : String)
  deriving DecidableEq, Repr

def Write.message (streamSid : String) : Write → OutMessage
  | .send f => Twilio.send streamSid f
  | .clear => Twilio.clear streamSid
  | .mark name => Twilio.mark streamSid name

/-- The audio of a write, except for an empty frame. -/
def Write.audio : Write → List (List UInt8)
  | .send f => if f.data = [] then [] else [f.data]
  | .clear => []
  | .mark _ => []

theorem encodeToString_eq_empty {data : List UInt8} : encodeToString data = "" ↔ data = [] := by
  constructor
  · intro h
    have hlist : Base64.encode data = [] := by
      rw [← String.toList_ofList (l := Base64.encode data)]
      exact congrArg String.toList h
    have hdecode := Base64.decode_encode data
    rw [hlist] at hdecode
    exact (Option.some.inj hdecode).symm
  · rintro rfl
    rfl

theorem payload_encode (data : List UInt8) :
    payload (encodeToString data) = if data = [] then .empty else .bytes data := by
  by_cases hdata : data = []
  · rw [payload, if_pos (encodeToString_eq_empty.mpr hdata), if_pos hdata]
  · rw [payload, if_neg (mt encodeToString_eq_empty.mp hdata), if_neg hdata, encodeToString, String.toList_ofList,
      Base64.decode_encode]

theorem send_read (streamSid : String) (f : Frame) :
    (send streamSid f).read = ⟨.media, some (payload (encodeToString f.data))⟩ := rfl

/-- A message that is written is read with the same audio. -/
theorem audio_read (streamSid : String) (w : Write) : audio (some (w.message streamSid).read) = w.audio := by
  cases w with
  | clear | mark _ => rfl
  | send f =>
      rw [Write.message, Write.audio, audio, send_read, payload_encode]
      split <;> rfl

theorem handle_read_send {f : Frame} (streamSid : String) (hdata : f.data ≠ []) :
    handle (some (send streamSid f).read) = .items [f.data] := by
  rw [send_read, payload_encode, if_neg hdata]
  rfl

/-- A frame that is written while the reader waits is handed over as soon as it is due. -/
theorem exchange {f : Frame} {d : Int} (streamSid : String) (hpc : s.reader.pc = .top) (hlive : s.reader.conn = .live)
    (hinbox : s.reader.inbox = []) (hdone : s.done = false) (hdata : f.data ≠ []) (hd : 0 ≤ d)
    (hdue : ∀ at' ∈ s.nextFrameAt, at' ≤ s.now + d) : Run ReceiveStep s
      [.arrived (some (send streamSid f).read), .handed ⟨f.data, s.now + d⟩]
      { s with now := s.now + d, nextFrameAt := some (s.now + d + frameInterval) } := by
  obtain ⟨⟨pc, vars, inbox, conn, errs⟩, done, now, next⟩ := s
  cases hpc
  cases hlive
  cases hinbox
  cases hdone
  have harrive := Run.single
    (ReceiveStep.V_Arrive (s := ⟨⟨.top, vars, [], .live, errs⟩, false, now, next⟩) (some (send streamSid f).read) rfl)
  have hread := (harrive.snoc (.V_Tick (.R_Read rfl rfl) nofun)).snoc
    (.V_Tick (.R_Items rfl nofun rfl (congrArg _ (handle_read_send streamSid hdata))) nofun)
  have hhand := ((hread.snoc (.V_Time hd)).snoc (.V_Stamp rfl hdue)).snoc (.V_Hand (.C_Item rfl))
  exact hhand

/-- The second frame of two has to wait. -/
theorem exchange_twice : ∃ s : Receiving Unit, Run ReceiveStep (Receiving.start 0)
    [.arrived (some (send "MZ" ⟨[1, 2], 0⟩).read), .handed ⟨[1, 2], 0⟩,
      .arrived (some (send "MZ" ⟨[3], 0⟩).read), .handed ⟨[3], 20000000⟩] s ∧
    s.done = false ∧ s.reader.inbox = [] ∧ s.reader.pc.pending Frame.data = [] := by
  have hfirst := exchange (s := (Receiving.start 0 : Receiving Unit)) (f := ⟨[1, 2], 0⟩) (d := 0) "MZ" rfl rfl rfl rfl
    (by decide) le_rfl nofun
  have hsecond := hfirst.trans
    (exchange (f := ⟨[3], 0⟩) (d := 20000000) "MZ" rfl rfl rfl rfl (by decide) (by decide) (by decide))
  exact ⟨_, hsecond, rfl, rfl, rfl⟩

/-! ## Main theorems -/

/-- In every interleaving the audio of the messages is handed over in their order and without a gap, and all of it when
it is read and the context is not done. What comes after a stop, or is there at `Close`, is not read. The frames are
stamped 20 ms apart or more, so those of any span of time are at most as many as it takes to play them in it, and
one. -/
theorem receive_in_order_paced (start : Int) (hr : Run ReceiveStep (Receiving.start start) t s) :
    (handed t).map (·.data) <+: (arrived t).flatMap audio ∧
      (s.done = false → s.reader.inbox = [] → s.reader.pc.pending Frame.data = [] →
        (handed t).map (·.data) = (arrived t).flatMap audio) ∧
      (handed t).Pairwise (fun f g => f.timestamp + frameInterval ≤ g.timestamp) ∧
      ∀ a b, a ≤ b → frameInterval * ((handed t).filter fun f => a ≤ f.timestamp ∧ f.timestamp ≤ b).length ≤
        b - a + frameInterval := by
  have hpaced : Paced frameInterval (-frameInterval) ((handed t).map stamp) :=
    ((Stamps.run hr).sublist (List.sublist_append_left _ _) rfl).paced
  have hcarried := Carried.run hr
  refine ⟨hcarried.begins, hcarried.whole, ?_, fun a b hab => ?_⟩
  · exact (List.pairwise_map.mp hpaced.follows).imp fun h => h.spaced
  · have hsub : (((handed t).filter fun f => a ≤ f.timestamp ∧ f.timestamp ≤ b).map stamp).Sublist
        ((handed t).map stamp) := List.filter_sublist.map stamp
    have hwindow := Paced.window (l := ((handed t).filter fun f => a ≤ f.timestamp ∧ f.timestamp ≤ b).map stamp)
      ⟨hpaced.follows.sublist hsub, fun x hx => hpaced.due x (hsub.subset hx)⟩ hab (by decide) (by decide) ?_
    · rw [List.length_map] at hwindow
      linarith
    · intro x hx
      obtain ⟨f, hf, rfl⟩ := List.mem_map.mp hx
      exact decide_eq_true_eq.mp (List.mem_filter.mp hf).2

/-- What one side writes with `Send` is what the other one's `Receive` hands over, but for empty frames. `Clear` and
`Mark` between the frames do not matter. -/
theorem receive_of_writes (start : Int) (hr : Run ReceiveStep (Receiving.start start) t s) (streamSid : String)
    (ws : List Write) (hws : arrived t = ws.map fun w => some (w.message streamSid).read) :
    (handed t).map (·.data) <+: ws.flatMap Write.audio ∧
      (s.done = false → s.reader.inbox = [] → s.reader.pc.pending Frame.data = [] →
        (handed t).map (·.data) = ws.flatMap Write.audio) := by
  have hcarried := Carried.run hr
  have haudio : (arrived t).flatMap audio = ws.flatMap Write.audio := by
    rw [hws, List.flatMap_map]
    exact congrArg ws.flatMap (funext (audio_read streamSid))
  rw [← haudio]
  exact ⟨hcarried.begins, hcarried.whole⟩

theorem receive_two_writes_paced : ∃ (t : List Seen) (s : Receiving Unit), handed t = [⟨[1, 2], 0⟩, ⟨[3], 20000000⟩] ∧
    Run ReceiveStep (Receiving.start 0) t s ∧ (handed t).map (·.data) = (arrived t).flatMap audio := by
  obtain ⟨s, hrun, hdone, hinbox, hpending⟩ := exchange_twice
  exact ⟨_, s, rfl, hrun, (receive_in_order_paced 0 hrun).2.1 hdone hinbox hpending⟩

theorem receive_two_writes : ∃ (t : List Seen) (s : Receiving Unit), Run ReceiveStep (Receiving.start 0) t s ∧
    s.done = false ∧ (handed t).map (·.data) = [Write.send ⟨[1, 2], 0⟩, .send ⟨[3], 0⟩].flatMap Write.audio := by
  obtain ⟨s, hrun, hdone, hinbox, hpending⟩ := exchange_twice
  exact ⟨_, s, hrun, hdone, (receive_of_writes 0 hrun "MZ" _ rfl).2 hdone hinbox hpending⟩

end Gopkg.Voice.Twilio
