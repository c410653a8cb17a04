import Gopkg.Voice.Whatsapp.Lemmas.BargeIn
import Gopkg.Voice.Whatsapp.Lemmas.Pacing
import Gopkg.Voice.Whatsapp.Lemmas.Playback
import Gopkg.Voice.Whatsapp.Lemmas.Receive

/-!
# Theorems about the WhatsApp transport
-/

namespace Gopkg.Voice.Whatsapp

open Lts Audio Pacing

variable {encode : List Int16 → Except String (List UInt8)} {s s' : Transport} {t : List Event}

/-! ## Framing -/

/-- The blocks that are handed to the encoder depend only on the bytes that were accepted, however they were cut into
frames of even length: they are the consecutive blocks of the samples, and `sendBuf` has the rest. The queue holds some
of them, in order, and is never longer than its capacity. -/
theorem framing_of_stream (hr : Run (Step encode) Transport.new t s)
    (heven : ∀ data, .accepted data ∈ t → data.length % 2 = 0) (hok : ∀ err, .sendReturned (some err) ∉ t) :
    (s.sender = .idle →
      (encodedBlocks t).map values = Stream.blocks 480 (samplesLE (acceptedBytes t)) ∧
      values s.sendBuf = Stream.rest 480 (samplesLE (acceptedBytes t)) ∧ s.sendBuf.length < 480 ∧
      ∀ t' s', Run (Step encode) Transport.new t' s' → (∀ data, .accepted data ∈ t' → data.length % 2 = 0) →
        (∀ err, .sendReturned (some err) ∉ t') → s'.sender = .idle → acceptedBytes t' = acceptedBytes t →
        (encodedBlocks t').map values = (encodedBlocks t).map values) ∧
    (s.outQueue.map OpusFrame.samples).Sublist (encodedBlocks t) ∧
      (∀ f ∈ s.outQueue, encode (values f.samples) = .ok f.data) ∧ s.outQueue.length ≤ 1000 := by
  have h := Framed.run hr heven hok
  refine ⟨fun hidle => ?_, h.queued, h.data, h.bounded⟩
  obtain ⟨hblocks, hrest⟩ := h.blocks_eq hidle
  refine ⟨hblocks, hrest, h.idle hidle, fun t' s' hr' heven' hok' hidle' hbytes => ?_⟩
  have hblocks' := ((Framed.run hr' heven' hok').blocks_eq hidle').1
  rw [hblocks', hblocks, hbytes]

/-- An encoder that never fails. -/
def emptyFrames (_ : List Int16) : Except String (List UInt8) := .ok []

theorem exists_block : ∃ data : List UInt8, data.length % 2 = 0 ∧ (bytesToInt16LE data).length = outFrameSamples := by
  refine ⟨List.replicate (2 * outFrameSamples) 0, ?_, ?_⟩
  · rw [List.length_replicate, Nat.mul_mod_right]
  · rw [bytesToInt16LE, length_samplesLE, List.length_replicate, Nat.mul_div_right _ Nat.two_pos]

/-- A sample and then a block: one block is encoded, and one sample is left. -/
theorem framing_of_stream_rest : ∃ (t : List Event) (s : Transport), Run (Step emptyFrames) Transport.new t s ∧
    (encodedBlocks t).length = 1 ∧ s.sendBuf.length = 1 ∧
    (encodedBlocks t).map values = Stream.blocks 480 (samplesLE (acceptedBytes t)) ∧
    values s.sendBuf = Stream.rest 480 (samplesLE (acceptedBytes t)) ∧ s.sendBuf.length < 480 := by
  obtain ⟨data, heven, hdata⟩ := exists_block
  have hlen : (([] ++ number 0 (bytesToInt16LE [1, 0])) ++ number 1 (bytesToInt16LE data)).length = 481 := by
    simp only [List.length_append, number, List.length_mapIdx, hdata]
    rfl
  have hleft : ((([] ++ number 0 (bytesToInt16LE [1, 0])) ++ number 1 (bytesToInt16LE data)).drop 480).length = 1 := by
    rw [List.length_drop, hlen]
  have h₁ : Run (Step emptyFrames) Transport.new _ _ := .single (.T_Send [1, 0] rfl rfl)
  have h₂ := h₁.snoc (.T_Sent rfl (by decide))
  have h₃ := h₂.snoc (.T_Send data rfl rfl)
  have h₄ := h₃.snoc (.T_Encode rfl (hlen ▸ by decide) rfl)
  have h₅ := h₄.snoc (.T_Sent rfl (hleft ▸ by decide))
  obtain ⟨hblocks, hrest, hshort, _⟩ := (framing_of_stream h₅ (by simp [heven]) (by simp)).1 rfl
  exact ⟨_, _, h₅, rfl, hleft, hblocks, hrest, hshort⟩

/-! ## Barge-in -/

/-- A `Clear` that returns while no `Send` is going on keeps the samples accepted before it out of every frame that is
written later if and only if no sample was left in `sendBuf`. -/
theorem clear_drops_accepted_iff (hencode : ∀ block, ∃ data, encode block = .ok data)
    (hr : Run (Step encode) Transport.new t s) (hidle : s.sender = .idle) (hopen : s.closed = false)
    (hclear : Step encode s [.clearReturned] s') :
    (∀ t' s'', Run (Step encode) s' t' s'' → ∀ f, .paced (some f) ∈ t' → ∀ x ∈ f.samples, s.accepted ≤ x.position) ↔
      s.sendBuf = [] := by
  obtain ⟨hbuffered, hpacing⟩ := Sound.run hr
  cases hclear with
  | T_ClearReturns _ hempty =>
      constructor
      · intro hpaced
        cases hbuf : s.sendBuf with
        | nil => rfl
        | cons x buf =>
            obtain ⟨t', s'', f, hr', hf, hx⟩ := leftover_paced (s := { s with clearing := s.clearing - 1 }) hidle
              hopen (hpacing hopen) hempty hencode hbuf
            have hlt := hbuffered x (hbuf ▸ List.mem_cons_self)
            exact absurd (hpaced t' s'' hr' f hf x hx) (Nat.not_le.mpr hlt)
      · intro hbuf t' s'' hr'
        have hfresh : Fresh s.accepted { s with clearing := s.clearing - 1 } := by
          refine ⟨Nat.le_refl _, ?_, ?_⟩
          · rw [hbuf]
            exact nofun
          · rw [hempty]
            exact nofun
        exact hfresh.run hr'

/-- A whole block is cleared. -/
theorem clear_drops_accepted_iff_block : ∃ (t : List Event) (s s' : Transport),
    Run (Step emptyFrames) Transport.new t s ∧ s.accepted = 480 ∧ Step emptyFrames s [.clearReturned] s' ∧
      ∀ t' s'', Run (Step emptyFrames) s' t' s'' → ∀ f, .paced (some f) ∈ t' → ∀ x ∈ f.samples, 480 ≤ x.position := by
  obtain ⟨data, _, hdata⟩ := exists_block
  have hlen : ([] ++ number 0 (bytesToInt16LE data)).length = 480 := by
    rw [List.nil_append, number, List.length_mapIdx, hdata]
    rfl
  have hleft : ([] ++ number 0 (bytesToInt16LE data)).drop 480 = [] := List.drop_eq_nil_of_le (Nat.le_of_eq hlen)
  have hshort : (([] ++ number 0 (bytesToInt16LE data)).drop 480).length < 480 := by
    rw [hleft]
    decide
  have h₁ : Run (Step emptyFrames) Transport.new _ _ := .single (.T_Send data rfl rfl)
  have h₂ := h₁.snoc (.T_Encode rfl (Nat.le_of_eq hlen.symm) rfl)
  have h₃ := h₂.snoc (.T_Sent rfl hshort)
  have h₄ := h₃.snoc .T_Clear
  have h₅ := h₄.snoc (.T_Drop Nat.one_pos rfl)
  have haccepted : 0 + (bytesToInt16LE data).length = 480 := by rw [Nat.zero_add, hdata]; rfl
  have hdrops := (clear_drops_accepted_iff (fun _ => ⟨[], rfl⟩) h₅ rfl rfl (.T_ClearReturns Nat.one_pos rfl)).mpr hleft
  exact ⟨_, _, _, h₅, haccepted, .T_ClearReturns Nat.one_pos rfl, haccepted ▸ hdrops⟩

/-- One sample is left when the queue is cleared, and is written with the next block. -/
theorem cleared_sample_paced : ∃ (t t' : List Event) (s s' s'' : Transport) (f : OpusFrame) (x : Sample),
    Run (Step emptyFrames) Transport.new t s ∧ s.sender = .idle ∧ s.closed = false ∧
      Step emptyFrames s [.clearReturned] s' ∧ Run (Step emptyFrames) s' t' s'' ∧ .paced (some f) ∈ t' ∧ x ∈ f.samples ∧
      x.position < s.accepted := by
  have h₁ : Run (Step emptyFrames) Transport.new _ _ := .single (.T_Send [1, 0] rfl rfl)
  have h₂ := h₁.snoc (.T_Sent rfl (by decide))
  have h₃ := h₂.snoc .T_Clear
  obtain ⟨t', s'', f, hr', hf, hmem⟩ := leftover_paced (s := ⟨[⟨1, 0⟩], [], false, .idle, true, 0, 1⟩) rfl rfl rfl rfl
    (fun _ => ⟨[], rfl⟩) rfl
  exact ⟨_, t', _, _, s'', f, _, h₃, rfl, rfl, .T_ClearReturns Nat.one_pos rfl, hr', hf, hmem, by decide⟩

/-! ## Playback -/

/-- The frames that were written and then those of the queue are encoded blocks in their order, each at most once. If no
frame was dropped, and those that were sent had whole samples, they and the samples in `sendBuf` are all that was
accepted, and what was written is a beginning of the blocks of the stream. -/
theorem playback_of_stream (hr : Run (Step encode) Transport.new t s) :
    ((heard t s).map OpusFrame.samples).Sublist (encodedBlocks t) ∧
      (∀ f ∈ heard t s, encode (values f.samples) = .ok f.data) ∧
      (Run (Restrict (Step encode) Keeps) Transport.new t s →
        (∀ data, .accepted data ∈ t → data.length % 2 = 0) →
        values (((heard t s).map OpusFrame.samples).flatten ++ s.sendBuf) = samplesLE (acceptedBytes t) ∧
        (s.sender = .idle →
          (playedFrames t).map (values ∘ OpusFrame.samples) <+: Stream.blocks 480 (samplesLE (acceptedBytes t)))) := by
  have hheard := Heard.run hr
  refine ⟨hheard.inOrder, hheard.data, fun hkeeps heven => ?_⟩
  have hframed := Framed.run hr heven (sent_of_keeps hkeeps)
  have hall := heard_eq_encoded hkeeps
  refine ⟨hall ▸ hframed.samples, fun hidle => ?_⟩
  have hblocks := (hframed.blocks_eq hidle).1
  rw [← hall, heard, List.map_append, List.map_append, List.map_map] at hblocks
  exact ⟨_, hblocks⟩

/-- A block is sent and written. -/
theorem playback_of_block : ∃ (t : List Event) (s : Transport), Run (Step emptyFrames) Transport.new t s ∧
    Run (Restrict (Step emptyFrames) Keeps) Transport.new t s ∧ (playedFrames t).length = 1 ∧
    values (((heard t s).map OpusFrame.samples).flatten ++ s.sendBuf) = samplesLE (acceptedBytes t) := by
  obtain ⟨data, heven, hdata⟩ := exists_block
  have hlen : ([] ++ number 0 (bytesToInt16LE data)).length = 480 := by
    rw [List.nil_append, number, List.length_mapIdx, hdata]
    rfl
  have h₁ : Run (Restrict (Step emptyFrames) Keeps) Transport.new _ _ :=
    .single ⟨.T_Send data rfl rfl, by simp, by simp, by simp⟩
  have h₂ := h₁.snoc
    ⟨.T_Encode rfl (Nat.le_of_eq hlen.symm) rfl, by simp [Transport.new, queueCapacity], by simp, by simp⟩
  have h₃ := h₂.snoc ⟨.T_Pace rfl rfl, by simp, by simp, by simp⟩
  obtain ⟨-, -, hkept⟩ := playback_of_stream h₃.of_restrict
  exact ⟨_, _, h₃.of_restrict, h₃, rfl, (hkept h₃ (by simp [heven])).1⟩

/-! ## Pacing -/

/-- The pacer is never ahead of real time, and what it writes between two moments takes at most the time between them
and 52 frames more, however late the scheduler lets it run. No frame is written before its deadline, and the deadlines
do not drift as long as the pacer is never more than a second late. -/
theorem pacing_keeps_time {t₀ : Int} {p : Pacer} {t : List Timed}
    (hr : Run (PacerStep encode) (Pacer.start t₀) t p) :
    frameDur * (ticks t).length ≤ p.now - t₀ ∧
      (∀ a b, a ≤ b → frameDur * ((ticks t).filter fun x => a ≤ x.written ∧ x.written ≤ b).length ≤
        b - a + 52 * frameDur) ∧
      (∀ x ∈ ticks t, x.deadline ≤ x.written) ∧
      (Run (Restrict (PacerStep encode) InTime) (Pacer.start t₀) t p →
        ∀ (k : Nat) (x : Tick), (ticks t)[k]? = some x → x.deadline = t₀ + frameDur * (k + 1)) ∧
      Run (Step encode) Transport.new (events t) p.transport := by
  have h := Timing.run hr
  refine ⟨?_, fun a b hab => ?_, h.paced.of_cons.due, fun hin => (Steady.run hin).deadline, forget_run hr⟩
  · have hlast := h.paced.mul_length_le h.past
    simp only at hlast
    linarith
  · have hwindow := (h.paced.of_cons.filter fun x => a ≤ x.written ∧ x.written ≤ b).window hab (by decide) (by decide)
      fun x hx => by simpa using (List.mem_filter.mp hx).2
    refine hwindow.trans_eq ?_
    simp only [frameDur, resyncAfter]
    ring

/-- The first frame is silence, and is written a millisecond late. -/
theorem pacing_keeps_time_silence : ∃ (t : List Timed) (p : Pacer),
    Run (PacerStep emptyFrames) (Pacer.start 0) t p ∧ ticks t = [⟨20000000, 21000000⟩] ∧
      frameDur * (ticks t).length ≤ p.now := by
  have h₁ : Run (PacerStep emptyFrames) (Pacer.start 0) _ _ := .single (.P_Wait rfl (by decide))
  have h₂ := h₁.snoc (.P_Time (d := 21000000) (by decide))
  have h₃ := h₂.snoc (.P_Fire rfl (by decide))
  have h₄ := h₃.snoc (.P_Write rfl (.T_Silence rfl rfl))
  exact ⟨_, _, h₄, rfl, by simpa using (pacing_keeps_time h₄).1⟩

/-! ## The caller -/

section Receive

variable {δ τ V : Type} {D : Decoder δ} {text : Err V → String} {llm : LLM τ V} {C : CallSetup} {b : Bridge × Bridge}
  {d : δ} {l : τ}

/-- All that has come from the caller was sent on. -/
structure CallerDone (s : State (Receiver δ V) τ V) : Prop where
  live : s.done = false
  opened : s.transport.closed = false
  read : s.transport.read = s.transport.caller.length
  taken : s.transport.pc.offer = []
  sent : inHand s.audio = []

/-- In every interleaving of a session with any LLM, the frames that are sent to the LLM are what the packets of the
caller's first track are decoded to, in order, without the packets that cannot be decoded. Nothing is missing when all
that has come was handled. A frame is made of at most 960 whole samples, which can be read back from it. -/
theorem caller_heard (hb : (call D text llm C).bridges = .ok b) {t : List (Voice.Event V)}
    {s : State (Receiver δ V) τ V} (hr : Run (Voice.Step (call D text llm C)) (State.init (.fresh d) l) t s) :
    (sentFrames t).map Frame.data <+: (decodeAll D d s.transport.caller).2 ∧
      (CallerDone s → (sentFrames t).map Frame.data = (decodeAll D d s.transport.caller).2) ∧
      ∀ f ∈ sentFrames t, f.data = int16LEToBytes (bytesToInt16LE f.data) ∧ (bytesToInt16LE f.data).length ≤ 960 := by
  obtain ⟨got, c, hserves⟩ := Serves.exists_run hb hr
  obtain ⟨-, lost, hreceived⟩ := received_run hserves.run
  have hgot : got = sentFrames t ++ inHand s.audio := by
    have hframes := hserves.frames
    rw [inbound_passthrough hb] at hframes
    exact (List.map_injective_iff.mpr fun _ _ => Except.ok.inj) hframes
  rw [hserves.source, hserves.done] at hreceived
  have hbegins : (sentFrames t).map Frame.data <+: (decodeAll D d s.transport.caller).2 := by
    refine List.IsPrefix.trans ?_ hreceived.begins
    rw [hgot, List.map_append]
    exact List.prefix_append _ _
  refine ⟨hbegins, fun h => ?_, fun f hf => ?_⟩
  · rw [← hreceived.whole h.opened h.live h.read h.taken, hgot, h.sent, List.append_nil]
  · obtain ⟨pcm, hdata, hlen⟩ := decodeAll_bounded D d _ _ (hbegins.subset (List.mem_map_of_mem hf))
    rw [hdata, bytesToInt16LE_int16LEToBytes]
    exact ⟨rfl, hlen⟩

/-- The decoder before any speech has come. A packet of the one byte `0xf8` announces twenty milliseconds that were not
sent, which are silent; in an empty one there is nothing to decode. It takes no other packet. -/
def unspoken : Decoder Unit where
  decode _ payload := ((), if payload = [0xf8] then some (List.replicate 320 0) else none)
  bounded _ payload pcm hpcm := by
    simp only [Option.mem_def] at hpcm
    split at hpcm
    · rw [← Option.some.inj hpcm, List.length_replicate]
      decide
    · cases hpcm

/-- An LLM that listens. -/
def listener : LLM Unit Unit where
  start := id
  tick _ _ _ _ := False
  peer _ _ := False
  recv _ _ _ _ := False
  close := id
  inboundFormat := { encoding := .pcm16le, sampleRate := 24000, channels := 1 }
  outboundFormat := { encoding := .pcm16le, sampleRate := 16000, channels := 1 }
  openStep _ _ r _ := r = some none

def listening : CallSetup where
  filler := silentFiller
  toolConcurrency := 1
  positive := Nat.one_pos
  setup := { history := [], wakeSignal := "" }

/-- The caller sends a packet that cannot be decoded and then one that can. -/
theorem caller_heard_word : ∃ (t : List (Voice.Event Unit)) (s : State (Receiver Unit Unit) Unit Unit),
    Run (Voice.Step (call unspoken (fun _ => "") listener listening)) (State.init (.fresh ()) ()) t s ∧
      (sentFrames t).map Frame.data = [int16LEToBytes (List.replicate 320 0)] := by
  have hb : (call unspoken (fun _ => "") listener listening).bridges = .ok (.passthrough, .passthrough) := rfl
  have hresolve : Voice.Step (call unspoken (fun _ => "") listener listening) (State.init (.fresh ()) ()) [] _ :=
    .main (.M_Resolved rfl hb)
  have hopen := (((Run.single hresolve).snoc (.main (.M_Opened (l := ()) rfl rfl))).snoc
    (.main (.M_Injected (p := false) rfl))).snoc (.main (.M_Receive rfl))
  have hstart := (hopen.snoc (.main (.M_Events rfl))).snoc (.main (.M_Start (p := false) rfl))
  have htrack := (hstart.snoc (.env (.N_Transport (.P_Track rfl)))).snoc
    (.adapter (.T_Tick (e := none) (.W_Track rfl rfl)))
  have hpackets := (htrack.snoc (.env (.N_Transport (.P_Packet 0 [] rfl)))).snoc
    (.env (.N_Transport (.P_Packet 0 [0xf8] rfl)))
  have hread := (hpackets.snoc (.adapter (.T_Tick (e := none) (.W_Skip rfl rfl rfl)))).snoc
    (.adapter (.T_Tick (e := none) (.W_Frame 0 rfl rfl rfl)))
  have hsent := (hread.snoc (.audio (.A_Frame rfl hb (.C_Item rfl)))).snoc (.audio (.A_Send none rfl))
  exact ⟨_, _, hsent, (caller_heard hb hsent).2.1 ⟨rfl, rfl, rfl, rfl, rfl⟩⟩

/-- The goroutine of `Receive` can go on unless it waits for a track, for a packet, or for someone to take a frame; the
one error never waits. Each of its steps brings it nearer to its end once `Close` was called, and nothing else takes it
back. -/
theorem receive_released {got : List Frame} {c : Client (Receiver δ V)}
    (hr : Run (ClientStep (transport D text).toSource) (Client.init (.fresh d)) got c) :
    ((∀ e r, ¬ ReceiverTick D text c.done c.source e r) ↔ Blocked c.done c.source) ∧
      (c.source.closed = true → (Blocked c.done c.source ↔ c.source.pc = .idle ∨ c.source.pc = .exited) ∧
        (∀ e r, ReceiverTick D text c.done c.source e r → r.left < c.source.left) ∧
        ∀ shown c', ClientStep (transport D text).toSource c shown c' →
          c'.source.left ≤ c.source.left ∧ c'.source.closed = true) := by
  obtain ⟨hsane, -⟩ := received_run hr
  refine ⟨⟨blocked_of_no_tick hsane.room, fun h e r => no_tick_of_blocked h⟩, fun hclosed => ⟨?_, ?_, ?_⟩⟩
  · unfold Blocked
    cases c.source.pc <;> simp [hclosed]
  · exact fun e r => left_tick hsane.track
  · exact fun shown c' => left_step hsane hclosed

/-- `Close` is called while a frame is on offer, and the goroutine gives it up. -/
theorem receive_released_offer : ∃ (got : List Frame) (c : Client (Receiver Unit Unit)) (r : Receiver Unit Unit),
    Run (ClientStep (transport unspoken fun _ => "").toSource) (Client.init (.fresh ())) got c ∧
      ReceiverTick unspoken (fun _ => "") c.done c.source none r ∧ r.pc = .closingErrs ∧ r.left < c.source.left := by
  have hstart : ClientStep (transport unspoken fun _ => "").toSource
      (Client.init (.fresh ()) : Client (Receiver Unit Unit)) [] _ := .K_Start rfl
  have htrack := ((Run.single hstart).snoc (.K_Peer (.P_Track rfl))).snoc (.K_Tick (e := none) (.W_Track rfl rfl))
  have hread := (htrack.snoc (.K_Peer (.P_Packet 0 [0xf8] rfl))).snoc (.K_Tick (e := none) (.W_Frame 0 rfl rfl rfl))
  have hclosed := hread.snoc .K_Close
  have hfalls := ((receive_released hclosed).2 rfl).2.1 none
  exact ⟨_, _, _, hclosed, .W_Drop rfl (.inl rfl), rfl, hfalls _ (.W_Drop rfl (.inl rfl))⟩

end Receive

end Gopkg.Voice.Whatsapp
