import Gopkg.Audio.Lemmas.Upsample
import Gopkg.Voice.Lemmas.Source
import Gopkg.Voice.Whatsapp.Receive

/-!
# What `Receive` hands over

The audio of the packets that were read, in order. A frame that is not handed over is on offer, or was given up because
the transport is closed or the context is done.
-/

namespace Gopkg.Voice.Whatsapp

open Lts Audio

variable {δ V : Type} {D : Decoder δ} {text : Err V → String} {d : δ} {got : List Frame} {done done' : Bool}
  {r r' : Receiver δ V} {lost : List (List UInt8)} {c c' : Client (Receiver δ V)}

/-! ## Packets -/

theorem decodeAll_snoc (D : Decoder δ) (d : δ) (payloads : List (List UInt8)) (payload : List UInt8) :
    decodeAll D d (payloads ++ [payload]) = ((D.decode (decodeAll D d payloads).1 payload).1,
      (decodeAll D d payloads).2 ++ (D.decode (decodeAll D d payloads).1 payload).2.toList.map int16LEToBytes) := by
  simp [decodeAll]

theorem decodeAll_append (D : Decoder δ) (d : δ) (payloads more : List (List UInt8)) :
    (decodeAll D d payloads).2 <+: (decodeAll D d (payloads ++ more)).2 := by
  induction more using List.reverseRecOn with
  | nil => simp
  | append_singleton more payload ih =>
      rw [← List.append_assoc, decodeAll_snoc]
      exact ih.trans (List.prefix_append _ _)

theorem decodeAll_bounded (D : Decoder δ) (d : δ) (payloads : List (List UInt8)) :
    ∀ data ∈ (decodeAll D d payloads).2, ∃ pcm, data = int16LEToBytes pcm ∧ pcm.length ≤ maxDecodeSamples := by
  induction payloads using List.reverseRecOn with
  | nil => simp [decodeAll]
  | append_singleton payloads payload ih =>
      rw [decodeAll_snoc]
      refine List.forall_mem_append.mpr ⟨ih, fun data hdata => ?_⟩
      obtain ⟨pcm, hpcm, rfl⟩ := List.mem_map.mp hdata
      exact ⟨pcm, rfl, D.bounded _ _ pcm (Option.mem_toList.mp hpcm)⟩

theorem bytesToInt16LE_int16LEToBytes (pcm : List Int16) : bytesToInt16LE (int16LEToBytes pcm) = pcm :=
  samplesLE_flatMap pcm

/-! ## The place of the receiver -/

/-- The track is not taken yet. -/
def ReceiverPc.Before : ReceiverPc V → Prop
  | .idle | .waiting => True
  | _ => False

/-- The goroutine is on its way out, with nothing more to say. -/
def ReceiverPc.Leaving : ReceiverPc V → Prop
  | .closingErrs | .closingFrames | .exited => True
  | _ => False

def ReceiverPc.track : ReceiverPc V → Option Nat
  | .reading tr | .emitting tr _ => some tr
  | _ => none

def ReceiverPc.offer : ReceiverPc V → List (List UInt8)
  | .emitting _ f => [f.data]
  | _ => []

/-! ## The law -/

/-- The first track is the only one that is read: none has come before it while the channel is empty. -/
structure OneTrack (r : Receiver δ V) : Prop where
  channel : r.pc.Before → ∀ tr ∈ r.remoteTrack, tr = 0
  none : r.pc.Before → r.remoteTrack = none → r.tracks = []
  unread : r.pc.Before → r.read = 0
  taken : ∀ tr ∈ r.pc.track, tr = 0

/-- The channel of errors has room for the one error that is put into it. -/
def Roomy (r : Receiver δ V) : Prop := ¬ r.pc.Leaving → r.errs = none

/-- `got` are the frames that the client has taken. -/
structure Received (D : Decoder δ) (d : δ) (got : List Frame) (done : Bool) (r : Receiver δ V)
    (lost : List (List UInt8)) : Prop where
  bound : r.read ≤ r.caller.length
  dec : r.dec = (decodeAll D d (r.caller.take r.read)).1
  frames : got.map Frame.data ++ r.pc.offer ++ lost = (decodeAll D d (r.caller.take r.read)).2
  givenUp : lost = [] ∨ (r.closed = true ∨ done = true) ∧ r.pc.Leaving

theorem Received.fresh (D : Decoder δ) (d : δ) : Received D d [] false (Receiver.fresh d : Receiver δ V) [] where
  bound := Nat.le_refl _
  dec := rfl
  frames := rfl
  givenUp := .inl rfl

theorem OneTrack.fresh (d : δ) : OneTrack (Receiver.fresh d : Receiver δ V) where
  channel _ := by simp [Receiver.fresh]
  none _ _ := rfl
  unread _ := rfl
  taken := by simp [Receiver.fresh, ReceiverPc.track]

theorem Received.lost_eq_nil (h : Received D d got done r lost) (hpc : ¬ r.pc.Leaving) : lost = [] :=
  h.givenUp.resolve_right fun hk => hpc hk.2

/-- A step that reads nothing. -/
theorem Received.quiet (h : Received D d got done r lost) (hcaller : r'.caller = r.caller) (hdec : r'.dec = r.dec)
    (hread : r'.read = r.read) (hoffer : r'.pc.offer = r.pc.offer)
    (hkept : r.closed = true ∨ done = true → r.pc.Leaving → (r'.closed = true ∨ done' = true) ∧ r'.pc.Leaving) :
    Received D d got done' r' lost where
  bound := by rw [hread, hcaller]; exact h.bound
  dec := by rw [hdec, hread, hcaller]; exact h.dec
  frames := by rw [hoffer, hread, hcaller]; exact h.frames
  givenUp := h.givenUp.imp_right fun hk => hkept hk.1 hk.2

theorem take_next {payload : List UInt8} (hnext : r.next 0 = some payload) :
    r.read < r.caller.length ∧ r.caller.take (r.read + 1) = r.caller.take r.read ++ [payload] := by
  obtain ⟨hlt, rfl⟩ := List.getElem?_eq_some_iff.mp hnext
  exact ⟨hlt, List.take_succ_eq_append_getElem hlt⟩

/-- One more packet is read. -/
theorem Received.read_next {payload : List UInt8} (h : Received D d got done r lost) (hpc : r.pc = .reading 0)
    (hnext : r.next 0 = some payload) (hcaller : r'.caller = r.caller) (hread : r'.read = r.read + 1)
    (hdec : r'.dec = (D.decode r.dec payload).1)
    (hoffer : r'.pc.offer = (D.decode r.dec payload).2.toList.map int16LEToBytes) : Received D d got done r' [] := by
  obtain ⟨hlt, htake⟩ := take_next hnext
  have hlost : lost = [] := h.lost_eq_nil (by rw [hpc]; exact id)
  have hframes := h.frames
  rw [hpc, hlost, show (ReceiverPc.reading 0 : ReceiverPc V).offer = [] from rfl, List.append_nil,
    List.append_nil] at hframes
  refine ⟨?_, ?_, ?_, .inl rfl⟩
  · rw [hcaller, hread]; exact hlt
  · rw [hdec, hcaller, hread, htake, decodeAll_snoc, h.dec]
  · rw [hoffer, hcaller, hread, htake, decodeAll_snoc, ← hframes, h.dec, List.append_nil]

/-- The frame on offer is given up. -/
theorem Received.drop (h : Received D d got done r lost) (hcaller : r'.caller = r.caller) (hdec : r'.dec = r.dec)
    (hread : r'.read = r.read) (hclosed : r'.closed = r.closed) (hpc : r'.pc = .closingErrs)
    (hgone : r.closed = true ∨ done = true) : Received D d got done r' (r.pc.offer ++ lost) where
  bound := by rw [hread, hcaller]; exact h.bound
  dec := by rw [hdec, hread, hcaller]; exact h.dec
  frames := by
    rw [hpc, hread, hcaller, ← h.frames]
    simp [ReceiverPc.offer]
  givenUp := .inr ⟨by rw [hclosed]; exact hgone, by rw [hpc]; trivial⟩

theorem Received.tick {x : Option (Ending V)} (h : Received D d got done r lost) (hone : OneTrack r)
    (htick : ReceiverTick D text done r x r') : ∃ lost', Received D d got done r' lost' := by
  have hzero : ∀ {tr : Nat}, r.pc = .reading tr → tr = 0 := by
    intro tr hpc
    exact hone.taken tr (by rw [hpc]; rfl)
  cases htick with
  | W_Track hpc _ | W_End hpc _ _ | W_Closed hpc _ | W_Put hpc _ =>
      refine ⟨lost, h.quiet rfl rfl rfl (by rw [hpc]; rfl) fun _ hk => ?_⟩
      rw [hpc] at hk
      exact hk.elim
  | W_CloseErrs hpc | W_CloseFrames hpc =>
      exact ⟨lost, h.quiet rfl rfl rfl (by rw [hpc]; rfl) fun hd _ => ⟨hd, trivial⟩⟩
  | W_Frame now hpc hnext hdecode =>
      cases hzero hpc
      exact ⟨[], h.read_next hpc hnext rfl rfl (by rw [hdecode]) (by rw [hdecode]; rfl)⟩
  | W_Skip hpc hnext hdecode =>
      cases hzero hpc
      exact ⟨[], h.read_next hpc hnext rfl rfl (by rw [hdecode]) (by rw [hdecode]; simp [hpc, ReceiverPc.offer])⟩
  | W_GiveUp _ hgone | W_Drop _ hgone => exact ⟨_, h.drop rfl rfl rfl rfl rfl hgone⟩

theorem OneTrack.tick {x : Option (Ending V)} (h : OneTrack r) (htick : ReceiverTick D text done r x r') :
    OneTrack r' := by
  have hleaves : ∀ {pc : ReceiverPc V}, ¬ pc.Before → pc.track = Option.none → OneTrack { r with pc := pc } :=
    fun hb htrack => ⟨fun hk => absurd hk hb, fun hk => absurd hk hb, fun hk => absurd hk hb, by simp [htrack]⟩
  cases htick with
  | W_Track hpc htr =>
      refine ⟨fun hk => hk.elim, fun hk => hk.elim, fun hk => hk.elim, fun tr htr' => ?_⟩
      cases htr'
      exact h.channel (by rw [hpc]; trivial) _ htr
  | W_Frame now hpc _ _ =>
      refine ⟨fun hk => hk.elim, fun hk => hk.elim, fun hk => hk.elim, fun tr htr' => ?_⟩
      exact h.taken tr (by rw [hpc]; exact htr')
  | W_Skip hpc _ _ =>
      have hread : ¬ r.pc.Before := by rw [hpc]; exact id
      exact ⟨fun hk => absurd hk hread, fun hk => absurd hk hread, fun hk => absurd hk hread, h.taken⟩
  | W_GiveUp _ _ | W_End _ _ _ | W_Closed _ _ | W_Drop _ _ | W_CloseErrs _ | W_CloseFrames _ => exact hleaves id rfl
  | W_Put _ _ => exact ⟨fun hk => hk.elim, fun hk => hk.elim, fun hk => hk.elim, by simp [ReceiverPc.track]⟩

theorem Roomy.tick {x : Option (Ending V)} (h : Roomy r) (htick : ReceiverTick D text done r x r') : Roomy r' := by
  cases htick with
  | W_Track hpc _ | W_Frame _ hpc _ _ | W_Skip hpc _ _ | W_End hpc _ _ | W_Closed hpc _ =>
      exact fun _ => h (by rw [hpc]; exact id)
  | W_GiveUp _ _ | W_Drop _ _ | W_Put _ _ | W_CloseErrs _ | W_CloseFrames _ => exact fun hk => absurd trivial hk

theorem Received.recv {x : Recv Frame V} (h : Received D d got done r lost) (hrecv : ReceiverRecv r x r')
    (hitem : ∀ f, x ≠ .item f) : Received D d got done r' lost := by
  cases hrecv with
  | C_Item _ => exact absurd rfl (hitem _)
  | C_Closed _ | C_Error _ | C_ErrorNil _ | C_ErrorClosed _ _ => exact h.quiet rfl rfl rfl rfl fun hd hpc => ⟨hd, hpc⟩

/-- The client takes the frame on offer. -/
theorem Received.take {f : Frame} (h : Received D d got done r lost) (hrecv : ReceiverRecv r (.item f) r') :
    Received D d (got ++ [f]) done r' lost := by
  cases hrecv with
  | C_Item hpc =>
      refine ⟨h.bound, h.dec, ?_, .inl (h.lost_eq_nil (by rw [hpc]; exact id))⟩
      change _ = (decodeAll D d (r.caller.take r.read)).2
      rw [← h.frames, hpc]
      simp [ReceiverPc.offer]

theorem OneTrack.recv {x : Recv Frame V} (h : OneTrack r) (hrecv : ReceiverRecv r x r') : OneTrack r' := by
  cases hrecv with
  | C_Item hpc =>
      refine ⟨fun hk => hk.elim, fun hk => hk.elim, fun hk => hk.elim, fun tr htr => ?_⟩
      exact h.taken tr (by rw [hpc]; exact htr)
  | C_Closed _ | C_Error _ | C_ErrorNil _ | C_ErrorClosed _ _ => exact ⟨h.channel, h.none, h.unread, h.taken⟩

theorem Roomy.recv {x : Recv Frame V} (h : Roomy r) (hrecv : ReceiverRecv r x r') : Roomy r' := by
  cases hrecv with
  | C_Item hpc => exact fun _ => h (by rw [hpc]; exact id)
  | C_Closed _ | C_ErrorClosed _ _ => exact h
  | C_Error _ | C_ErrorNil _ => exact fun _ => rfl

/-- Packets only come after those that were read. -/
theorem caller_peer (hpeer : ReceiverPeer r r') (hread : r.read ≤ r.caller.length) :
    r.read ≤ r'.caller.length ∧ r'.caller.take r.read = r.caller.take r.read := by
  cases hpeer with
  | P_End _ _ => exact ⟨hread, rfl⟩
  | P_Track _ =>
      have hcaller : (r.tracks ++ [[]]).getD 0 [] = r.caller := by
        rw [Receiver.caller]
        cases r.tracks <;> rfl
      rw [Receiver.caller, hcaller]
      exact ⟨hread, rfl⟩
  | P_Packet tr payload _ =>
      have hcaller : r.caller <+: (r.tracks.modify tr (· ++ [payload])).getD 0 [] := by
        rw [Receiver.caller]
        cases r.tracks with
        | nil => simp
        | cons p ps => cases tr <;> simp
      refine ⟨hread.trans hcaller.length_le, ?_⟩
      obtain ⟨more, hmore⟩ := hcaller
      rw [Receiver.caller, ← hmore, List.take_append_of_le_length hread]

theorem Received.peer (h : Received D d got done r lost) (hpeer : ReceiverPeer r r') :
    Received D d got done r' lost := by
  obtain ⟨hbound, htake⟩ := caller_peer hpeer h.bound
  have hsame : r'.pc = r.pc ∧ r'.dec = r.dec ∧ r'.read = r.read ∧ r'.closed = r.closed := by
    cases hpeer <;> exact ⟨rfl, rfl, rfl, rfl⟩
  obtain ⟨hpc, hdec, hread, hclosed⟩ := hsame
  exact ⟨by rw [hread]; exact hbound, by rw [hdec, hread, htake]; exact h.dec,
    by rw [hpc, hread, htake]; exact h.frames, by rw [hclosed, hpc]; exact h.givenUp⟩

theorem OneTrack.peer (h : OneTrack r) (hpeer : ReceiverPeer r r') : OneTrack r' := by
  cases hpeer with
  | P_End _ _ => exact ⟨h.channel, h.none, h.unread, h.taken⟩
  | P_Track _ =>
      refine ⟨fun hk tr htr => ?_, fun hk hnone => ?_, h.unread, h.taken⟩
      · cases htrack : r.remoteTrack with
        | some first =>
            rw [show Receiver.remoteTrack _ = r.remoteTrack.or _ from rfl, htrack] at htr
            cases htr
            exact h.channel hk _ htrack
        | none =>
            rw [show Receiver.remoteTrack _ = r.remoteTrack.or _ from rfl, htrack, h.none hk htrack] at htr
            cases htr
            rfl
      · rw [show Receiver.remoteTrack _ = r.remoteTrack.or _ from rfl] at hnone
        simp at hnone
  | P_Packet tr payload _ =>
      refine ⟨h.channel, fun hk hnone => ?_, h.unread, h.taken⟩
      change r.tracks.modify tr _ = []
      rw [h.none hk hnone]
      simp

theorem Roomy.peer (h : Roomy r) (hpeer : ReceiverPeer r r') : Roomy r' := by
  cases hpeer <;> exact h

/-! ## Runs -/

/-- What holds of the transport of every client. -/
structure Sane (c : Client (Receiver δ V)) : Prop where
  idle : c.started = false → c.source.pc = .idle
  track : OneTrack c.source
  room : Roomy c.source

theorem Sane.step {shown : List Frame} (h : Sane c)
    (hs : ClientStep (transport D text).toSource c shown c') : Sane c' := by
  cases hs with
  | K_Start hstart =>
      have hidle := h.idle hstart
      have hbefore : c.source.pc.Before := by rw [hidle]; trivial
      refine ⟨by simp, ⟨fun _ => h.track.channel hbefore, fun _ => h.track.none hbefore,
        fun _ => h.track.unread hbefore, ?_⟩, fun _ => h.room (by rw [hidle]; exact id)⟩
      simp [transport, ReceiverPc.track]
  | K_Tick htick =>
      refine ⟨fun hstart => ?_, h.track.tick htick, h.room.tick htick⟩
      have hidle := h.idle hstart
      cases htick <;> simp_all
  | K_Peer hpeer =>
      refine ⟨fun hstart => ?_, h.track.peer hpeer, h.room.peer hpeer⟩
      have hidle := h.idle hstart
      cases hpeer <;> exact hidle
  | K_Take hrecv =>
      refine ⟨fun hstart => ?_, h.track.recv hrecv, h.room.recv hrecv⟩
      have hidle := h.idle hstart
      cases hrecv with
      | C_Item hpc => simp [hpc] at hidle
  | K_Recv hrecv _ =>
      refine ⟨fun hstart => ?_, h.track.recv hrecv, h.room.recv hrecv⟩
      have hidle := h.idle hstart
      cases hrecv <;> simp_all
  | K_Close => exact ⟨h.idle, ⟨h.track.channel, h.track.none, h.track.unread, h.track.taken⟩, h.room⟩
  | K_Cancel => exact ⟨h.idle, h.track, h.room⟩

theorem Received.step {shown : List Frame} (h : Received D d got c.done c.source lost) (hsane : Sane c)
    (hs : ClientStep (transport D text).toSource c shown c') :
    ∃ lost', Received D d (got ++ shown) c'.done c'.source lost' := by
  cases hs with
  | K_Start hstart =>
      have hidle := hsane.idle hstart
      rw [List.append_nil]
      refine ⟨lost, h.quiet rfl rfl rfl (by rw [hidle]; rfl) fun _ hk => ?_⟩
      rw [hidle] at hk
      exact hk.elim
  | K_Tick htick =>
      rw [List.append_nil]
      exact h.tick hsane.track htick
  | K_Peer hpeer =>
      rw [List.append_nil]
      exact ⟨lost, h.peer hpeer⟩
  | K_Take hrecv => exact ⟨lost, h.take hrecv⟩
  | K_Recv hrecv hitem =>
      rw [List.append_nil]
      exact ⟨lost, h.recv hrecv hitem⟩
  | K_Close =>
      rw [List.append_nil]
      exact ⟨lost, h.quiet rfl rfl rfl rfl fun _ hpc => ⟨.inl rfl, hpc⟩⟩
  | K_Cancel =>
      rw [List.append_nil]
      exact ⟨lost, h.quiet rfl rfl rfl rfl fun _ hpc => ⟨.inr rfl, hpc⟩⟩

theorem received_run (hr : Run (ClientStep (transport D text).toSource) (Client.init (.fresh d)) got c) :
    Sane c ∧ ∃ lost, Received D d got c.done c.source lost := by
  refine hr.invariant (I := fun got c => Sane c ∧ ∃ lost, Received D d got c.done c.source lost) ?_ ?_
  · exact ⟨⟨fun _ => rfl, .fresh d, fun _ => rfl⟩, [], .fresh D d⟩
  · rintro got c shown c' ⟨hsane, lost, h⟩ hs
    exact ⟨hsane.step hs, h.step hsane hs⟩

/-! ## What follows -/

theorem Received.begins (h : Received D d got done r lost) :
    got.map Frame.data <+: (decodeAll D d r.caller).2 := by
  have hread := decodeAll_append D d (r.caller.take r.read) (r.caller.drop r.read)
  rw [List.take_append_drop, ← h.frames, List.append_assoc] at hread
  exact (List.prefix_append _ _).trans hread

theorem Received.whole (h : Received D d got done r lost) (hclosed : r.closed = false) (hdone : done = false)
    (hread : r.read = r.caller.length) (hoffer : r.pc.offer = []) :
    got.map Frame.data = (decodeAll D d r.caller).2 := by
  have hlost : lost = [] := h.givenUp.resolve_right fun hk => by simp [hclosed, hdone] at hk
  have hframes := h.frames
  rw [hread, List.take_length, hoffer, hlost, List.append_nil, List.append_nil] at hframes
  exact hframes

/-! ## The session -/

/-- Audio of 16 kHz is not converted: the LLM takes it as it is, or there is no session. -/
theorem inbound_passthrough {τ : Type} {llm : LLM τ V} {C : CallSetup} {b : Bridge × Bridge}
    (h : (call D text llm C).bridges = .ok b) : b.1 = .passthrough := by
  have hresolve : ∀ (dst : AudioFormat) (b : Bridge),
      resolveBridge (V := V) (transport D text).inboundFormat dst = .ok b → b = .passthrough := by
    intro dst b hb
    unfold resolveBridge at hb
    split_ifs at hb with hchannels hsame hmulaw hpcm
    · exact (Except.ok.inj hb).symm
    · simp [transport] at hmulaw
    · simp [transport] at hpcm
  change (resolveBridge (transport D text).inboundFormat llm.outboundFormat >>= fun inbound =>
    resolveBridge llm.inboundFormat (transport D text).outboundFormat >>= fun outbound =>
      pure (inbound, outbound)) = .ok b at h
  cases hinbound : resolveBridge (V := V) (transport D text).inboundFormat llm.outboundFormat with
  | error e => rw [hinbound] at h; cases h
  | ok inbound =>
      cases houtbound : resolveBridge (V := V) llm.inboundFormat (transport D text).outboundFormat with
      | error e => rw [hinbound, houtbound] at h; cases h
      | ok outbound =>
          rw [hinbound, houtbound] at h
          cases h
          exact hresolve _ _ hinbound

/-! ## Waiting -/

/-- The goroutine waits for someone else. A read is not woken by the context. -/
def Blocked (done : Bool) (r : Receiver δ V) : Prop :=
  match r.pc with
  | .idle | .exited => True
  | .waiting => r.remoteTrack = none ∧ r.closed = false ∧ done = false
  | .reading tr => r.next tr = none ∧ r.ending = none ∧ r.closed = false
  | .emitting _ _ => r.closed = false ∧ done = false
  | .putting _ | .closingErrs | .closingFrames => False

theorem blocked_of_no_tick (hroom : Roomy r) (h : ∀ x r', ¬ ReceiverTick D text done r x r') : Blocked done r := by
  unfold Blocked
  cases hpc : r.pc with
  | idle | exited => trivial
  | waiting =>
      have hgone : ¬ (r.closed = true ∨ done = true) := fun hk => h _ _ (.W_GiveUp hpc hk)
      refine ⟨?_, by simpa using fun hk => hgone (.inl hk), by simpa using fun hk => hgone (.inr hk)⟩
      exact Option.eq_none_iff_forall_ne_some.mpr fun tr htr => h _ _ (.W_Track hpc htr)
  | reading tr =>
      have hnext : r.next tr = none := by
        refine Option.eq_none_iff_forall_ne_some.mpr fun payload hnext => ?_
        rcases hdecode : D.decode r.dec payload with ⟨d, _ | pcm⟩
        · exact h _ _ (.W_Skip hpc hnext hdecode)
        · exact h _ _ (.W_Frame 0 hpc hnext hdecode)
      refine ⟨hnext, ?_, by simpa using fun hk => h _ _ (.W_Closed (e := .clean) hpc hk)⟩
      exact Option.eq_none_iff_forall_ne_some.mpr fun e he => h _ _ (.W_End hpc hnext he)
  | emitting tr f =>
      have hgone : ¬ (r.closed = true ∨ done = true) := fun hk => h _ _ (.W_Drop hpc hk)
      exact ⟨by simpa using fun hk => hgone (.inl hk), by simpa using fun hk => hgone (.inr hk)⟩
  | putting err => exact h _ _ (.W_Put hpc (hroom (by rw [hpc]; exact id)))
  | closingErrs => exact h _ _ (.W_CloseErrs hpc)
  | closingFrames => exact h _ _ (.W_CloseFrames hpc)

theorem no_tick_of_blocked (h : Blocked done r) {x : Option (Ending V)} : ¬ ReceiverTick D text done r x r' := by
  intro htick
  unfold Blocked at h
  cases htick with
  | W_Track hpc htr => simp_all
  | W_GiveUp hpc hgone | W_Drop hpc hgone => rcases hgone with hk | hk <;> simp_all
  | W_Frame _ hpc hnext _ | W_Skip hpc hnext _ => simp_all
  | W_End hpc _ he => simp_all
  | W_Closed hpc hk => simp_all
  | W_Put hpc _ | W_CloseErrs hpc | W_CloseFrames hpc => simp_all

/-! ## The way out -/

/-- The steps that are left before the goroutine is gone when nothing more arrives. -/
def Receiver.left (r : Receiver δ V) : Nat :=
  match r.pc with
  | .idle => 2 * (r.caller.length - r.read) + 7
  | .waiting => 2 * (r.caller.length - r.read) + 6
  | .emitting _ _ => 2 * (r.caller.length - r.read) + 6
  | .reading _ => 2 * (r.caller.length - r.read) + 5
  | .putting _ => 3
  | .closingErrs => 2
  | .closingFrames => 1
  | .exited => 0

theorem left_tick {x : Option (Ending V)} (hone : OneTrack r) (htick : ReceiverTick D text done r x r') :
    r'.left < r.left := by
  have hzero : ∀ {tr : Nat}, r.pc = .reading tr → tr = 0 := by
    intro tr hpc
    exact hone.taken tr (by rw [hpc]; rfl)
  cases htick with
  | W_Track hpc _ => simp [Receiver.left, hpc, Receiver.caller]
  | W_Frame _ hpc hnext _ | W_Skip hpc hnext _ =>
      cases hzero hpc
      have hlt := (take_next hnext).1
      simp only [Receiver.left, hpc, Receiver.caller] at hlt ⊢
      omega
  | W_GiveUp hpc _ | W_End hpc _ _ | W_Closed hpc _ | W_Drop hpc _ | W_Put hpc _ | W_CloseErrs hpc
  | W_CloseFrames hpc =>
      simp only [Receiver.left, hpc]
      omega

/-- Once the transport is closed nothing arrives any more. -/
theorem left_step {shown : List Frame} (hsane : Sane c) (hclosed : c.source.closed = true)
    (hs : ClientStep (transport D text).toSource c shown c') :
    c'.source.left ≤ c.source.left ∧ c'.source.closed = true := by
  cases hs with
  | K_Start hstart => exact ⟨by simp [Receiver.left, hsane.idle hstart, transport, Receiver.caller], hclosed⟩
  | K_Tick htick =>
      refine ⟨(left_tick hsane.track htick).le, ?_⟩
      cases htick <;> exact hclosed
  | K_Peer hpeer => cases hpeer <;> simp_all
  | K_Take hrecv =>
      cases hrecv with
      | C_Item hpc => exact ⟨by simp [Receiver.left, hpc, Receiver.caller], hclosed⟩
  | K_Recv hrecv hitem =>
      cases hrecv with
      | C_Item _ => exact absurd rfl (hitem _)
      | C_Closed _ | C_ErrorClosed _ _ | C_Error _ | C_ErrorNil _ => exact ⟨Nat.le_refl _, hclosed⟩
  | K_Close => exact ⟨Nat.le_refl _, rfl⟩
  | K_Cancel => exact ⟨Nat.le_refl _, hclosed⟩

end Gopkg.Voice.Whatsapp
