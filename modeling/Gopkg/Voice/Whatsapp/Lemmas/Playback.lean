import Gopkg.Voice.Whatsapp.Lemmas.Framing

/-!
# What the caller hears

The frames that the pacer has written, followed by those in the queue, are blocks that were encoded, in their order.
They are all of them if nothing was dropped.
-/

namespace Gopkg.Voice.Whatsapp

open Lts Audio

variable {encode : List Int16 → Except String (List UInt8)} {s s' : Transport} {t evs : List Event}

/-- The frames that were written, without the silence between them. -/
def playedFrames (t : List Event) : List OpusFrame :=
  t.filterMap fun
    | .paced frame => frame
    | _ => none

@[simp] theorem playedFrames_append (t t' : List Event) :
    playedFrames (t ++ t') = playedFrames t ++ playedFrames t' :=
  List.filterMap_append

@[simp] theorem playedFrames_paced (f : OpusFrame) : playedFrames [.paced (some f)] = [f] := rfl

/-- The frames that are written or wait to be. -/
def heard (t : List Event) (s : Transport) : List OpusFrame := playedFrames t ++ s.outQueue

/-- What a step does to the frames that are heard: it drops some, or adds the block it encodes at the end. -/
theorem heard_step (h : Step encode s evs s') (t : List Event) :
    (heard (t ++ evs) s').Sublist (heard t s) ∨
      ∃ block data, encodedBlocks evs = [block] ∧ encode (values block) = .ok data ∧
        heard (t ++ evs) s' = heard t s ++ [⟨block, data⟩] := by
  have hquiet (hplayed : playedFrames evs = []) (hqueue : s'.outQueue = s.outQueue) :
      (heard (t ++ evs) s').Sublist (heard t s) := by
    rw [heard, heard, playedFrames_append, hplayed, List.append_nil, hqueue]
  cases h with
  | @T_Encode data _ _ hdata =>
      by_cases hroom : s.outQueue.length < queueCapacity
      · refine .inr ⟨_, data, rfl, hdata, ?_⟩
        rw [heard, heard, playedFrames_append, enqueue, if_pos hroom]
        simp [playedFrames]
      · exact .inl (hquiet rfl (if_neg hroom))
  | T_Pace _ hq =>
      refine .inl ?_
      rw [heard, heard, playedFrames_append, playedFrames_paced, hq, List.append_assoc]
      rfl
  | T_Drop _ hq =>
      refine .inl ?_
      rw [heard, heard, playedFrames_append, hq]
      simp [playedFrames]
  | T_SendClosed _ _ | T_Send _ _ _ | T_EncodeFailed _ _ _ | T_Sent _ _ | T_Silence _ _ | T_PacerExits _ | T_Clear
  | T_ClearReturns _ _ | T_Close _ => exact .inl (hquiet rfl rfl)

structure Heard (encode : List Int16 → Except String (List UInt8)) (t : List Event) (s : Transport) : Prop where
  inOrder : ((heard t s).map OpusFrame.samples).Sublist (encodedBlocks t)
  data : ∀ f ∈ heard t s, encode (values f.samples) = .ok f.data

theorem Heard.step (h : Heard encode t s) (hs : Step encode s evs s') : Heard encode (t ++ evs) s' := by
  rcases heard_step hs t with hsub | ⟨block, data, hblock, hdata, heq⟩
  · refine ⟨?_, fun f hf => h.data f (hsub.subset hf)⟩
    rw [encodedBlocks_append]
    exact ((hsub.map _).trans h.inOrder).trans (List.sublist_append_left _ _)
  · refine ⟨?_, ?_⟩
    · rw [heq, encodedBlocks_append, hblock, List.map_append]
      exact h.inOrder.append (.refl _)
    · rw [heq]
      exact List.forall_mem_append.mpr ⟨h.data, by simpa using hdata⟩

theorem Heard.run (hr : Run (Step encode) Transport.new t s) : Heard encode t s :=
  hr.invariant (I := Heard encode) ⟨.slnil, nofun⟩ fun _ _ _ _ h hs => h.step hs

/-! ## Nothing is dropped -/

/-- The step drops no frame: there is room for a block that is encoded, no `Send` fails, and `Clear` finds nothing. -/
structure Keeps (s : Transport) (evs : List Event) (s' : Transport) : Prop where
  room : ∀ block, .encoded block ∈ evs → s.outQueue.length < queueCapacity
  sent : ∀ err, .sendReturned (some err) ∉ evs
  kept : ∀ f, .dropped f ∉ evs

theorem heard_keeps (h : Step encode s evs s') (hk : Keeps s evs s') (t : List Event) :
    (heard (t ++ evs) s').map OpusFrame.samples = (heard t s).map OpusFrame.samples ++ encodedBlocks evs := by
  cases h with
  | T_Encode _ _ _ =>
      have hroom := hk.room _ List.mem_cons_self
      rw [heard, heard, playedFrames_append, enqueue, if_pos hroom]
      simp [playedFrames]
  | T_EncodeFailed _ _ _ => exact absurd (List.mem_cons_of_mem _ List.mem_cons_self) (hk.sent _)
  | T_Drop _ _ => exact absurd List.mem_cons_self (hk.kept _)
  | T_Pace _ hq =>
      rw [heard, heard, playedFrames_append, playedFrames_paced, hq]
      simp [encodedBlocks]
  | T_SendClosed _ _ | T_Send _ _ _ | T_Sent _ _ | T_Silence _ _ | T_PacerExits _ | T_Clear | T_ClearReturns _ _
  | T_Close _ => simp [heard, playedFrames, encodedBlocks]

theorem heard_eq_encoded (hr : Run (Restrict (Step encode) Keeps) Transport.new t s) :
    (heard t s).map OpusFrame.samples = encodedBlocks t := by
  refine hr.invariant (I := fun t s => (heard t s).map OpusFrame.samples = encodedBlocks t) rfl ?_
  intro t s evs s' h hs
  rw [heard_keeps hs.1 hs.2, h, encodedBlocks_append]

/-- No `Send` has failed in such a run. -/
theorem sent_of_keeps (hr : Run (Restrict (Step encode) Keeps) Transport.new t s) (err : String) :
    .sendReturned (some err) ∉ t := by
  refine hr.invariant (I := fun t _ => .sendReturned (some err) ∉ t) List.not_mem_nil ?_
  intro t s evs s' h hs
  rw [List.mem_append, not_or]
  exact ⟨h, hs.2.sent err⟩

end Gopkg.Voice.Whatsapp
