import Mathlib.Data.List.Induction
import Gopkg.Voice.Gemini
import Gopkg.Voice.Lemmas.Dispatch

/-!
# The text of a turn

`LLM.Events` hands over the text of a turn piece by piece, and once more as a whole before the turn is complete.
-/

namespace Gopkg.Voice.Gemini

open Lts

variable {V : Type} {ev : LLMEvent V} {evs evs' : List (LLMEvent V)} {text : String}

/-! ## Events of turns -/

/-- The text of the turn after one more event. -/
def hear (text : String) : LLMEvent V → String
  | .assistantText s false => text ++ s
  | .turnComplete => ""
  | _ => text

/-- The texts that are not final since the last turn was complete, one after the other. -/
def spoken (evs : List (LLMEvent V)) : String := evs.foldl hear ""

def countFinal (n : Nat) : LLMEvent V → Nat
  | .assistantText _ true => n + 1
  | .turnComplete => 0
  | _ => n

/-- How many final texts there are since the last turn was complete. -/
def finals (evs : List (LLMEvent V)) : Nat := evs.foldl countFinal 0

/-- The final text of a turn is the text of that turn, and the turn is complete right after it. A turn that is complete
has one final text, or none when nothing was said. -/
structure TurnsSound (evs : List (LLMEvent V)) : Prop where
  final : ∀ pre text post, evs = pre ++ .assistantText text true :: post →
    text = spoken pre ∧ ∃ post', post = .turnComplete :: post'
  turn : ∀ pre post, evs = pre ++ .turnComplete :: post → finals pre = if spoken pre = "" then 0 else 1

/-- An event in the middle of a turn. -/
def Quiet : LLMEvent V → Prop
  | .assistantText _ true => False
  | .turnComplete => False
  | _ => True

theorem spoken_snoc (evs : List (LLMEvent V)) (ev : LLMEvent V) : spoken (evs ++ [ev]) = hear (spoken evs) ev := by
  simp [spoken]

theorem finals_snoc (evs : List (LLMEvent V)) (ev : LLMEvent V) :
    finals (evs ++ [ev]) = countFinal (finals evs) ev := by
  simp [finals]

/-- What was handed over is sound, and the turn has no final text yet. -/
structure MidTurn (evs : List (LLMEvent V)) (text : String) : Prop where
  sound : TurnsSound evs
  spoken_eq : spoken evs = text
  finals_eq : finals evs = 0

theorem MidTurn.nil : MidTurn ([] : List (LLMEvent V)) "" where
  sound := ⟨by simp, by simp⟩
  spoken_eq := rfl
  finals_eq := rfl

/-- Where an event stands in a list with one more event. -/
theorem snoc_eq_append_cons {α : Type*} {xs pre post : List α} {x y : α} (h : xs ++ [y] = pre ++ x :: post) :
    (post = [] ∧ pre = xs ∧ x = y) ∨ ∃ post', post = post' ++ [y] ∧ xs = pre ++ x :: post' := by
  rcases List.eq_nil_or_concat post with rfl | ⟨post', z, rfl⟩
  · obtain ⟨rfl, ⟨⟩⟩ := List.append_inj' h rfl
    exact .inl ⟨rfl, rfl, rfl⟩
  · have h' : xs ++ [y] = (pre ++ x :: post') ++ [z] := by simpa using h
    obtain ⟨rfl, ⟨⟩⟩ := List.append_inj' h' rfl
    exact .inr ⟨post', List.concat_eq_append, rfl⟩

/-- One more event that is no final text. -/
theorem TurnsSound.snoc (h : TurnsSound evs) (hfinal : ∀ s, ev ≠ .assistantText s true)
    (hturn : ev = .turnComplete → finals evs = if spoken evs = "" then 0 else 1) : TurnsSound (evs ++ [ev]) := by
  constructor
  · intro pre s post heq
    rcases snoc_eq_append_cons heq with ⟨_, _, hev⟩ | ⟨post', rfl, heq'⟩
    · exact absurd hev.symm (hfinal s)
    · obtain ⟨htext, rest, rfl⟩ := h.final pre s post' heq'
      exact ⟨htext, rest ++ [ev], rfl⟩
  · intro pre post heq
    rcases snoc_eq_append_cons heq with ⟨_, rfl, hev⟩ | ⟨post', rfl, heq'⟩
    · exact hturn hev.symm
    · exact h.turn pre post' heq'

/-- The final text and the end of its turn. -/
theorem TurnsSound.final_turn (h : TurnsSound evs) (hfinals : finals evs = 0) (hne : spoken evs ≠ "") :
    TurnsSound (evs ++ [.assistantText (spoken evs) true] ++ [.turnComplete]) := by
  constructor
  · intro pre s post heq
    rcases snoc_eq_append_cons heq with ⟨_, _, hev⟩ | ⟨post₁, rfl, heq₁⟩
    · cases hev
    · rcases snoc_eq_append_cons heq₁ with ⟨rfl, rfl, hev⟩ | ⟨post₂, rfl, heq₂⟩
      · cases hev
        exact ⟨rfl, [], rfl⟩
      · obtain ⟨htext, rest, rfl⟩ := h.final pre s post₂ heq₂
        exact ⟨htext, _, rfl⟩
  · intro pre post heq
    rcases snoc_eq_append_cons heq with ⟨_, rfl, _⟩ | ⟨post₁, rfl, heq₁⟩
    · rw [finals_snoc, hfinals, spoken_snoc]
      exact (if_neg hne).symm
    · rcases snoc_eq_append_cons heq₁ with ⟨_, _, hev⟩ | ⟨post₂, rfl, heq₂⟩
      · cases hev
      · exact h.turn pre post₂ heq₂

theorem MidTurn.quiet_snoc (h : MidTurn evs text) (hev : Quiet ev) : MidTurn (evs ++ [ev]) (hear text ev) := by
  refine ⟨h.sound.snoc ?_ ?_, ?_, ?_⟩
  · rintro s rfl
    exact hev
  · rintro rfl
    exact hev.elim
  · rw [spoken_snoc, h.spoken_eq]
  · rw [finals_snoc, h.finals_eq]
    cases ev with
    | assistantText s final =>
        cases final with
        | true => exact hev.elim
        | false => rfl
    | turnComplete => rfl
    | audioOut _ | callerTranscript _ | interrupted | toolCalls _ => rfl

theorem MidTurn.quiet (h : MidTurn evs text) (hquiet : ∀ ev ∈ evs', Quiet ev) :
    MidTurn (evs ++ evs') (evs'.foldl hear text) := by
  induction evs' generalizing evs text with
  | nil => simpa using h
  | cons ev evs' ih =>
      rw [List.forall_mem_cons] at hquiet
      have hrest := ih (h.quiet_snoc hquiet.1) hquiet.2
      rwa [List.append_assoc] at hrest

theorem MidTurn.of_turnComplete (h : TurnsSound (evs ++ [LLMEvent.turnComplete])) :
    MidTurn (evs ++ [LLMEvent.turnComplete]) "" where
  sound := h
  spoken_eq := spoken_snoc evs .turnComplete
  finals_eq := finals_snoc evs .turnComplete

/-- The turn is complete: its text is handed over as a whole, unless there is none. -/
theorem MidTurn.complete (h : MidTurn evs text) : MidTurn
    (evs ++ ((if text = "" then [] else [LLMEvent.assistantText text true]) ++ [LLMEvent.turnComplete])) "" := by
  obtain ⟨hsound, rfl, hfinals⟩ := h
  split
  next hempty =>
    refine .of_turnComplete (hsound.snoc nofun fun _ => ?_)
    rw [hfinals, if_pos hempty]
  next hempty =>
    rw [← List.append_assoc]
    exact .of_turnComplete (hsound.final_turn hfinals hempty)

/-! ## Messages -/

/-- The events of a part are in the middle of a turn, and say what the part adds to its text. -/
theorem partEvents_spec (p : Part) (text : String) : (∀ ev ∈ (partEvents p : List (LLMEvent V) × String).1, Quiet ev) ∧
    (partEvents (V := V) p).1.foldl hear text = text ++ (partEvents (V := V) p).2 := by
  unfold partEvents
  cases p.inlineData with
  | none =>
      dsimp only
      split
      next => simp
      next => simp [Quiet, hear]
  | some payload =>
      cases payload with
      | malformed => simp
      | empty =>
          dsimp only
          split
          next => simp
          next => simp [Quiet, hear]
      | bytes data =>
          dsimp only
          split
          next => simp [Quiet, hear]
          next => simp [Quiet, hear]

theorem partsEvents_spec (parts : List Part) (text : String) :
    (∀ ev ∈ ((parts.map (partEvents (V := V))).map (·.1)).flatten, Quiet ev) ∧
      ((parts.map (partEvents (V := V))).map (·.1)).flatten.foldl hear text =
        text ++ String.join ((parts.map (partEvents (V := V))).map (·.2)) := by
  induction parts generalizing text with
  | nil => simp
  | cons p parts ih =>
      obtain ⟨hquiet, htext⟩ := partEvents_spec (V := V) p text
      obtain ⟨hquiet', htext'⟩ := ih (text ++ (partEvents (V := V) p).2)
      simp only [List.map_cons, List.flatten_cons, List.foldl_append, List.forall_mem_append, String.join_cons]
      refine ⟨⟨hquiet, hquiet'⟩, ?_⟩
      rw [htext, htext', String.append_assoc]

/-- The events of a content before its turn is complete. -/
def streamed (c : ServerContent) : List (LLMEvent V) :=
  (if c.inputTranscription = "" then [] else [.callerTranscript c.inputTranscription]) ++
    (if c.outputTranscription = "" then [] else [.assistantText c.outputTranscription false]) ++
    ((c.modelTurn.map partEvents).map (·.1)).flatten ++ if c.interrupted then [.interrupted] else []

/-- The text of a turn with that of one more content. -/
def heard (V : Type) (text : String) (c : ServerContent) : String :=
  text ++ c.outputTranscription ++ String.join ((c.modelTurn.map (partEvents (V := V))).map (·.2))

theorem streamed_spec (c : ServerContent) (text : String) :
    (∀ ev ∈ (streamed c : List (LLMEvent V)), Quiet ev) ∧ (streamed (V := V) c).foldl hear text = heard V text c := by
  obtain ⟨hquiet, htext⟩ := partsEvents_spec (V := V) c.modelTurn (text ++ c.outputTranscription)
  have hinput : (if c.inputTranscription = "" then [] else
      [LLMEvent.callerTranscript (V := V) c.inputTranscription]).foldl hear text = text := by
    split
    next => rfl
    next => rfl
  have houtput : (if c.outputTranscription = "" then [] else
      [LLMEvent.assistantText (V := V) c.outputTranscription false]).foldl hear text =
        text ++ c.outputTranscription := by
    split
    next h => simp [h]
    next => rfl
  have hend : ∀ s, (if c.interrupted then [LLMEvent.interrupted (V := V)] else []).foldl hear s = s := by
    intro s
    split
    next => rfl
    next => rfl
  unfold streamed
  constructor
  · simp only [List.forall_mem_append]
    refine ⟨⟨⟨?_, ?_⟩, hquiet⟩, ?_⟩
    · split <;> simp [Quiet]
    · split <;> simp [Quiet]
    · split <;> simp [Quiet]
  · rw [List.foldl_append, List.foldl_append, List.foldl_append, hinput, houtput, htext, hend]
    rfl

theorem contentEvents_eq (text : String) (c : ServerContent) : contentEvents (V := V) text c =
    (streamed c ++ if c.turnComplete then
      (if heard V text c = "" then [] else [.assistantText (heard V text c) true]) ++ [.turnComplete] else [],
      if c.turnComplete then "" else heard V text c) := rfl

theorem MidTurn.content (h : MidTurn evs text) (c : ServerContent) :
    MidTurn (evs ++ (contentEvents text c).1) (contentEvents (V := V) text c).2 := by
  obtain ⟨hquiet, htext⟩ := streamed_spec c text
  have hmid := h.quiet hquiet
  rw [htext] at hmid
  rw [contentEvents_eq]
  cases c.turnComplete with
  | false => simpa using hmid
  | true =>
      have hend := hmid.complete
      rw [List.append_assoc] at hend
      exact hend

/-- A tool call is in the middle of a turn. -/
theorem MidTurn.calls (h : MidTurn evs text) (calls : List (ToolCall V)) [Decidable (calls = [])] :
    MidTurn (evs ++ if calls = [] then [] else [.toolCalls calls]) text := by
  split
  next => simpa using h
  next => exact h.quiet_snoc trivial

theorem MidTurn.message (h : MidTurn evs text) (m : Option (ServerMessage V)) :
    MidTurn (evs ++ (handle text m).2.toList) (handle text m).1 := by
  cases m with
  | none => simpa [handle, Reaction.toList] using h
  | some msg =>
      obtain ⟨setupComplete, content, calls⟩ := msg
      cases content with
      | none => exact h.calls calls
      | some c =>
          have hcontent := (h.content c).calls calls
          rw [List.append_assoc] at hcontent
          exact hcontent

/-- The message has `turnComplete` set. -/
def ServerMessage.completesTurn (m : Option (ServerMessage V)) : Bool :=
  (m.bind ServerMessage.serverContent).any ServerContent.turnComplete

theorem completed_quiet (hquiet : ∀ ev ∈ evs, Quiet ev) : completed evs = 0 := by
  refine List.countP_eq_zero.mpr fun ev hev hturn => ?_
  cases ev with
  | turnComplete => exact hquiet _ hev
  | audioOut _ | assistantText _ _ | callerTranscript _ | interrupted | toolCalls _ => cases hturn

theorem completed_content (text : String) (c : ServerContent) :
    completed (contentEvents (V := V) text c).1 = if c.turnComplete then 1 else 0 := by
  rw [contentEvents_eq, completed_append, completed_quiet (streamed_spec c text).1]
  cases c.turnComplete with
  | false => rfl
  | true =>
      simp only [if_true, completed_append]
      split
      next => rfl
      next => rfl

theorem completed_message (text : String) (m : Option (ServerMessage V)) :
    completed (handle text m).2.toList = if ServerMessage.completesTurn m then 1 else 0 := by
  have hcalls : ∀ calls : List (ToolCall V), completed (if calls = [] then [] else [.toolCalls calls]) = 0 := by
    intro calls
    split
    next => rfl
    next => rfl
  cases m with
  | none => rfl
  | some msg =>
      obtain ⟨setupComplete, content, calls⟩ := msg
      cases content with
      | none => exact hcalls calls
      | some c =>
          change completed ((contentEvents text c).1 ++ if calls = [] then [] else [.toolCalls calls]) = _
          rw [completed_append, completed_content, hcalls]
          rfl

/-- What has been handed over, and the text of the turn, after one more message. -/
def consume (st : List (LLMEvent V) × String) (m : Option (ServerMessage V)) : List (LLMEvent V) × String :=
  (st.1 ++ (handle st.2 m).2.toList, (handle st.2 m).1)

/-- The events of the messages, and the text of the turn after them. -/
def translate (ms : List (Option (ServerMessage V))) : List (LLMEvent V) × String := ms.foldl consume ([], "")

theorem translate_snoc (ms : List (Option (ServerMessage V))) (m : Option (ServerMessage V)) :
    translate (ms ++ [m]) = consume (translate ms) m := by
  simp [translate]

theorem translate_spec (ms : List (Option (ServerMessage V))) :
    MidTurn (translate ms).1 (translate ms).2 ∧ completed (translate ms).1 = ms.countP ServerMessage.completesTurn := by
  induction ms using List.reverseRecOn with
  | nil => exact ⟨.nil, rfl⟩
  | append_singleton ms m ih =>
      rw [translate_snoc, consume]
      refine ⟨ih.1.message m, ?_⟩
      rw [completed_append, ih.2, completed_message, List.countP_append, List.countP_singleton]

/-! ## Runs -/

/-- What is seen of `Events` from outside. -/
inductive Seen (V : Type) where
  | arrived (m : Option (ServerMessage V))
  | taken (ev : LLMEvent V)
  deriving DecidableEq, Repr

abbrev EventsReader (V : Type) := Reader (Option (ServerMessage V)) (LLMEvent V) (LLMEvent V) String V

def seenRecv : Recv (LLMEvent V) V → List (Seen V)
  | .item ev => [.taken ev]
  | _ => []

/-- The goroutine of `Events`, its peer and the receiver of its channels, while the context is not done. -/
inductive EventsTick : EventsReader V → List (Seen V) → EventsReader V → Prop
  | G_Tick {r r' : EventsReader V} {x : Option (Ending V)} : ReaderTick readLoop false r x r' → EventsTick r [] r'
  | G_Arrive {r : EventsReader V} (m : Option (ServerMessage V)) : r.conn = .live →
      EventsTick r [.arrived m] { r with inbox := r.inbox ++ [m] }
  | G_End {r : EventsReader V} (e : Ending V) : r.conn = .live → EventsTick r [] { r with conn := .ended e }
  | G_Recv {r r' : EventsReader V} {y : Recv (LLMEvent V) V} : ReaderRecv r y r' → EventsTick r (seenRecv y) r'
  | G_Close {r : EventsReader V} : EventsTick r [] r.close

def Seen.arrived? : Seen V → Option (Option (ServerMessage V))
  | .arrived m => some m
  | .taken _ => none

def Seen.taken? : Seen V → Option (LLMEvent V)
  | .arrived _ => none
  | .taken ev => some ev

/-- The messages that have arrived. -/
def arrived (t : List (Seen V)) : List (Option (ServerMessage V)) := t.filterMap Seen.arrived?

/-- The events that the receiver has taken. -/
def taken (t : List (Seen V)) : List (LLMEvent V) := t.filterMap Seen.taken?

/-- The events that the goroutine has still to hand over, of the message that it has read. -/
def pending : ReaderPc (LLMEvent V) (LLMEvent V) V → List (LLMEvent V)
  | .preparing ev evs => ev :: evs
  | .emitting ev evs => ev :: evs
  | _ => []

theorem pending_next (evs : List (LLMEvent V)) : pending (ReaderPc.next evs : ReaderPc _ _ V) = evs := by
  cases evs with
  | nil => rfl
  | cons ev evs => rfl

theorem handle_ne_stop (text text' : String) (m : Option (ServerMessage V)) : handle text m ≠ (text', .stop) := by
  cases m with
  | none => exact nofun
  | some msg =>
      obtain ⟨setupComplete, content, calls⟩ := msg
      cases content with
      | none => exact nofun
      | some c => exact nofun

variable {r r' : EventsReader V} {t : List (Seen V)} {inbox ms : List (Option (ServerMessage V))}

/-- The events of the messages that were read have been taken or are pending. -/
def Handed (inbox : List (Option (ServerMessage V))) (t : List (Seen V)) (r : EventsReader V) : Prop :=
  ∃ ms, inbox ++ arrived t = ms ++ r.inbox ∧ translate ms = (taken t ++ pending r.pc, r.vars)

/-- The goroutine reads a message, or it moves on with the events that it has. -/
theorem tick_cases {x : Option (Ending V)} (h : ReaderTick readLoop false r x r') :
    (r'.inbox = r.inbox ∧ pending r'.pc = pending r.pc ∧ r'.vars = r.vars) ∨
      ∃ m, r.inbox = m :: r'.inbox ∧ pending r.pc = [] ∧ handle r.vars m = (r'.vars, .items (pending r'.pc)) := by
  cases h with
  | R_Return _ hdone | R_PrepareDone _ hdone | R_EmitDone _ hdone => cases hdone
  | R_Read hpc _ | R_Clean hpc _ _ | R_Failed hpc _ _ | R_Closed hpc _ | R_Put hpc _ | R_CloseErrs hpc
  | R_CloseItems hpc =>
      rw [hpc]
      exact .inl ⟨rfl, rfl, rfl⟩
  | R_Items hpc _ hinbox hhandle =>
      refine .inr ⟨_, hinbox, by rw [hpc]; rfl, ?_⟩
      rw [pending_next]
      exact hhandle
  | R_Stop _ _ _ hhandle => exact absurd hhandle (handle_ne_stop _ _ _)
  | R_Prepare hpc hprepare =>
      rw [hpc, show _ = _ from hprepare]
      exact .inl ⟨rfl, rfl, rfl⟩

theorem Handed.tick {x : Option (Ending V)} (h : Handed inbox t r) (hs : ReaderTick readLoop false r x r') :
    Handed inbox t r' := by
  obtain ⟨ms, hinbox, htranslate⟩ := h
  rcases tick_cases hs with ⟨hsame, hpending, hvars⟩ | ⟨m, hread, hnone, hhandle⟩
  · exact ⟨ms, by rw [hinbox, hsame], by rw [htranslate, hpending, hvars]⟩
  · refine ⟨ms ++ [m], by rw [hinbox, hread, List.append_assoc]; rfl, ?_⟩
    rw [translate_snoc, htranslate, consume]
    dsimp only
    rw [hhandle, hnone, List.append_nil]
    rfl

theorem Handed.step {evs : List (Seen V)} (h : Handed inbox t r) (hs : EventsTick r evs r') :
    Handed inbox (t ++ evs) r' := by
  cases hs with
  | G_Tick hs =>
      rw [List.append_nil]
      exact h.tick hs
  | G_Arrive m _ =>
      obtain ⟨ms, hinbox, htranslate⟩ := h
      refine ⟨ms, ?_, ?_⟩
      · rw [arrived, List.filterMap_append, ← List.append_assoc, ← arrived, hinbox, List.append_assoc]
        rfl
      · rw [htranslate, taken, taken, List.filterMap_append]
        simp [Seen.taken?]
  | G_End e _ =>
      rw [List.append_nil]
      exact h
  | G_Recv hs =>
      obtain ⟨ms, hinbox, htranslate⟩ := h
      cases hs with
      | C_Item hpc =>
          refine ⟨ms, ?_, ?_⟩
          · simpa [arrived, seenRecv, List.filterMap_cons, Seen.arrived?] using hinbox
          · rw [htranslate, hpc, pending_next]
            simp [taken, pending, seenRecv, Seen.taken?]
      | C_Closed _ | C_Error _ | C_ErrorClosed _ _ =>
          simp only [seenRecv, List.append_nil]
          exact ⟨ms, hinbox, htranslate⟩
  | G_Close =>
      rw [List.append_nil]
      exact h

theorem Handed.run {r₀ : EventsReader V} (hpc : r₀.pc = .top) (hvars : r₀.vars = "") (hr : Run EventsTick r₀ t r) :
    Handed r₀.inbox t r := by
  refine hr.invariant ⟨[], ?_, ?_⟩ fun _ _ _ _ h hs => h.step hs
  · simp [arrived]
  · rw [hpc, hvars]
    rfl

end Gopkg.Voice.Gemini
