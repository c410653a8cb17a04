import Gopkg.Lts.Alone
import Gopkg.Telegram.InFlight

/-!
# Questions to the AI

Where `/ai` with a question leaves the conversation of a user, when no other handler of theirs is running.
-/

namespace Gopkg.Telegram

open Lts

variable {F : Type} {h : HandlerSet F} {flow : Nat} {text : String} {store store' : Option ConversationState}

/-- The user has a session. -/
def SignedIn : (op : Op F) → Ans op → Prop
  | .getSession, a => ∃ sess, a = .ok (some sess)
  | _, _ => True

/-- A handler of a user that has signed in runs alone, and what it does to Redis takes effect. -/
def alone (store : Option ConversationState) (op : Op F) (a : Ans op) (store' : Option ConversationState) : Prop :=
  SignedIn op a ∧ Answers store op true a ∧ store' = InFlight.storeAfter store op true

/-- The command that free text belongs to. -/
def activeCommand (store : Option ConversationState) : Option Command := store.map ConversationState.command

/-- A question leaves the command of a conversation as it is, and begins one with the AI where there is none. -/
def commandAfterQuestion (store : Option ConversationState) : Command := (activeCommand store).getD .ai

theorem alone_get {x : Except Unit (Option ConversationState)} (hact : alone (F := F) store .stateGet x store') :
    x = .ok store ∧ store' = store := by
  obtain ⟨_, hanswer, hstore⟩ := hact
  cases x with
  | error e => cases hanswer
  | ok cs =>
      obtain ⟨_, rfl⟩ := hanswer
      exact ⟨rfl, hstore⟩

theorem alone_stored (store : Option ConversationState) : alone (F := F) store .stateGet (.ok store) store :=
  ⟨trivial, ⟨rfl, rfl⟩, rfl⟩

theorem alone_set (store : Option ConversationState) (cs : ConversationState) :
    alone (F := F) store (.stateSet cs) true (some cs) :=
  ⟨trivial, fun _ => rfl, rfl⟩

theorem wp_storeAIConversationID (convID : String) :
    Wp alone (fun _ store' => activeCommand store' = some (commandAfterQuestion store))
      (storeAIConversationID (F := F) flow convID) store := by
  intro x store₁ hget
  obtain ⟨rfl, rfl⟩ := alone_get hget
  cases store₁ with
  | none =>
      rintro _ _ ⟨_, _, rfl⟩
      rfl
  | some cs =>
      rintro _ _ ⟨_, _, rfl⟩
      rfl

variable {α : Type} {Q : α → Option ConversationState → Prop} {c : Command}

/-- An operation that does not write. -/
theorem wp_quiet {op : Op F} {next : Ans op → Call F α} (hop : ∀ store, InFlight.storeAfter store op true = store)
    (hnext : ∀ a, SignedIn op a → Wp alone Q (next a) store) : Wp alone Q (.call op next) store := by
  rintro a _ ⟨hsession, _, rfl⟩
  rw [hop]
  exact hnext a hsession

/-- A conversation that goes on keeps its command. -/
theorem wp_store_again (hc : activeCommand store = some c) (convID : String) :
    Wp alone (fun _ store' => activeCommand store' = some c) (storeAIConversationID (F := F) flow convID) store := by
  refine (wp_storeAIConversationID convID).mono fun _ store' hstore' => ?_
  rw [hstore', commandAfterQuestion, hc]
  rfl

theorem wp_answerAI (hc : activeCommand store = some c) {token convID : String} {sess : Session} :
    Wp alone (fun _ store' => activeCommand store' = some c) (answerAI h flow text token sess convID) store := by
  refine wp_quiet (fun _ => rfl) fun x _ => ?_
  cases x with
  | error e => exact hc
  | ok resp =>
      rw [Program.ret_bind]
      dsimp only
      split
      · exact hc
      · split
        · exact (wp_store_again hc _).bind fun _ _ hc' => hc'
        · exact hc

theorem wp_handleAIMessage (hc : activeCommand store = some c) :
    Wp alone (fun _ store' => activeCommand store' = some c) (handleAIMessage h flow text) store := by
  refine wp_quiet (fun _ => rfl) fun x _ => ?_
  rcases x with e | ⟨token, _ | sess⟩
  · exact hc
  · exact hc
  · refine Wp.bind (p := getAIConversationID) (Q := fun _ store' => activeCommand store' = some c)
      (wp_quiet (fun _ => rfl) fun x _ => ?_) fun convID store' hc' => ?_
    · rcases x with e | _ | cs <;> exact hc
    · split
      · refine wp_quiet (fun _ => rfl) fun convID _ => ?_
        exact (wp_store_again hc' convID).bind fun _ _ hc'' => wp_answerAI hc''
      · exact wp_answerAI hc'

theorem wp_handleAI (hquestion : trimSpace (trimPrefix text "/ai") ≠ "") :
    Wp alone (fun _ store' => activeCommand store' = some (commandAfterQuestion store)) (handleAI h flow text)
      store := by
  refine wp_quiet (fun _ => rfl) fun x hsession => ?_
  obtain ⟨sess, rfl⟩ := hsession
  rw [Program.ret_bind]
  dsimp only
  rw [if_pos hquestion]
  refine wp_quiet (fun _ => rfl) fun convID _ => ?_
  exact (wp_storeAIConversationID convID).bind fun _ _ hc => wp_handleAIMessage hc

/-- A question is given a new conversation with the AI, and sent. -/
theorem ends_handleAI (sess : Session) (convID : String) {r : Result F}
    (hquestion : trimSpace (trimPrefix text "/ai") ≠ "")
    (he : ∃ t, Ends alone store ((storeAIConversationID flow convID).bind fun _ => handleAIMessage h flow text) t r
      store') :
    ∃ t, Ends alone store (handleAI h flow text) t r store' := by
  refine exists_ends_call (x := .ok (some sess)) ⟨⟨sess, rfl⟩, trivial, rfl⟩ ?_
  rw [Program.ret_bind]
  dsimp only
  rw [if_pos hquestion]
  exact exists_ends_call (x := show Ans (F := F) .newUUID from convID) ⟨trivial, trivial, rfl⟩ he

/-! ## Where free text goes -/

/-- Free text that finds the state `store` is left to `p`. -/
def Routes (h : HandlerSet F) (store : Option ConversationState) (flow : Nat) (text : String) (p : Call F (Result F)) :
    Prop :=
  Program.Step (handleText h flow text) [⟨.stateGet, .ok store⟩] p

theorem routes_ai (hc : activeCommand store = some .ai) : Routes h store flow text (handleAIMessage h flow text) := by
  obtain ⟨⟨_, _, _, _⟩, rfl, rfl⟩ := Option.map_eq_some_iff.mp hc
  exact .of_call rfl _

theorem routes_setrate (hc : activeCommand store = some .setrate) :
    ∃ cs, store = some cs ∧ Routes h store flow text (handleSetRateStep h text cs) := by
  obtain ⟨⟨_, _, _, _⟩, rfl, rfl⟩ := Option.map_eq_some_iff.mp hc
  exact ⟨_, rfl, .of_call rfl _⟩

theorem routes_addcredit (hc : activeCommand store = some .addcredit) :
    ∃ cs, store = some cs ∧ Routes h store flow text (handleAddCreditStep h text cs) := by
  obtain ⟨⟨_, _, _, _⟩, rfl, rfl⟩ := Option.map_eq_some_iff.mp hc
  exact ⟨_, rfl, .of_call rfl _⟩

end Gopkg.Telegram
