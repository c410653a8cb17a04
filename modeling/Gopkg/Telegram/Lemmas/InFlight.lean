import Gopkg.Telegram.InFlight

/-!
# What `HandleAIMessage` writes

`HandleAIMessage` writes back the state that it has just read, with another id of the AI conversation.
-/

namespace Gopkg.Telegram.InFlight

open Lts

variable {F α : Type} {h : HandlerSet F} {s : Shared} {found : Option ConversationState} {flow : Nat}
  {text : String}

theorem Undisturbed.refl (store : Option ConversationState) : Undisturbed store store := by
  cases store with
  | none => exact .none
  | some cs => exact .some ⟨rfl, rfl, rfl, fun _ _ => rfl⟩

theorem Data.get_put_ne (d : Data) {key key' : String} (value : String) (hne : key' ≠ key) :
    (d.put key value).get key' = d.get key' := by
  have hlookup : (d.filter fun p => p.1 != key).lookup key' = d.lookup key' := by
    induction d with
    | nil => rfl
    | cons p d ih =>
        by_cases hp : p.1 = key
        · have hskip : (key' == p.1) = false := beq_false_of_ne (hp ▸ hne)
          rw [List.filter_cons_of_neg (by simp [hp]), ih, List.lookup_cons, hskip]
        · rw [List.filter_cons_of_pos (by simpa using hp), List.lookup_cons, List.lookup_cons, ih]
  have hhead : (key' == key) = false := beq_false_of_ne hne
  rw [Data.get, Data.put, List.lookup_cons, hhead]
  exact congrArg (Option.getD · "") hlookup

theorem not_enter {op : Op F} {next : Ans op → Call F (Result F)} {task : Task} (hop : op ≠ .getValidToken) :
    ∀ task', ¬ (system h).Enter task (.call op next) task' := by
  rintro task' ⟨_, _, flow, text, heq⟩
  exact hop (Program.call.inj heq).1

theorem not_enter_ai {p : Call F (Result F)} : ∀ task', ¬ (system h).Enter (.ai found) p task' := by
  rintro task' ⟨htask, _⟩
  cases htask

theorem act_get (s : Shared) (task : Task) :
    (system h).Act s task .stateGet (.ok s.store) s (task.after (.stateGet : Op F) (.ok s.store)) :=
  ⟨rfl, true, ⟨rfl, rfl⟩, rfl⟩

theorem act_set (s : Shared) (task : Task) (cs : ConversationState) :
    (system h).Act s task (.stateSet cs) true { s with store := some cs } (task.after (.stateSet cs : Op F) true) :=
  ⟨rfl, true, fun _ => rfl, rfl⟩

theorem current_of_eq {task : Task} {op : Op F} {a : Ans op} {s' : Shared} (heq : s'.store = s.store) :
    Current s task op a s' :=
  fun _ _ hne => absurd heq hne

/-- Nothing is asked of the other handlers. -/
def contract : Contract Shared Task where
  I _ := True
  R _ _ := True
  G task s s' := ∀ found, task = .ai found → Undisturbed s.store s'.store

theorem contract_closed : contract.Closed where
  refl _ := trivial
  trans _ _ := trivial
  guaranteed _ := trivial

theorem safe_handler (p : Call F (Result F)) (s : Shared) :
    Safe ((system h).restrict Current).Act contract (fun _ _ _ => True) p .handler s := by
  induction p generalizing s with
  | ret r => trivial
  | call op next ih =>
      rintro s₁ _ _ a s₂ _ ⟨⟨rfl, _⟩, _⟩
      exact ⟨trivial, nofun, ih a s₂⟩

/-! ## `HandleAIMessage` -/

/-- A part of `HandleAIMessage` that may start with any state found. -/
def SafeAI (h : HandlerSet F) (p : Call F α) : Prop :=
  ∀ found s, Safe ((system h).restrict Current).Act contract (fun task _ _ => ∃ found, task = .ai found) p (.ai found) s

theorem SafeAI.ret {a : α} : SafeAI h (.ret a) := fun found _ => ⟨found, rfl⟩

theorem SafeAI.bind {β : Type} {p : Call F β} {f : β → Call F α} (hp : SafeAI h p) (hf : ∀ b, SafeAI h (f b)) :
    SafeAI h (p.bind f) := by
  refine fun found s => Safe.bind ((hp found s).mono fun task s b htask => ?_)
  obtain ⟨found', rfl⟩ := htask
  exact hf b found' s

theorem after_ai (found : Option ConversationState) (op : Op F) (a : Ans op) :
    ∃ found', (Task.ai found).after op a = .ai found' := by
  cases op with
  | stateGet => exact ⟨_, rfl⟩
  | stateSet _ | stateClear | getSession | getValidToken | newUUID | replyToTicket | getCurrencyList _
  | adminUpdateCurrency _ _ _ | adminDeposit _ _ _ | askAI _ _ => exact ⟨found, rfl⟩

/-- An operation that does not write. -/
theorem SafeAI.quiet {op : Op F} {next : Ans op → Call F α} (hop : ∀ store done, storeAfter store op done = store)
    (hnext : ∀ a, SafeAI h (next a)) : SafeAI h (.call op next) := by
  rintro found s s₁ _ _ a s₂ _ ⟨⟨rfl, done, _, rfl⟩, _⟩
  obtain ⟨found', heq⟩ := after_ai found op a
  refine ⟨trivial, fun _ _ => ?_, ?_⟩
  · rw [hop]
    exact .refl _
  · rw [heq]
    exact hnext a found' _

/-- The state that was read is written back at the same step. -/
theorem safe_set {cs : ConversationState} {next : Bool → Call F α} (hsame : ∀ cs₀, found = some cs₀ → SameStep cs₀ cs)
    (hnext : ∀ a, SafeAI h (next a)) : Safe ((system h).restrict Current).Act contract
      (fun task _ _ => ∃ found, task = .ai found) (.call (.stateSet cs) next) (.ai found) s := by
  rintro s₁ _ _ a s₂ _ ⟨⟨rfl, done, _, rfl⟩, hcurrent⟩
  refine ⟨trivial, fun _ _ => ?_, hnext a found _⟩
  cases done with
  | false => exact .refl _
  | true =>
      by_cases hchange : some cs = s₁.store
      · exact hchange ▸ .refl _
      · obtain ⟨cs₀, hfound, hstore⟩ := hcurrent found rfl hchange
        rw [hstore]
        exact .some (hsame cs₀ hfound)

theorem safe_storeAIConversationID (convID : String) : SafeAI h (storeAIConversationID flow convID) := by
  rintro found s s₁ _ _ a s₂ _ ⟨⟨rfl, done, _, rfl⟩, _⟩
  refine ⟨trivial, fun _ _ => .refl _, ?_⟩
  rcases a with err | _ | cs
  · exact safe_set (fun _ h => nomatch h) fun _ => .ret
  · exact safe_set (fun _ h => nomatch h) fun _ => .ret
  · refine safe_set (fun cs₀ hcs => ?_) fun _ => .ret
    cases hcs
    exact ⟨rfl, rfl, rfl, fun key hkey => Data.get_put_ne cs.data convID hkey⟩

theorem safe_answerAI {token convID : String} {sess : Session} : SafeAI h (answerAI h flow text token sess convID) := by
  refine .quiet (fun _ _ => rfl) fun a => ?_
  cases a with
  | error err => exact .ret
  | ok resp =>
      rw [Program.ret_bind]
      dsimp only
      split
      · exact .ret
      · split
        · exact (safe_storeAIConversationID resp.conversationID).bind fun _ => .ret
        · exact .ret

theorem safe_handleAIMessage : SafeAI h (handleAIMessage h flow text) := by
  refine .quiet (fun _ _ => rfl) fun a => ?_
  rcases a with err | ⟨token, _ | sess⟩
  · exact .ret
  · exact .ret
  · refine SafeAI.bind (p := getAIConversationID) (.quiet (fun _ _ => rfl) fun a => ?_) fun convID => ?_
    · rcases a with err | _ | cs <;> exact .ret
    · split
      · refine .quiet (fun _ _ => rfl) fun convID => ?_
        exact (safe_storeAIConversationID convID).bind fun _ => safe_answerAI
      · exact safe_answerAI

theorem meets_contract : ((system h).restrict Current).Meets contract fun _ _ _ => True where
  start := by
    rintro s s' task p _ ⟨rfl, _, _⟩
    exact ⟨trivial, trivial, safe_handler p s'⟩
  enter := by
    rintro s task task' p _ ⟨_, rfl, flow, text, rfl⟩
    exact (safe_handleAIMessage none s).mono fun _ _ _ _ => trivial
  env _ _ := ⟨trivial, trivial⟩
  result _ _ _ _ _ _ := trivial

end Gopkg.Telegram.InFlight
