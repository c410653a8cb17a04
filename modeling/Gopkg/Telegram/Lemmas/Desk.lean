import Gopkg.Telegram.Desk
import Gopkg.Telegram.Lemmas.Support

/-!
# Partners at the desk

Every handler performs lawful operations only, as long as Redis holds under the keys of each partner what belongs to
that partner. The proof relies on the other handlers for this, and guarantees it to them.
-/

namespace Gopkg.Telegram.Support

open Lts Auth

variable {ids : String → Prop} {d : Recorded Redis Task DeskOp DeskAns} {log log' : DeskLog}
  {task : Task} {α : Type}
  {partnerID partnerID' ticketID token userID key value : String} {senderID chatID messageID : Int}

/-! ## A longer log -/

theorem Granted.mono (hsub : log ⊆ log') (h : Granted log partnerID senderID token) :
    Granted log' partnerID senderID token := by
  obtain ⟨task, sess, hmem⟩ := h
  exact ⟨task, sess, hsub hmem⟩

theorem Registered.mono (hsub : log ⊆ log') (h : Registered log partnerID userID chatID) :
    Registered log' partnerID userID chatID := by
  obtain ⟨sess, hmem, hrole⟩ := h
  exact ⟨sess, hsub hmem, hrole⟩

theorem Introduced.mono (hsub : log ⊆ log') (h : Introduced log partnerID ticketID) :
    Introduced log' partnerID ticketID := by
  cases h with
  | event hmem hticket => exact .event (hsub hmem) hticket
  | accepted hmem => exact .accepted (hsub hmem)

theorem Holds.mono (hsub : log ⊆ log') (h : Holds log partnerID key value) : Holds log' partnerID key value := by
  cases h with
  | message h => exact .message (h.mono hsub)
  | active h => exact .active (h.mono hsub)
  | agent h => exact .agent (h.mono hsub)

theorem Addressed.mono {event : SupportEvent} {isAcceptable : Bool} (hsub : log ⊆ log')
    (h : Addressed log event chatID isAcceptable) : Addressed log' event chatID isAcceptable := by
  obtain ⟨userID, hreg, hagent⟩ := h
  exact ⟨userID, hreg.mono hsub, hagent⟩

theorem Lawful.mono {op : DeskOp} (hsub : log ⊆ log') (h : Lawful log task op) : Lawful log' task op := by
  cases op with
  | authenticate _ _ => exact h
  | sendRatingNotification _ _ _ => exact ⟨h.1, h.2.1, h.2.2.mono hsub⟩
  | support op =>
      cases op with
      | redisGet _ | redisScan _ | redisDel _ | getValidToken _ _ => exact h
      | redisSet key value => exact Holds.mono hsub h
      | updateTicketStatus token ticketID status =>
          obtain ⟨hstatus, senderID, hgranted, htask⟩ := h
          refine ⟨hstatus, senderID, hgranted.mono hsub, htask.imp_right ?_⟩
          rintro ⟨args, htask, hargs⟩
          exact ⟨args, htask, hargs.imp_right fun h => ⟨h.1, h.2.mono hsub⟩⟩
      | assignTicket token ticketID =>
          obtain ⟨senderID, messageID, hgranted, htask⟩ := h
          exact ⟨senderID, messageID, hgranted.mono hsub, htask⟩
      | sendAgentMessage token ticketID content =>
          obtain ⟨senderID, msg, hgranted, hticket, htask⟩ := h
          exact ⟨senderID, msg, hgranted.mono hsub, hticket.mono hsub, htask⟩
      | sendTicketNotification _ _ _ _ => exact ⟨h.1, h.2.1, h.2.2.mono hsub⟩
      | sendCustomerReplyNotification _ _ _ _ => exact ⟨h.1, h.2.1, h.2.2.mono hsub⟩

/-! ## Keys -/

/-- The kinds of keys differ in their first characters. -/
def front (key : String) : List Char := key.toList.take 8

theorem front_append {a : String} (b c e : String) (ha : 8 ≤ a.toList.length) : front (a ++ b ++ c ++ e) = front a := by
  simp only [front, String.toList_append, List.append_assoc, List.take_append_of_le_length ha]

theorem front_ticketMessageKey : front (ticketMessageKey partnerID messageID) = front "tgbot:ticket_msg:" :=
  front_append _ _ _ (by decide)

theorem front_activeTicketKey : front (activeTicketKey partnerID chatID) = front "tgbot:active_ticket:" :=
  front_append _ _ _ (by decide)

theorem front_agentKey : front (agentKey partnerID userID) = front "tgbot:agent:" :=
  front_append _ _ _ (by decide)

theorem ticketMessageKey_inj {messageID' : Int}
    (h : ticketMessageKey partnerID messageID = ticketMessageKey partnerID' messageID') : partnerID = partnerID' :=
  (String.append_right_inj _).mp (Digits.key_inj h).1

theorem Holds.of_message (h : Holds log partnerID (ticketMessageKey partnerID' messageID) value) :
    Introduced log partnerID' value := by
  generalize hkey : ticketMessageKey partnerID' messageID = key at h
  have hfront := congrArg front hkey
  cases h with
  | message h => exact ticketMessageKey_inj hkey ▸ h
  | active h => exact absurd (front_ticketMessageKey.symm.trans (hfront.trans front_activeTicketKey)) (by decide)
  | agent h => exact absurd (front_ticketMessageKey.symm.trans (hfront.trans front_agentKey)) (by decide)

theorem Holds.of_active (h : Holds log partnerID (activeTicketKey partnerID' chatID) value) :
    Introduced log partnerID' value := by
  generalize hkey : activeTicketKey partnerID' chatID = key at h
  have hfront := congrArg front hkey
  cases h with
  | message h => exact absurd (front_activeTicketKey.symm.trans (hfront.trans front_ticketMessageKey)) (by decide)
  | active h => exact (activeTicketKey_inj hkey).1 ▸ h
  | agent h => exact absurd (front_activeTicketKey.symm.trans (hfront.trans front_agentKey)) (by decide)

theorem Holds.of_front (h : Holds log partnerID key value) (hfront : front key = front "tgbot:agent:") :
    ∃ userID chatID, key = agentKey partnerID userID ∧ value = toString chatID ∧
      Registered log partnerID userID chatID := by
  cases h with
  | message h => exact absurd (front_ticketMessageKey.symm.trans hfront) (by decide)
  | active h => exact absurd (front_activeTicketKey.symm.trans hfront) (by decide)
  | agent h => exact ⟨_, _, rfl, rfl, h⟩

theorem before_colon {l l' u u' : List Char} (hl : ':' ∉ l) (hl' : ':' ∉ l') (h : l ++ ':' :: u = l' ++ ':' :: u') :
    l = l' ∧ u = u' := by
  rcases List.append_eq_append_iff.mp h with ⟨m, rfl, hm⟩ | ⟨m, rfl, hm⟩ <;> cases m with
    | nil => simp_all
    | cons y m =>
        obtain ⟨rfl, -⟩ := List.cons.inj hm
        simp at hl hl'

theorem agentKey_toList : (agentKey partnerID userID).toList =
    "tgbot:agent:".toList ++ (partnerID.toList ++ ':' :: userID.toList) := by
  change ("tgbot:agent:" ++ partnerID ++ ":" ++ userID).toList = _
  simp only [String.toList_append, List.append_assoc]
  rfl

theorem PlainID.no_colon (h : PlainID partnerID) : ':' ∉ partnerID.toList :=
  fun hmem => (h _ hmem).1 rfl

/-- The keys that a scan for the agents of a partner finds. -/
theorem scan_key (hp : PlainID partnerID)
    (h : Redis.GlobMatches s!"tgbot:agent:{partnerID}:*".toList key.toList) :
    ∃ u, key.toList = "tgbot:agent:".toList ++ (partnerID.toList ++ ':' :: u) := by
  have hpattern : s!"tgbot:agent:{partnerID}:*".toList =
      ("tgbot:agent:".toList ++ (partnerID.toList ++ [':'])) ++ ['*'] := by
    change ("tgbot:agent:" ++ partnerID ++ ":*").toList = _
    simp only [String.toList_append, List.append_assoc]
    rfl
  rw [hpattern] at h
  have hliteral : ∀ c ∈ "tgbot:agent:".toList, c ∉ Redis.globSpecial := by simp [Redis.globSpecial]
  have hplain : ∀ c ∈ "tgbot:agent:".toList ++ (partnerID.toList ++ [':']), c ∉ Redis.globSpecial := by
    refine List.forall_mem_append.mpr ⟨hliteral, List.forall_mem_append.mpr ⟨fun c hc => (hp c hc).2, ?_⟩⟩
    simp [Redis.globSpecial]
  obtain ⟨u, hu, -⟩ := h.literals hplain
  refine ⟨u, ?_⟩
  rw [hu, List.append_assoc, List.append_assoc]
  rfl

theorem front_scan_key (hp : PlainID partnerID)
    (h : Redis.GlobMatches s!"tgbot:agent:{partnerID}:*".toList key.toList) : front key = front "tgbot:agent:" := by
  obtain ⟨u, hu⟩ := scan_key hp h
  rw [front, hu, List.take_append_of_le_length (by decide)]
  rfl

/-- They are keys of that partner. -/
theorem partner_of_scan (hp : PlainID partnerID) (hp' : PlainID partnerID')
    (h : Redis.GlobMatches s!"tgbot:agent:{partnerID}:*".toList (agentKey partnerID' userID).toList) :
    partnerID' = partnerID := by
  obtain ⟨u, hu⟩ := scan_key hp h
  rw [agentKey_toList, List.append_right_inj] at hu
  exact String.toList_inj.mp (before_colon hp'.no_colon hp.no_colon hu).1

theorem agentKey_inj {userID' : String} (hp : PlainID partnerID) (hp' : PlainID partnerID')
    (h : agentKey partnerID userID = agentKey partnerID' userID') : partnerID = partnerID' ∧ userID = userID' := by
  have hchars := congrArg String.toList h
  rw [agentKey_toList, agentKey_toList, List.append_right_inj] at hchars
  obtain ⟨hpartner, huser⟩ := before_colon hp.no_colon hp'.no_colon hchars
  exact ⟨String.toList_inj.mp hpartner, String.toList_inj.mp huser⟩

/-! ## The policy -/

/-- What a handler knows of an answer. -/
def Answered (log : DeskLog) : (op : DeskOp) → DeskAns op → Prop
  | .support (.redisGet key), a => ∀ value, a = .ok value → ∃ partnerID, Holds log partnerID key value
  | .support (.redisScan pattern), a => ∀ key ∈ a.1, Redis.GlobMatches pattern.toList key.toList
  | _, _ => True

def policy (ids : String → Prop) : Policy Redis Task DeskOp DeskAns where
  Allows log task op := ids task.partnerID ∧ Lawful log task op
  Inv log rdb := (∀ e ∈ log, ids e.1.partnerID) ∧
    ∀ key value, rdb key = some value → ∃ partnerID, Holds log partnerID key value
  Known := Answered

theorem answers_content {rdb rdb' : Redis} {op : DeskOp} {a : DeskAns op} (h : Answers rdb op a rdb')
    (hvalue : rdb' key = some value) : rdb key = some value ∨ op = .support (.redisSet key value) := by
  cases op with
  | authenticate _ _ => exact .inl (h ▸ hvalue)
  | sendRatingNotification _ _ _ => exact .inl (h ▸ hvalue)
  | support op =>
      cases op with
      | redisGet _ | redisScan _ => exact .inl (h.2 ▸ hvalue)
      | redisSet key' value' =>
          rcases h with rfl | ⟨_, rfl⟩
          · by_cases hkey : key = key'
            · subst hkey
              rw [Function.update_self] at hvalue
              exact .inr (Option.some.inj hvalue ▸ rfl)
            · rw [Function.update_of_ne hkey] at hvalue
              exact .inl hvalue
          · exact .inl hvalue
      | redisDel key' =>
          rcases h with rfl | ⟨_, rfl⟩
          · by_cases hkey : key = key'
            · subst hkey
              rw [Function.update_self] at hvalue
              cases hvalue
            · rw [Function.update_of_ne hkey] at hvalue
              exact .inl hvalue
          · exact .inl hvalue
      | getValidToken _ _ | updateTicketStatus _ _ _ | assignTicket _ _ | sendAgentMessage _ _ _
      | sendTicketNotification _ _ _ _ | sendCustomerReplyNotification _ _ _ _ => exact .inl (h ▸ hvalue)

theorem policy_sound : (policy ids).Sound (desk ids) where
  mono := fun hsub h => ⟨h.1, h.2.mono hsub⟩
  answer := by
    rintro log rdb task op a rdb' ⟨hids, hcontent⟩ ⟨hid, hlaw⟩ hact
    refine ⟨List.forall_mem_append.mpr ⟨hids, fun e he => List.mem_singleton.mp he ▸ hid⟩, fun key value hvalue => ?_⟩
    have hsub : log ⊆ log ++ [(task, ⟨op, a⟩)] := List.subset_append_left _ _
    rcases answers_content hact hvalue with hold | rfl
    · obtain ⟨partnerID, hholds⟩ := hcontent key value hold
      exact ⟨partnerID, hholds.mono hsub⟩
    · exact ⟨task.partnerID, Holds.mono hsub hlaw⟩
  learn := by
    rintro log log' rdb op a rdb' ⟨_, hcontent⟩ hact hsub
    cases op with
    | authenticate _ _ | sendRatingNotification _ _ _ => trivial
    | support op =>
        cases op with
        | redisGet key =>
            intro value ha
            obtain ⟨partnerID, hholds⟩ := hcontent key value (hact.1 value ha)
            exact ⟨partnerID, hholds.mono hsub⟩
        | redisScan pattern => exact hact.1
        | redisSet _ _ | redisDel _ | getValidToken _ _ | updateTicketStatus _ _ _ | assignTicket _ _
        | sendAgentMessage _ _ _ | sendTicketNotification _ _ _ _ | sendCustomerReplyNotification _ _ _ _ => trivial
  env := fun _ h => h.elim

/-! ## Rules -/

/-- The program of a task keeps to the policy, and returns with `Q`. -/
abbrev Keeps (ids : String → Prop) (Q : Recorded Redis Task DeskOp DeskAns → α → Prop)
    (p : DeskCall α) (task : Task) (d : Recorded Redis Task DeskOp DeskAns) : Prop :=
  (policy ids).Obeys (desk ids) Q p task d

variable {Q : Recorded Redis Task DeskOp DeskAns → α → Prop}

/-- An operation of a handler that is lifted. -/
theorem keeps_perform {p : Call α} (op : Op) {next : Ans op → Call α} (hp : p = .call op next)
    (hid : ids task.partnerID) (hlaw : Lawful d.log task (.support op))
    (hnext : ∀ a d', d.log ⊆ d'.log → (policy ids).Kept d' → (task, ⟨.support op, a⟩) ∈ d'.log →
      Answered d'.log (.support op) a → Keeps ids Q (lift (next a)) task d') : Keeps ids Q (lift p) task d := by
  subst hp
  exact .call policy_sound (.support op) rfl ⟨hid, hlaw⟩ hnext

theorem lift_bind {β : Type} (p : Call α) (f : α → Call β) : lift (p.bind f) = (lift p).bind fun a => lift (f a) := by
  induction p with
  | ret a => rfl
  | call op next ih => exact congrArg (Program.call _) (funext ih)

/-- Both handlers are lifted. -/
theorem keeps_then {β : Type} {R : Recorded Redis Task DeskOp DeskAns → β → Prop} {p : Call α} {f : α → Call β}
    (h : Keeps ids Q (lift p) task d) (hf : ∀ a d', Q d' a → Keeps ids R (lift (f a)) task d') :
    Keeps ids R (lift (p.bind f)) task d := by
  rw [lift_bind]
  exact h.bind hf

/-- A handler begins with the session of the sender, and is done if there is none. -/
theorem keeps_session {p : Call α} {next : Except Unit (String × Option Session) → Call α} {refused : α}
    (hp : p = .call (.getValidToken partnerID senderID) next) (herror : next (.error ()) = .ret refused)
    (hnone : ∀ token, next (.ok (token, none)) = .ret refused) (hid : ids task.partnerID)
    (htask : task.partnerID = partnerID)
    (hnext : ∀ token sess d', d.log ⊆ d'.log → Granted d'.log partnerID senderID token →
      Keeps ids (fun _ _ => True) (lift (next (.ok (token, some sess)))) task d') :
    Keeps ids (fun _ _ => True) (lift p) task d := by
  refine keeps_perform _ hp hid htask.symm fun found d' hsub _ hmem _ => ?_
  rcases found with e | ⟨token, _ | sess⟩
  · rw [herror]
    exact .ret trivial
  · rw [hnone]
    exact .ret trivial
  · exact hnext token sess d' hsub ⟨task, sess, hmem⟩

/-! ## Handlers of the agents -/

theorem keeps_resolveTicket {sess : Session} (hid : ids task.partnerID) (htask : task.partnerID = partnerID)
    (hlaw : Lawful d.log task (.support (.updateTicketStatus token ticketID "resolved"))) :
    Keeps ids (fun _ _ => True) (lift (resolveTicket partnerID senderID token sess ticketID)) task d := by
  refine keeps_perform (.updateTicketStatus token ticketID "resolved") rfl hid hlaw fun ok d' _ _ _ _ => ?_
  cases ok with
  | false => exact .ret trivial
  | true =>
      refine keeps_perform (.redisDel (activeTicketKey partnerID senderID)) rfl hid ⟨senderID, htask ▸ rfl⟩ ?_
      exact fun _ _ _ _ _ _ => .ret trivial

theorem keeps_handleResolveCommand {args : List String} (hid : ids partnerID) :
    Keeps ids (fun _ _ => True) (lift (handleResolveCommand partnerID senderID args))
      (.request (.resolveCommand partnerID senderID args)) d := by
  refine keeps_session rfl rfl (fun _ => rfl) hid rfl fun token sess d' _ hgranted => ?_
  cases args with
  | cons ticketID args =>
      exact keeps_resolveTicket hid rfl ⟨rfl, senderID, hgranted, .inr ⟨_, rfl, .inl rfl⟩⟩
  | nil =>
      refine keeps_perform (.redisGet (activeTicketKey partnerID senderID)) rfl hid trivial ?_
      intro active d'' hsub _ _ hanswered
      cases active with
      | error e => exact .ret trivial
      | ok ticketID =>
          obtain ⟨_, hholds⟩ := hanswered ticketID rfl
          refine keeps_resolveTicket hid rfl ⟨rfl, senderID, hgranted.mono hsub, .inr ⟨_, rfl, .inr ⟨rfl, ?_⟩⟩⟩
          exact hholds.of_active

theorem keeps_handleAcceptCallback {data : String} {messageID : Option Int} (hid : ids partnerID) :
    Keeps ids (fun _ _ => True) (lift (handleAcceptCallback partnerID senderID data messageID))
      (.request (.acceptCallback partnerID senderID data messageID)) d := by
  refine keeps_session rfl rfl (fun _ => rfl) hid rfl fun token sess d' _ hgranted => ?_
  dsimp only [Program.ret_bind]
  split
  · exact .ret trivial
  · refine keeps_perform (.assignTicket token data) rfl hid ⟨senderID, messageID, hgranted, rfl⟩ ?_
    intro ok d₁ _ _ hassigned _
    cases ok with
    | false => exact .ret trivial
    | true =>
        have hticket : Introduced d₁.log partnerID data := .accepted hassigned
        refine keeps_perform (.redisSet (activeTicketKey partnerID senderID) data) rfl hid (Holds.active hticket) ?_
        intro _ d₂ hsub _ _ _
        cases messageID with
        | none => exact .ret trivial
        | some id =>
            refine keeps_perform (.redisSet (ticketMessageKey partnerID id) data) rfl hid ?_ ?_
            · exact Holds.message (hticket.mono hsub)
            · exact fun _ _ _ _ _ _ => .ret trivial

theorem keeps_handleResolveCallback {data : String} (hid : ids partnerID) :
    Keeps ids (fun _ _ => True) (lift (handleResolveCallback partnerID senderID data))
      (.request (.resolveCallback partnerID senderID data)) d := by
  refine keeps_session rfl rfl (fun _ => rfl) hid rfl fun token sess d' _ hgranted => ?_
  dsimp only [Program.ret_bind]
  split
  · exact .ret trivial
  · refine keeps_perform (.updateTicketStatus token data "resolved") rfl hid ⟨rfl, senderID, hgranted, .inl rfl⟩ ?_
    intro ok d₁ _ _ _ _
    cases ok with
    | false => exact .ret trivial
    | true =>
        refine keeps_perform (.redisDel (activeTicketKey partnerID senderID)) rfl hid ⟨senderID, rfl⟩ ?_
        exact fun _ _ _ _ _ _ => .ret trivial

/-- The ticket that was found, or the active one. -/
theorem keeps_activeTicket (ticketID : String) (hid : ids task.partnerID)
    (hfound : ticketID ≠ "" → Introduced d.log partnerID ticketID) :
    Keeps ids (fun d found => ∀ id, found = .ok id → Introduced d.log partnerID id)
      (lift (if ticketID = "" then getActiveTicket partnerID senderID else return .ok ticketID)) task d := by
  split
  · refine keeps_perform (.redisGet (activeTicketKey partnerID senderID)) rfl hid trivial ?_
    intro active d' _ _ _ hanswered
    refine .ret fun id hactive => ?_
    obtain ⟨_, hholds⟩ := hanswered id hactive
    exact hholds.of_active
  next hne =>
    refine .ret fun id heq => ?_
    cases heq
    exact hfound hne

theorem keeps_ticketOf {msg : Message} (hid : ids task.partnerID) :
    Keeps ids (fun d found => ∀ id, found = .ok id → Introduced d.log partnerID id)
      (lift (ticketOf partnerID senderID msg)) task d := by
  rw [ticketOf]
  cases msg.replyTo with
  | none => exact keeps_activeTicket "" hid (absurd rfl)
  | some replyTo =>
      refine keeps_perform (.redisGet (ticketMessageKey partnerID replyTo)) rfl hid trivial ?_
      intro found d' _ _ _ hanswered
      cases found with
      | error e => exact keeps_activeTicket "" hid (absurd rfl)
      | ok ticketID =>
          refine keeps_activeTicket ticketID hid fun _ => ?_
          obtain ⟨_, hholds⟩ := hanswered ticketID rfl
          exact hholds.of_message

theorem keeps_handleReplyToTicket {msg : Message} (hid : ids partnerID) :
    Keeps ids (fun _ _ => True) (lift (handleReplyToTicket partnerID senderID msg))
      (.request (.replyToTicket partnerID senderID msg)) d := by
  refine keeps_then (keeps_ticketOf hid) fun ticket d₁ hticket => ?_
  cases ticket with
  | error e =>
      refine keeps_session rfl rfl (fun _ => rfl) hid rfl fun token sess d₂ _ _ => ?_
      dsimp only [Program.ret_bind]
      split <;> exact .ret trivial
  | ok ticketID =>
      refine keeps_session rfl rfl (fun _ => rfl) hid rfl fun token sess d₂ hsub₂ hgranted => ?_
      have hticket₂ := (hticket ticketID rfl).mono hsub₂
      refine keeps_perform (.sendAgentMessage token ticketID msg.text) rfl hid
        ⟨senderID, msg, hgranted, hticket₂, rfl, rfl⟩ ?_
      intro ok d₃ hsub₃ _ _ _
      cases ok with
      | false => exact .ret trivial
      | true =>
          refine keeps_perform (.redisSet (ticketMessageKey partnerID msg.id) ticketID) rfl hid ?_ ?_
          · exact Holds.message (hticket₂.mono hsub₃)
          · exact fun _ _ _ _ _ _ => .ret trivial

theorem keeps_handleStart (hid : ids partnerID) :
    Keeps ids (fun _ _ => True) (handleStart partnerID senderID) (.start partnerID senderID) d := by
  refine .call policy_sound (.authenticate partnerID senderID) rfl ⟨hid, rfl⟩ fun found d₁ _ _ hmem _ => ?_
  cases found with
  | error e => exact .ret trivial
  | ok sess =>
      dsimp only [Program.ret_bind]
      split
      next hrole =>
        refine .call policy_sound (.support (.redisSet (agentKey partnerID sess.userID) (toString senderID))) rfl ?_ ?_
        · exact ⟨hid, Holds.agent ⟨sess, hmem, hrole, rfl⟩⟩
        · exact fun _ _ _ _ _ _ => .ret trivial
      next => exact .ret trivial

/-! ## Handlers of the events -/

section Events

variable (hplain : ∀ partnerID, ids partnerID → PlainID partnerID) {event : SupportEvent}

include hplain

/-- What stands under a key of agents is the chat of one. -/
theorem registered_of_holds {key : String} (hkept : (policy ids).Kept d) (hfront : front key = front "tgbot:agent:")
    (hholds : Holds d.log partnerID key value) (hchat : Digits.parseInt value = some chatID) :
    ∃ userID, key = agentKey partnerID userID ∧ PlainID partnerID ∧ Registered d.log partnerID userID chatID := by
  obtain ⟨userID, chatID', hkey, rfl, hreg⟩ := hholds.of_front hfront
  rw [Digits.parseInt_toString] at hchat
  obtain rfl := Option.some.inj (Option.ite_none_right_eq_some.mp hchat).2
  obtain ⟨sess, hmem, _⟩ := id hreg
  exact ⟨userID, hkey, hplain _ (hkept.inv.1 _ hmem), hreg⟩

theorem keeps_getAgentChatID (hid : ids task.partnerID) (htask : task.partnerID = event.partnerID) :
    Keeps ids (fun d found => (∃ x, (task, x) ∈ d.log) ∧ ∀ c, found = .ok c → Addressed d.log event c false)
      (lift (getAgentChatID event.partnerID event.agentID)) task d := by
  refine keeps_perform (.redisGet (agentKey event.partnerID event.agentID)) rfl hid trivial ?_
  intro found d' _ hsound hmem hanswered
  cases found with
  | error e => exact .ret ⟨⟨_, hmem⟩, nofun⟩
  | ok value =>
      dsimp only [Program.ret_bind]
      split
      next => exact .ret ⟨⟨_, hmem⟩, nofun⟩
      next chatID hchat =>
        refine .ret ⟨⟨_, hmem⟩, fun c hc => ?_⟩
        cases hc
        obtain ⟨_, hholds⟩ := hanswered value rfl
        obtain ⟨userID, hkey, hp, hreg⟩ := registered_of_holds hplain hsound front_agentKey hholds hchat
        obtain ⟨rfl, rfl⟩ := agentKey_inj (hplain _ (htask ▸ hid)) hp hkey
        exact ⟨_, hreg, fun _ => rfl⟩

theorem keeps_readChatIDs (hid : ids task.partnerID) (htask : task.partnerID = event.partnerID) (keys : List String)
    (hkeys : ∀ key ∈ keys, Redis.GlobMatches s!"tgbot:agent:{event.partnerID}:*".toList key.toList) :
    Keeps ids (fun d' chatIDs => d.log ⊆ d'.log ∧ ∀ c ∈ chatIDs, Addressed d'.log event c true)
      (lift (readChatIDs keys)) task d := by
  induction keys generalizing d with
  | nil => exact .ret ⟨List.Subset.refl _, nofun⟩
  | cons key keys ih =>
      rw [List.forall_mem_cons] at hkeys
      refine keeps_perform (.redisGet key) rfl hid trivial ?_
      intro found d₁ hsub hsound _ hanswered
      have hrest := (ih (d := d₁) hkeys.2).imp fun _ _ h => (⟨List.Subset.trans hsub h.1, h.2⟩ : d.log ⊆ _ ∧ _)
      cases found with
      | error e => exact hrest
      | ok value =>
          dsimp only [Program.ret_bind]
          split
          next => exact hrest
          next chatID hchat =>
            have hp := hplain _ (htask ▸ hid)
            have haddressed : Addressed d₁.log event chatID true := by
              obtain ⟨_, hholds⟩ := hanswered value rfl
              obtain ⟨userID, rfl, hp', hreg⟩ :=
                registered_of_holds hplain hsound (front_scan_key hp hkeys.1) hholds hchat
              exact ⟨userID, partner_of_scan hp hp' hkeys.1 ▸ hreg, nofun⟩
            refine keeps_then (ih (d := d₁) hkeys.2) fun chatIDs d₂ ⟨hsub₂, hchats⟩ => ?_
            exact .ret ⟨List.Subset.trans hsub hsub₂, List.forall_mem_cons.mpr ⟨haddressed.mono hsub₂, hchats⟩⟩

theorem keeps_getAllAgentChatIDs (hid : ids task.partnerID) (htask : task.partnerID = event.partnerID) :
    Keeps ids (fun d found => (∃ x, (task, x) ∈ d.log) ∧
        ∀ chatIDs, found = .ok chatIDs → ∀ c ∈ chatIDs, Addressed d.log event c true)
      (lift (getAllAgentChatIDs event.partnerID)) task d := by
  refine keeps_perform (.redisScan s!"tgbot:agent:{event.partnerID}:*") rfl hid trivial ?_
  rintro ⟨keys, ok⟩ d₁ _ _ hmem hanswered
  have hread := keeps_readChatIDs (d := d₁) hplain hid htask keys hanswered
  refine keeps_then (p := readChatIDs keys) hread fun chatIDs d₂ ⟨hsub, hchats⟩ => ?_
  split
  · refine .ret ⟨⟨_, hsub hmem⟩, fun chatIDs' heq => ?_⟩
    cases heq
    exact hchats
  · exact .ret ⟨⟨_, hsub hmem⟩, nofun⟩

omit hplain in
theorem keeps_broadcast {send : Notification} (hid : ids task.partnerID) (htask : task.partnerID = event.partnerID)
    (hsend : ∀ chatID isAcceptable d, Addressed d.log event chatID isAcceptable →
      Keeps ids (fun d' _ => d.log ⊆ d'.log) (lift (send chatID isAcceptable)) task d) (chatIDs : List Int)
    (hticket : Introduced d.log event.partnerID event.ticketID) (hchats : ∀ c ∈ chatIDs, Addressed d.log event c true) :
    Keeps ids (fun _ _ => True) (lift (broadcast send event chatIDs)) task d := by
  induction chatIDs generalizing d with
  | nil => exact .ret trivial
  | cons chatID chatIDs ih =>
      rw [List.forall_mem_cons] at hchats
      refine keeps_then (hsend chatID true d hchats.1) fun sent d₁ hsub => ?_
      have hticket₁ := hticket.mono hsub
      have hchats₁ : ∀ c ∈ chatIDs, Addressed d₁.log event c true := fun c hc => (hchats.2 c hc).mono hsub
      cases sent with
      | error e => exact ih hticket₁ hchats₁
      | ok msgID =>
          refine keeps_perform (.redisSet (ticketMessageKey event.partnerID msgID) event.ticketID) rfl hid ?_ ?_
          · exact htask ▸ Holds.message (htask ▸ hticket₁)
          · exact fun _ d₂ hsub₂ _ _ _ => ih (hticket₁.mono hsub₂) fun c hc => (hchats₁ c hc).mono hsub₂

theorem keeps_notifyAgent {send : Notification} (hid : ids task.partnerID)
    (hticket : task.ticket = some (event.partnerID, event.ticketID)) (htask : task.partnerID = event.partnerID)
    (hsend : ∀ chatID isAcceptable d, Addressed d.log event chatID isAcceptable →
      Keeps ids (fun d' _ => d.log ⊆ d'.log) (lift (send chatID isAcceptable)) task d) :
    Keeps ids (fun _ _ => True) (lift (notifyAgent send event)) task d := by
  refine keeps_then (keeps_getAgentChatID hplain hid htask) fun found d₁ ⟨⟨x, hmem⟩, hchat⟩ => ?_
  cases found with
  | error e => exact .ret trivial
  | ok chatID =>
      refine keeps_then (hsend chatID false d₁ (hchat chatID rfl)) fun sent d₂ hsub => ?_
      cases sent with
      | error e => exact .ret trivial
      | ok msgID =>
          have hticket₂ : Introduced d₂.log event.partnerID event.ticketID := .event (hsub hmem) hticket
          refine keeps_perform (.redisSet (ticketMessageKey event.partnerID msgID) event.ticketID) rfl hid ?_ ?_
          · exact htask ▸ Holds.message (htask ▸ hticket₂)
          intro _ d₃ hsub₃ _ _ _
          refine keeps_perform (.redisSet (activeTicketKey event.partnerID chatID) event.ticketID) rfl hid ?_ ?_
          · exact htask ▸ Holds.active (htask ▸ hticket₂.mono hsub₃)
          · exact fun _ _ _ _ _ _ => .ret trivial

theorem keeps_handleTicketCreated {event : Option SupportEvent}
    (hid : ids (Task.request (.ticketCreated event)).partnerID) :
    Keeps ids (fun _ _ => True) (lift (handleTicketCreated event)) (.request (.ticketCreated event)) d := by
  cases event with
  | none => exact .ret trivial
  | some event =>
      have hsend : ∀ chatID isAcceptable d, Addressed d.log event chatID isAcceptable →
          Keeps ids (fun d' _ => d.log ⊆ d'.log)
            (lift (perform (.sendTicketNotification event.partnerID chatID event isAcceptable)))
            (.request (.ticketCreated (some event))) d := by
        intro chatID isAcceptable d haddressed
        refine keeps_perform (.sendTicketNotification event.partnerID chatID event isAcceptable) rfl hid
          ⟨rfl, rfl, haddressed⟩ ?_
        exact fun _ d' hsub _ _ _ => .ret hsub
      rw [handleTicketCreated]
      split
      · exact .ret trivial
      split
      · exact keeps_notifyAgent hplain hid rfl rfl hsend
      refine keeps_then (keeps_getAllAgentChatIDs hplain hid rfl) fun found d₁ ⟨⟨x, hmem⟩, hchats⟩ => ?_
      rcases found with e | _ | ⟨c, chatIDs⟩
      · exact .ret trivial
      · exact .ret trivial
      · exact keeps_broadcast hid rfl hsend _ (.event hmem rfl) (hchats _ rfl)

theorem keeps_handleCustomerReply {event : Option SupportEvent}
    (hid : ids (Task.request (.customerReply event)).partnerID) :
    Keeps ids (fun _ _ => True) (lift (handleCustomerReply event)) (.request (.customerReply event)) d := by
  cases event with
  | none => exact .ret trivial
  | some event =>
      have hsend : ∀ chatID isAcceptable d, Addressed d.log event chatID isAcceptable →
          Keeps ids (fun d' _ => d.log ⊆ d'.log)
            (lift (perform (.sendCustomerReplyNotification event.partnerID chatID event isAcceptable)))
            (.request (.customerReply (some event))) d := by
        intro chatID isAcceptable d haddressed
        refine keeps_perform (.sendCustomerReplyNotification event.partnerID chatID event isAcceptable) rfl hid
          ⟨rfl, rfl, haddressed⟩ ?_
        exact fun _ d' hsub _ _ _ => .ret hsub
      rw [handleCustomerReply]
      split
      · exact .ret trivial
      split
      · exact keeps_notifyAgent hplain hid rfl rfl hsend
      refine keeps_then (keeps_getAllAgentChatIDs hplain hid rfl) fun found d₁ ⟨⟨x, hmem⟩, hchats⟩ => ?_
      refine keeps_broadcast hid rfl hsend _ (.event hmem rfl) ?_
      cases found with
      | error e => exact nofun
      | ok chatIDs => exact hchats chatIDs rfl

theorem keeps_handleTicketRated {event : Option SupportEvent} (hid : ids (Task.ticketRated event).partnerID) :
    Keeps ids (fun _ _ => True) (handleTicketRated event) (.ticketRated event) d := by
  cases event with
  | none => exact .ret trivial
  | some event =>
      rw [handleTicketRated]
      split
      · exact .ret trivial
      refine Policy.Obeys.bind (keeps_getAgentChatID hplain hid rfl) fun found d₁ ⟨_, hchat⟩ => ?_
      cases found with
      | error e => exact .ret trivial
      | ok chatID =>
          refine .call policy_sound (.sendRatingNotification event.partnerID chatID event) rfl
            ⟨hid, rfl, rfl, hchat chatID rfl⟩ ?_
          exact fun _ _ _ _ _ _ => .ret trivial

theorem keeps_handle {req : Request} (hid : ids req.partnerID) :
    Keeps ids (fun _ _ => True) (lift (handle req)) (.request req) d := by
  have hdone : ∀ {β : Type} (b : β) d', Keeps ids (fun _ _ => True) (lift (.ret b)) (.request req) d' :=
    fun _ _ => .ret trivial
  cases req with
  | resolveCommand p c args => exact keeps_then (keeps_handleResolveCommand hid) fun _ d' _ => hdone _ d'
  | acceptCallback p c data id => exact keeps_then (keeps_handleAcceptCallback hid) fun _ d' _ => hdone _ d'
  | resolveCallback p c data => exact keeps_then (keeps_handleResolveCallback hid) fun _ d' _ => hdone _ d'
  | replyToTicket p c msg => exact keeps_handleReplyToTicket hid
  | ticketCreated event => exact keeps_then (keeps_handleTicketCreated hplain hid) fun _ d' _ => hdone _ d'
  | customerReply event => exact keeps_then (keeps_handleCustomerReply hplain hid) fun _ d' _ => hdone _ d'

theorem keeps_program (task : Task) (hid : ids task.partnerID) :
    Keeps ids (fun _ _ => True) task.program task d := by
  cases task with
  | start partnerID senderID => exact keeps_handleStart hid
  | request req => exact Policy.Obeys.bind (keeps_handle hplain hid) fun _ _ _ => .ret trivial
  | ticketRated event => exact keeps_handleTicketRated hplain hid

theorem desk_audited {t : DeskLog} {w : Pool (Recorded Redis Task DeskOp DeskAns) Task DeskOp DeskAns Unit}
    (hr : Run (desk ids).system.Step ⟨⟨Redis.empty, []⟩, []⟩ t w) :
    Each (fun log e => (policy ids).Allows log e.1 e.2.1) t ∧ (policy ids).Inv t w.shared.state := by
  refine Policy.audited policy_sound ⟨by simp, by simp [Redis.empty]⟩ ?_ hr
  rintro log rdb task p rdb' hinv ⟨hid, rfl, rfl⟩
  exact ⟨hinv, keeps_program hplain task hid⟩

end Events

end Gopkg.Telegram.Support
