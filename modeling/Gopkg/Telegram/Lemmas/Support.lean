import Gopkg.Telegram.Support

/-!
# Active tickets

Who changes the active ticket of an agent, and what is left of it when a ticket is resolved.
-/

namespace Gopkg.Telegram.Support

open Lts Auth

variable {partnerID partnerID' : String} {senderID chatID chatID' messageID : Int} {rdb rdb' : Redis}

/-! ## Keys -/

theorem activeTicketKey_inj (h : activeTicketKey partnerID chatID = activeTicketKey partnerID' chatID') :
    partnerID = partnerID' ∧ chatID = chatID' := by
  obtain ⟨hp, hc⟩ := Digits.key_inj h
  exact ⟨(String.append_right_inj _).mp hp, hc⟩

theorem ticketMessageKey_ne : ticketMessageKey partnerID messageID ≠ activeTicketKey partnerID' chatID := by
  intro h
  have hfront : ∀ a b c d : String, 7 ≤ a.toList.length → (a ++ b ++ c ++ d).toList.take 7 = a.toList.take 7 := by
    intro a b c d ha
    simp only [String.toList_append, List.append_assoc, List.take_append_of_le_length ha]
  have hchars : "tgbot:ticket_msg:".toList.take 7 = "tgbot:active_ticket:".toList.take 7 :=
    (hfront _ _ _ _ (by decide)).symm.trans ((congrArg (fun s => s.toList.take 7) h).trans
      (hfront _ _ _ _ (by decide)))
  exact absurd hchars (by decide)

/-! ## Handlers that leave an active ticket alone -/

variable {key : String} {α : Type}

/-- The operations that write under a key. -/
def Writes (key : String) : Op → Prop
  | .redisSet key' _ | .redisDel key' => key' = key
  | _ => False

theorem act_kept {op : Op} {a : Ans op} (hop : ¬ Writes key op) (h : act rdb op a rdb') : rdb' key = rdb key := by
  cases op with
  | redisGet key' => rw [h.2]
  | redisSet key' value =>
      rw [show rdb' = _ from h]
      exact Function.update_of_ne (Ne.symm hop) _ _
  | redisDel key' =>
      rw [show rdb' = _ from h]
      exact Function.update_of_ne (Ne.symm hop) _ _
  | _ => rw [show rdb' = rdb from h]

theorem kept_of_avoids {p : Call α} {ops : List ((op : Op) × Ans op)} {a : α} (he : Ends act rdb p ops a rdb')
    (hp : p.Avoids (Writes key)) : rdb' key = rdb key :=
  he.kept (g := fun rdb => rdb key) hp act_kept

/-- A handler begins with the session of the sender, and is done if there is none. -/
theorem avoids_session {p : Call α} {next : Except Unit (String × Option Session) → Call α} {refused : α}
    (hp : p = .call (.getValidToken partnerID senderID) next) (herror : next (.error ()) = .ret refused)
    (hnone : ∀ token, next (.ok (token, none)) = .ret refused)
    (hnext : ∀ token sess, (next (.ok (token, some sess))).Avoids (Writes key)) : p.Avoids (Writes key) := by
  rw [hp]
  refine ⟨nofun, fun found => ?_⟩
  rcases found with e | ⟨token, _ | sess⟩
  · rw [herror]
    trivial
  · rw [hnone]
    trivial
  · exact hnext token sess

theorem avoids_resolveTicket {token ticketID : String} {sess : Session}
    (hkey : activeTicketKey partnerID senderID ≠ key) :
    (resolveTicket partnerID senderID token sess ticketID).Avoids (Writes key) := by
  refine ⟨nofun, fun ok => ?_⟩
  cases ok with
  | true => exact ⟨hkey, fun _ => trivial⟩
  | false => trivial

theorem avoids_handleResolveCommand {args : List String} (hkey : activeTicketKey partnerID senderID ≠ key) :
    (handleResolveCommand partnerID senderID args).Avoids (Writes key) := by
  refine avoids_session rfl rfl (fun _ => rfl) fun token sess => ?_
  cases args with
  | cons ticketID args => exact avoids_resolveTicket hkey
  | nil =>
      refine ⟨nofun, fun active => ?_⟩
      cases active with
      | error e => trivial
      | ok ticketID => exact avoids_resolveTicket hkey

theorem avoids_handleAcceptCallback {data : String} {messageID : Option Int}
    (hkey : activeTicketKey partnerID senderID ≠ key) (hmsg : ∀ id, ticketMessageKey partnerID id ≠ key) :
    (handleAcceptCallback partnerID senderID data messageID).Avoids (Writes key) := by
  refine avoids_session rfl rfl (fun _ => rfl) fun token sess => ?_
  dsimp only [Program.ret_bind]
  split
  · trivial
  · refine ⟨nofun, fun ok => ?_⟩
    cases ok with
    | false => trivial
    | true =>
        refine ⟨hkey, fun _ => ?_⟩
        cases messageID with
        | none => trivial
        | some id => exact ⟨hmsg id, fun _ => trivial⟩

theorem avoids_handleResolveCallback {data : String} (hkey : activeTicketKey partnerID senderID ≠ key) :
    (handleResolveCallback partnerID senderID data).Avoids (Writes key) := by
  refine avoids_session rfl rfl (fun _ => rfl) fun token sess => ?_
  dsimp only [Program.ret_bind]
  split
  · trivial
  · refine ⟨nofun, fun ok => ?_⟩
    cases ok with
    | false => trivial
    | true => exact ⟨hkey, fun _ => trivial⟩

/-- The active ticket is only looked up. -/
theorem avoids_activeTicket (ticketID : String) :
    (if ticketID = "" then getActiveTicket partnerID senderID else return .ok ticketID).Avoids (Writes key) := by
  split
  · exact ⟨nofun, fun _ => trivial⟩
  · trivial

theorem avoids_ticketOf {msg : Message} : (ticketOf partnerID senderID msg).Avoids (Writes key) := by
  rw [ticketOf]
  cases msg.replyTo with
  | none => exact avoids_activeTicket ""
  | some replyTo =>
      refine ⟨nofun, fun found => ?_⟩
      cases found with
      | error e => exact avoids_activeTicket ""
      | ok ticketID => exact avoids_activeTicket ticketID

theorem avoids_handleReplyToTicket {msg : Message} (hmsg : ∀ id, ticketMessageKey partnerID id ≠ key) :
    (handleReplyToTicket partnerID senderID msg).Avoids (Writes key) := by
  refine avoids_ticketOf.bind fun ticket => ?_
  cases ticket with
  | error e =>
      refine avoids_session rfl rfl (fun _ => rfl) fun token sess => ?_
      dsimp only [Program.ret_bind]
      split <;> trivial
  | ok ticketID =>
      refine avoids_session rfl rfl (fun _ => rfl) fun token sess => ⟨nofun, fun ok => ?_⟩
      cases ok with
      | false => trivial
      | true => exact ⟨hmsg msg.id, fun _ => trivial⟩

theorem avoids_readChatIDs (keys : List String) : (readChatIDs keys).Avoids (Writes key) := by
  induction keys with
  | nil => trivial
  | cons key' keys ih =>
      refine ⟨nofun, fun found => ?_⟩
      cases found with
      | error e => exact ih
      | ok val =>
          dsimp only [Program.ret_bind]
          split
          · exact ih
          · exact ih.bind fun _ => trivial

theorem avoids_getAllAgentChatIDs : (getAllAgentChatIDs partnerID).Avoids (Writes key) := by
  refine ⟨nofun, fun found => ?_⟩
  refine (avoids_readChatIDs found.1).bind fun chatIDs => ?_
  split <;> trivial

variable {send : Notification} {event : SupportEvent}

theorem avoids_broadcast (hsend : ∀ chatID isAcceptable, (send chatID isAcceptable).Avoids (Writes key))
    (hmsg : ∀ id, ticketMessageKey event.partnerID id ≠ key) (chatIDs : List Int) :
    (broadcast send event chatIDs).Avoids (Writes key) := by
  induction chatIDs with
  | nil => trivial
  | cons chatID chatIDs ih =>
      refine (hsend chatID true).bind fun sent => ?_
      cases sent with
      | error e => exact ih
      | ok msgID => exact ⟨hmsg msgID, fun _ => ih⟩

variable {ops : List ((op : Op) × Ans op)}

/-- The agent of a ticket is notified, and nobody else's active ticket changes. -/
theorem kept_notifyAgent (hsend : ∀ chatID isAcceptable, (send chatID isAcceptable).Avoids (Writes key))
    (hmsg : ∀ id, ticketMessageKey event.partnerID id ≠ key)
    (hagent : ∀ chatID, (rdb (agentKey event.partnerID event.agentID)).bind Digits.parseInt = some chatID →
      activeTicketKey event.partnerID chatID ≠ key) {a : Unit}
    (he : Ends act rdb (notifyAgent send event) ops a rdb') : rdb' key = rdb key := by
  obtain ⟨found, rdb₁, ops', rfl, ⟨hfound, rfl⟩, hrest⟩ :=
    ends_call (Op.redisGet (agentKey event.partnerID event.agentID)) rfl he
  cases found with
  | error e => rw [(ends_ret rfl hrest).2.2]
  | ok val =>
      cases hparse : Digits.parseInt val with
      | none =>
          simp only [Program.ret_bind, hparse] at hrest
          rw [(ends_ret rfl hrest).2.2]
      | some chatID =>
          simp only [Program.ret_bind, hparse] at hrest
          refine kept_of_avoids hrest ((hsend chatID false).bind fun sent => ?_)
          cases sent with
          | error e => trivial
          | ok msgID =>
              refine ⟨hmsg msgID, fun _ => ⟨hagent chatID ?_, fun _ => trivial⟩⟩
              rw [← hfound]
              exact hparse

/-- The requests that may change the active ticket of an agent: their own, and the events on tickets that are assigned
to them. -/
def Request.Concerns (rdb : Redis) (partnerID : String) (chatID : Int) : Request → Prop
  | .resolveCommand partnerID' senderID _ | .acceptCallback partnerID' senderID _ _
  | .resolveCallback partnerID' senderID _ => partnerID' = partnerID ∧ senderID = chatID
  | .replyToTicket _ _ _ => False
  | .ticketCreated event | .customerReply event => ∃ e ∈ event, e.partnerID = partnerID ∧
      (rdb (agentKey e.partnerID e.agentID)).bind Digits.parseInt = some chatID

theorem activeTicketKey_ne_of (h : ¬ (partnerID' = partnerID ∧ chatID' = chatID)) :
    activeTicketKey partnerID' chatID' ≠ activeTicketKey partnerID chatID :=
  fun heq => h (activeTicketKey_inj heq)

/-- An event with an agent goes to the agent, and one without to the program `rest`. -/
theorem kept_dispatch {rest : Call Unit} {a : Unit}
    (hsend : ∀ c isAcceptable, (send c isAcceptable).Avoids (Writes (activeTicketKey partnerID chatID)))
    (hrest : rest.Avoids (Writes (activeTicketKey partnerID chatID)))
    (hev : ¬ (event.partnerID = partnerID ∧
      (rdb (agentKey event.partnerID event.agentID)).bind Digits.parseInt = some chatID))
    (he : Ends act rdb (if event.partnerID = "" then pure () else if event.agentID ≠ "" then notifyAgent send event
      else rest) ops a rdb') :
    rdb' (activeTicketKey partnerID chatID) = rdb (activeTicketKey partnerID chatID) := by
  split at he
  · rw [(ends_ret rfl he).2.2]
  · split at he
    · refine kept_notifyAgent hsend (fun _ => ticketMessageKey_ne) ?_ he
      exact fun c hc => activeTicketKey_ne_of fun heq => hev ⟨heq.1, heq.2 ▸ hc⟩
    · exact kept_of_avoids he hrest

theorem kept_handleTicketCreated {event : Option SupportEvent} {a : Unit}
    (hev : ¬ (Request.ticketCreated event).Concerns rdb partnerID chatID)
    (he : Ends act rdb (handleTicketCreated event) ops a rdb') :
    rdb' (activeTicketKey partnerID chatID) = rdb (activeTicketKey partnerID chatID) := by
  cases event with
  | none => rw [(ends_ret rfl he).2.2]
  | some e =>
      have hsend : ∀ c isAcceptable, (perform (.sendTicketNotification e.partnerID c e isAcceptable)).Avoids
          (Writes (activeTicketKey partnerID chatID)) := fun _ _ => ⟨nofun, fun _ => trivial⟩
      refine kept_dispatch hsend (avoids_getAllAgentChatIDs.bind fun found => ?_) (fun h => hev ⟨e, rfl, h⟩) he
      rcases found with err | _ | ⟨c, chatIDs⟩
      · trivial
      · trivial
      · exact avoids_broadcast hsend (fun _ => ticketMessageKey_ne) _

theorem kept_handleCustomerReply {event : Option SupportEvent} {a : Unit}
    (hev : ¬ (Request.customerReply event).Concerns rdb partnerID chatID)
    (he : Ends act rdb (handleCustomerReply event) ops a rdb') :
    rdb' (activeTicketKey partnerID chatID) = rdb (activeTicketKey partnerID chatID) := by
  cases event with
  | none => rw [(ends_ret rfl he).2.2]
  | some e =>
      have hsend : ∀ c isAcceptable, (perform (.sendCustomerReplyNotification e.partnerID c e isAcceptable)).Avoids
          (Writes (activeTicketKey partnerID chatID)) := fun _ _ => ⟨nofun, fun _ => trivial⟩
      refine kept_dispatch hsend (avoids_getAllAgentChatIDs.bind fun found => ?_) (fun h => hev ⟨e, rfl, h⟩) he
      exact avoids_broadcast hsend (fun _ => ticketMessageKey_ne) _

theorem Step.kept {ev : Handled} (hs : Step rdb [ev] rdb') (hev : ¬ ev.request.Concerns rdb partnerID chatID) :
    rdb' (activeTicketKey partnerID chatID) = rdb (activeTicketKey partnerID chatID) := by
  cases hs with
  | S_Handle request he =>
      cases request with
      | resolveCommand p c args =>
          exact kept_of_avoids he ((avoids_handleResolveCommand (activeTicketKey_ne_of hev)).bind fun _ => trivial)
      | acceptCallback p c data id =>
          refine kept_of_avoids he (.bind (avoids_handleAcceptCallback (activeTicketKey_ne_of hev) ?_) fun _ => trivial)
          exact fun _ => ticketMessageKey_ne
      | resolveCallback p c data =>
          exact kept_of_avoids he ((avoids_handleResolveCallback (activeTicketKey_ne_of hev)).bind fun _ => trivial)
      | replyToTicket p c msg =>
          exact kept_of_avoids he (avoids_handleReplyToTicket fun _ => ticketMessageKey_ne)
      | ticketCreated event =>
          obtain ⟨ops₁, ops₂, a, rdb₁, rfl, he, hret⟩ := ends_bind he
          rw [(ends_ret rfl hret).2.2]
          exact kept_handleTicketCreated hev he
      | customerReply event =>
          obtain ⟨ops₁, ops₂, a, rdb₁, rfl, he, hret⟩ := ends_bind he
          rw [(ends_ret rfl hret).2.2]
          exact kept_handleCustomerReply hev he

/-! ## Resolving -/

/-- The gateway resolves a ticket for an agent, whether by command or by button. -/
def Handled.Resolves (partnerID : String) (senderID : Int) (ticketID : String) : Handled → Prop
  | ⟨.resolveCommand partnerID' senderID' _, ops⟩ | ⟨.resolveCallback partnerID' senderID' _, ops⟩ =>
      partnerID' = partnerID ∧ senderID' = senderID ∧
        ∃ token, ⟨.updateTicketStatus token ticketID "resolved", true⟩ ∈ ops
  | _ => False

variable {token ticketID ticketID' : String} {sess : Session} {reply : Reply}

/-- A program that clears the active ticket once a ticket is resolved. -/
theorem cleared_of_update {p : Call Reply} {next : Bool → Call Reply} {done failed : Reply}
    (hp : p = .call (.updateTicketStatus token ticketID "resolved") next)
    (hdone : next true = .call (.redisDel (activeTicketKey partnerID senderID)) fun _ => .ret done)
    (hfailed : next false = .ret failed) (he : Ends act rdb p ops reply rdb') {token' : String}
    (hop : ⟨.updateTicketStatus token' ticketID' "resolved", true⟩ ∈ ops) :
    rdb' (activeTicketKey partnerID senderID) = none := by
  obtain ⟨ok, rdb₁, ops₁, rfl, rfl, hrest⟩ := ends_call (Op.updateTicketStatus token ticketID "resolved") hp he
  cases ok with
  | false =>
      obtain ⟨rfl, _, _⟩ := ends_ret hfailed hrest
      simp at hop
  | true =>
      obtain ⟨_, rdb₂, ops₂, rfl, rfl, hret⟩ :=
        ends_call (Op.redisDel (activeTicketKey partnerID senderID)) hdone hrest
      rw [(ends_ret rfl hret).2.2]
      exact Function.update_self _ _ _

theorem cleared_resolveTicket (he : Ends act rdb (resolveTicket partnerID senderID token sess ticketID) ops reply rdb')
    {token' : String} (hop : ⟨.updateTicketStatus token' ticketID' "resolved", true⟩ ∈ ops) :
    rdb' (activeTicketKey partnerID senderID) = none :=
  cleared_of_update rfl rfl rfl he hop

/-- A handler that has resolved a ticket has found a session. -/
theorem session_ends {p : Call Reply} {next : Except Unit (String × Option Session) → Call Reply} {refused : Reply}
    (hp : p = .call (.getValidToken partnerID senderID) next) (herror : next (.error ()) = .ret refused)
    (hnone : ∀ token, next (.ok (token, none)) = .ret refused) (he : Ends act rdb p ops reply rdb')
    (hop : ⟨.updateTicketStatus token ticketID "resolved", true⟩ ∈ ops) :
    ∃ token' sess ops', Ends act rdb (next (.ok (token', some sess))) ops' reply rdb' ∧
      ⟨.updateTicketStatus token ticketID "resolved", true⟩ ∈ ops' := by
  obtain ⟨found, rdb₁, ops', rfl, rfl, hrest⟩ := ends_call (Op.getValidToken partnerID senderID) hp he
  have hlater : ⟨.updateTicketStatus token ticketID "resolved", true⟩ ∈ ops' := by simpa using hop
  rcases found with e | ⟨token', _ | sess⟩
  · rw [(ends_ret herror hrest).1] at hlater
    exact absurd hlater List.not_mem_nil
  · rw [(ends_ret (hnone token') hrest).1] at hlater
    exact absurd hlater List.not_mem_nil
  · exact ⟨token', sess, ops', hrest, hlater⟩

theorem cleared_handleResolveCommand {args : List String}
    (he : Ends act rdb (handleResolveCommand partnerID senderID args) ops reply rdb')
    (hop : ⟨.updateTicketStatus token ticketID "resolved", true⟩ ∈ ops) :
    rdb' (activeTicketKey partnerID senderID) = none := by
  obtain ⟨token', sess, ops₁, hrest, hop₁⟩ := session_ends rfl rfl (fun _ => rfl) he hop
  cases args with
  | cons id args => exact cleared_resolveTicket hrest hop₁
  | nil =>
      obtain ⟨active, rdb₂, ops₂, rfl, ⟨_, rfl⟩, hrest₂⟩ :=
        ends_call (Op.redisGet (activeTicketKey partnerID senderID)) rfl hrest
      have hop₂ : ⟨.updateTicketStatus token ticketID "resolved", true⟩ ∈ ops₂ := by simpa using hop₁
      cases active with
      | error e =>
          rw [(ends_ret rfl hrest₂).1] at hop₂
          exact absurd hop₂ List.not_mem_nil
      | ok id => exact cleared_resolveTicket hrest₂ hop₂

theorem cleared_handleResolveCallback {data : String}
    (he : Ends act rdb (handleResolveCallback partnerID senderID data) ops reply rdb')
    (hop : ⟨.updateTicketStatus token ticketID "resolved", true⟩ ∈ ops) :
    rdb' (activeTicketKey partnerID senderID) = none := by
  obtain ⟨token', sess, ops₁, hrest, hop₁⟩ := session_ends rfl rfl (fun _ => rfl) he hop
  simp only [Program.ret_bind] at hrest
  split at hrest
  · rw [(ends_ret rfl hrest).1] at hop₁
    exact absurd hop₁ List.not_mem_nil
  · exact cleared_of_update rfl rfl rfl hrest hop₁

/-- Whichever ticket was resolved, the agent has no active ticket any more. -/
theorem Step.cleared {ev : Handled} (hs : Step rdb [ev] rdb') (hev : ev.Resolves partnerID senderID ticketID) :
    rdb' (activeTicketKey partnerID senderID) = none := by
  cases hs with
  | S_Handle request he =>
      cases request with
      | resolveCommand p c args =>
          obtain ⟨rfl, rfl, token, hop⟩ := hev
          obtain ⟨ops₁, ops₂, a, rdb₁, rfl, he, hret⟩ := ends_bind he
          obtain ⟨rfl, _, rfl⟩ := ends_ret rfl hret
          rw [List.append_nil] at hop
          exact cleared_handleResolveCommand he hop
      | resolveCallback p c data =>
          obtain ⟨rfl, rfl, token, hop⟩ := hev
          obtain ⟨ops₁, ops₂, a, rdb₁, rfl, he, hret⟩ := ends_bind he
          obtain ⟨rfl, _, rfl⟩ := ends_ret rfl hret
          rw [List.append_nil] at hop
          exact cleared_handleResolveCallback he hop
      | acceptCallback p c data id => exact hev.elim
      | replyToTicket p c msg => exact hev.elim
      | ticketCreated event => exact hev.elim
      | customerReply event => exact hev.elim

end Gopkg.Telegram.Support
