import Gopkg.Go.Map

/-!
# Multicasts of push notifications

`SendMulticast` of `communication/push/expo` and of `communication/push/fcm`: two implementations of one method, which
returns a list of responses for a list of tokens.
-/

namespace Gopkg.Push

open Go

/-- The fields of a request that a push notification is made of. -/
structure SendRequest where
  subject : String
  body : String
  contextData : Map String String

/-- The raw response is left out, which a multicast never sets. -/
structure SendResponse where
  success : Bool
  providerCode : String
  providerMessageID : String
  error : String
  deriving DecidableEq

/-! ## Expo -/

namespace Expo

def providerCode : String := "expo_push"

/-- The fields that `buildMessage` sets. -/
structure PushMessage where
  to_ : String
  title : String
  body : String
  data : Option (Map String String)
  sound : String
  priority : String

structure PushTicket where
  id : String
  status : String
  message : String
  deriving DecidableEq

/-- The steps before there is a response. -/
inductive Stage where
  | marshal
  | buildRequest
  | http
  | readResponse

def Stage.text : Stage → String
  | .marshal => "expo: marshal: "
  | .buildRequest => "expo: build request: "
  | .http => "expo: http: "
  | .readResponse => "expo: read response: "

inductive Reply where
  | failed (stage : Stage) (err : String)
  | response (statusCode : Int) (raw : String)

/-- The service, and the decoder of its responses. -/
structure Api where
  post : List PushMessage → Reply
  decode : String → Except String (List PushTicket)

def isExpoToken (s : String) : Bool :=
  "ExponentPushToken[".toList.isPrefixOf s.toList || "ExpoPushToken[".toList.isPrefixOf s.toList

def buildMessage (token : String) (req : SendRequest) : PushMessage where
  to_ := token
  title := req.subject
  body := req.body
  data := if req.contextData.entries.card > 0 then some req.contextData else none
  sound := "default"
  priority := "high"

def sendBatch (api : Api) (messages : List PushMessage) : Except String (List PushTicket) :=
  match api.post messages with
  | .failed stage err => .error (stage.text ++ err)
  | .response statusCode raw =>
    if statusCode ≥ 300 then .error ("expo: HTTP " ++ toString statusCode ++ ": " ++ raw)
    else (api.decode raw).mapError ("expo: decode response: " ++ ·)

/-- The messages of a multicast. Other tokens are skipped. -/
def messages (req : SendRequest) : List String → List PushMessage
  | [] => []
  | t :: tokens => if !isExpoToken t then messages req tokens else buildMessage t req :: messages req tokens

def respond (t : PushTicket) : SendResponse :=
  if t.status = "error" then ⟨false, providerCode, "", t.message⟩ else ⟨true, providerCode, t.id, ""⟩

def sendMulticast (api : Api) (tokens : List String) (req : SendRequest) : Except String (List SendResponse) :=
  if tokens = [] then .error "expo: at least one token is required"
  else if (messages req tokens).isEmpty then .error "expo: no valid Expo tokens in batch"
  else (sendBatch api (messages req tokens)).map fun tickets => tickets.map respond

end Expo

/-! ## FCM -/

namespace Fcm

def providerCode : String := "firebase_fcm"

/-- The settings for Android and APNS, which are fixed, are left out. -/
structure MulticastMessage where
  tokens : List String
  title : String
  body : String
  data : Map String String

/-- `messaging.SendResponse`, with the text of its error. -/
structure Response where
  success : Bool
  messageID : String
  error : String

def respond (r : Response) : SendResponse :=
  if r.success then ⟨true, providerCode, r.messageID, ""⟩ else ⟨false, providerCode, "", r.error⟩

/-- `client` is `SendEachForMulticast`. -/
def sendMulticast (client : MulticastMessage → Except String (List Response)) (tokens : List String)
    (req : SendRequest) : Except String (List SendResponse) :=
  if tokens = [] then .error "fcm: at least one token is required"
  else
    match client ⟨tokens, req.subject, req.body, req.contextData⟩ with
    | .error err => .error ("fcm: multicast: " ++ err)
    | .ok responses => .ok (responses.map respond)

end Fcm

/-! ## Responses and tokens -/

/-- There is one response for each token, and it is the outcome of that token: that of the answer to its message if it
was sent, and a failure if it was not. The answers are in the order of the messages. -/
structure Attributed {α : Type} (sent : String → Bool) (Tells : α → SendResponse → Prop) (tokens : List String)
    (answers : List α) (out : List SendResponse) : Prop where
  length_eq : out.length = tokens.length
  answered : ∀ (i : Nat) t, tokens[i]? = some t → sent t → ∃ answer resp,
    answers[(tokens.take i).countP sent]? = some answer ∧ out[i]? = some resp ∧ Tells answer resp
  skipped : ∀ (i : Nat) t, tokens[i]? = some t → ¬ sent t →
    ∃ resp : SendResponse, out[i]? = some resp ∧ resp.success = false

variable {α : Type} {sent : String → Bool} {Tells : α → SendResponse → Prop} {tokens : List String} {answers : List α}
  {out : List SendResponse} {req : SendRequest}

/-- Where all tokens are sent, the answers are the outcomes. -/
theorem attributed_of_all {respond : α → SendResponse} (hall : ∀ t ∈ tokens, sent t = true)
    (hlength : answers.length = tokens.length) (hrespond : ∀ a, Tells a (respond a)) :
    Attributed sent Tells tokens answers (answers.map respond) where
  length_eq := (List.length_map _).trans hlength
  answered := by
    intro i t ht _
    obtain ⟨hi, _⟩ := List.getElem?_eq_some_iff.mp ht
    obtain ⟨answer, hanswer⟩ : ∃ answer, answers[i]? = some answer :=
      ⟨_, List.getElem?_eq_getElem (hlength ▸ hi)⟩
    rw [List.countP_eq_length.mpr fun t' ht' => hall t' (List.mem_of_mem_take ht'), List.length_take,
      Nat.min_eq_left (Nat.le_of_lt hi), List.getElem?_map, hanswer]
    exact ⟨answer, _, rfl, rfl, hrespond answer⟩
  skipped := fun i t ht hskip => absurd (hall t (List.mem_of_getElem? ht)) hskip

/-- A message of FCM went out with an ID, or failed with an error. -/
structure Fcm.Outcome (r : Response) (resp : SendResponse) : Prop where
  success : resp.success = r.success
  code : resp.providerCode = "firebase_fcm"
  messageID : resp.providerMessageID = if r.success then r.messageID else ""
  error : resp.error = if r.success then "" else r.error

theorem Fcm.outcome_respond (r : Response) : Outcome r (respond r) := by
  unfold respond
  split
  next h => exact ⟨h.symm, rfl, (if_pos h).symm, (if_pos h).symm⟩
  next h => exact ⟨(Bool.eq_false_iff.mpr h).symm, rfl, (if_neg h).symm, (if_neg h).symm⟩

theorem fcm_attributed {client : Fcm.MulticastMessage → Except String (List Fcm.Response)}
    {responses : List Fcm.Response} (hclient : client ⟨tokens, req.subject, req.body, req.contextData⟩ = .ok responses)
    (hlength : responses.length = tokens.length) (hout : Fcm.sendMulticast client tokens req = .ok out) :
    Attributed (fun _ => true) Fcm.Outcome tokens responses out := by
  have hresponses : out = responses.map Fcm.respond := by
    rw [Fcm.sendMulticast, hclient] at hout
    split at hout
    · cases hout
    · exact (Except.ok.inj hout).symm
  rw [hresponses]
  exact attributed_of_all (fun _ _ => rfl) hlength Fcm.outcome_respond

namespace Expo

/-- A message of Expo has failed with the text of its ticket if the status says so, and went out with its ID if not. -/
structure Outcome (t : PushTicket) (resp : SendResponse) : Prop where
  success : resp.success = true ↔ t.status ≠ "error"
  code : resp.providerCode = "expo_push"
  messageID : resp.providerMessageID = if t.status = "error" then "" else t.id
  error : resp.error = if t.status = "error" then t.message else ""

theorem outcome_respond (t : PushTicket) : Outcome t (respond t) := by
  unfold respond
  split
  next h => exact ⟨by simp [h], rfl, (if_pos h).symm, (if_pos h).symm⟩
  next h => exact ⟨by simp [h], rfl, (if_neg h).symm, (if_neg h).symm⟩

theorem length_messages (req : SendRequest) (tokens : List String) :
    (messages req tokens).length = tokens.countP isExpoToken := by
  induction tokens with
  | nil => rfl
  | cons t tokens ih => cases ht : isExpoToken t <;> simp [messages, ht, ih]

theorem sendMulticast_ok {api : Api} {tickets : List PushTicket} (hout : sendMulticast api tokens req = .ok out)
    (htickets : sendBatch api (messages req tokens) = .ok tickets) : out = tickets.map respond := by
  rw [sendMulticast, htickets] at hout
  split at hout
  · cases hout
  · split at hout
    · cases hout
    · exact (Except.ok.inj hout).symm

def hello : SendRequest := ⟨"hello", "", ∅⟩

def PushTicket.json (t : PushTicket) : String :=
  "\x7b\"id\":\"" ++ t.id ++ "\",\"status\":\"" ++ t.status ++ "\",\"message\":\"" ++ t.message ++ "\"\x7d"

/-- The service answers every batch with these tickets. -/
def answering (tickets : List PushTicket) : Api where
  post _ := .response 200 ("\x7b\"data\":[" ++ ",".intercalate (tickets.map PushTicket.json) ++ "]\x7d")
  decode _ := .ok tickets

end Expo

end Gopkg.Push
