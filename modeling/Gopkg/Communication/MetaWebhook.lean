import Gopkg.Digits.Hex
import Gopkg.Telegram.Text

/-!
# Webhooks of the WhatsApp Cloud API

`signature.go` and `webhook.go` of `communication/whatsapp/meta`. The MAC is any function of the secret and the body
that has 32 bytes, and the JSON of a value is read by the library. `Raw` is the type of raw JSON.
-/

namespace Gopkg.Communication.Meta

open Digits Telegram

variable {Raw : Type}

/-! ## Signatures -/

/-- `hmac.New(sha256.New, key)` -/
structure Mac where
  sum : String → List UInt8 → List UInt8
  length : ∀ key body, (sum key body).length = 32

def verifySignature (M : Mac) (rawBody : List UInt8) (xHubSignature256Header appSecret : String) : Bool :=
  if appSecret = "" ∨ xHubSignature256Header = "" then false
  else
    let sig := trimPrefix xHubSignature256Header "sha256="
    match Hex.decode sig.toList with
    | none => false
    | some expected => expected == M.sum appSecret rawBody

/-! ## Events -/

/-- The fields of a message that are read. -/
structure MessageFields where
  id : String
  sender : String
  timestamp : String
  type : String
  textBody : String
  deriving DecidableEq, Repr

structure InboundMessage (Raw : Type) where
  id : String
  sender : String
  timestamp : String
  type : String
  text : String
  phoneNumber : String
  raw : Raw
  deriving DecidableEq, Repr

structure CallSession where
  sdpType : String
  sdp : String
  deriving DecidableEq, Repr

/-- The fields of a call event that are read. -/
structure CallFields where
  id : String
  sender : String
  recipient : String
  event : String
  direction : String
  status : String
  timestamp : String
  session : Option CallSession
  deriving DecidableEq, Repr

structure CallEvent (Raw : Type) extends CallFields where
  raw : Raw
  deriving DecidableEq, Repr

structure WebhookEvent (Raw : Type) where
  object : String
  messages : List (InboundMessage Raw)
  calls : List (CallEvent Raw)
  statuses : List Raw
  deriving DecidableEq, Repr

/-- The `value` of a change. -/
structure Value (Raw : Type) where
  phoneNumberID : String
  messages : List Raw
  calls : List Raw
  statuses : List Raw
  deriving DecidableEq, Repr

/-- An entry is the list of its changes. -/
structure RawWebhook (Raw : Type) where
  object : String
  entry : List (List (Value Raw))
  deriving DecidableEq, Repr

/-- `json.Unmarshal` into the three types. -/
structure Json (Raw : Type) where
  webhook : List UInt8 → Except String (RawWebhook Raw)
  message : Raw → Except String MessageFields
  call : Raw → Except String CallFields

def inboundMessage (pnID : String) (rawMsg : Raw) (m : MessageFields) : InboundMessage Raw where
  id := m.id
  sender := m.sender
  timestamp := m.timestamp
  type := m.type
  text := m.textBody
  phoneNumber := pnID
  raw := rawMsg

/-- The loop over the messages of a change. -/
def readMessages (J : Json Raw) (pnID : String) : List Raw → WebhookEvent Raw → Except String (WebhookEvent Raw)
  | [], ev => .ok ev
  | rawMsg :: rest, ev =>
      match J.message rawMsg with
      | .error err => .error ("meta: parse message: " ++ err)
      | .ok m => readMessages J pnID rest { ev with messages := ev.messages ++ [inboundMessage pnID rawMsg m] }

/-- The loop over the calls of a change. -/
def readCalls (J : Json Raw) : List Raw → WebhookEvent Raw → Except String (WebhookEvent Raw)
  | [], ev => .ok ev
  | c :: rest, ev =>
      match J.call c with
      | .error err => .error ("meta: parse call event: " ++ err)
      | .ok ce => readCalls J rest { ev with calls := ev.calls ++ [{ ce with raw := c }] }

def readChanges (J : Json Raw) : List (Value Raw) → WebhookEvent Raw → Except String (WebhookEvent Raw)
  | [], ev => .ok ev
  | v :: rest, ev => do
      let ev ← readMessages J v.phoneNumberID v.messages ev
      let ev ← readCalls J v.calls ev
      readChanges J rest { ev with statuses := ev.statuses ++ v.statuses }

def readEntries (J : Json Raw) : List (List (Value Raw)) → WebhookEvent Raw → Except String (WebhookEvent Raw)
  | [], ev => .ok ev
  | changes :: rest, ev => do
      let ev ← readChanges J changes ev
      readEntries J rest ev

/-- The text of the error of the body. -/
def readBody (J : Json Raw) (raw : List UInt8) : Except String (RawWebhook Raw) :=
  match J.webhook raw with
  | .error err => .error ("meta: parse webhook: " ++ err)
  | .ok rw => .ok rw

def parseWebhook (J : Json Raw) (raw : List UInt8) : Except String (WebhookEvent Raw) := do
  let rw ← readBody J raw
  readEntries J rw.entry { object := rw.object, messages := [], calls := [], statuses := [] }

/-! ## One item after another -/

/-- What a webhook has to be read item by item, in the order of the document. -/
inductive Item (Raw : Type) where
  | message (pnID : String) (raw : Raw)
  | call (raw : Raw)

def Value.items (v : Value Raw) : List (Item Raw) := v.messages.map (.message v.phoneNumberID) ++ v.calls.map .call

inductive Found (Raw : Type) where
  | message (m : InboundMessage Raw)
  | call (ce : CallEvent Raw)

/-- A message has its own fields, the phone number of its change and its own JSON. A call has its own fields and
JSON. -/
def Item.read (J : Json Raw) : Item Raw → Except String (Found Raw)
  | .message pnID raw =>
      match J.message raw with
      | .error err => .error ("meta: parse message: " ++ err)
      | .ok m => .ok (.message
          { id := m.id, sender := m.sender, timestamp := m.timestamp, type := m.type, text := m.textBody
            phoneNumber := pnID, raw := raw })
  | .call raw =>
      match J.call raw with
      | .error err => .error ("meta: parse call event: " ++ err)
      | .ok ce => .ok (.call
          { id := ce.id, sender := ce.sender, recipient := ce.recipient, event := ce.event, direction := ce.direction
            status := ce.status, timestamp := ce.timestamp, session := ce.session, raw := raw })

def Found.message? : Found Raw → Option (InboundMessage Raw)
  | .message m => some m
  | .call _ => none

def Found.call? : Found Raw → Option (CallEvent Raw)
  | .message _ => none
  | .call ce => some ce

def RawWebhook.items (rw : RawWebhook Raw) : List (Item Raw) := rw.entry.flatten.flatMap Value.items

/-- The event with what was found. -/
def WebhookEvent.add (ev : WebhookEvent Raw) (found : List (Found Raw)) (statuses : List Raw) : WebhookEvent Raw where
  object := ev.object
  messages := ev.messages ++ found.filterMap Found.message?
  calls := ev.calls ++ found.filterMap Found.call?
  statuses := ev.statuses ++ statuses

variable {J : Json Raw} {ev : WebhookEvent Raw}

@[simp]
theorem WebhookEvent.add_nil : ev.add [] [] = ev := by
  simp [WebhookEvent.add]

theorem WebhookEvent.add_add (found found' : List (Found Raw)) (statuses statuses' : List Raw) :
    (ev.add found statuses).add found' statuses' = ev.add (found ++ found') (statuses ++ statuses') := by
  simp [WebhookEvent.add]

theorem WebhookEvent.add_message (m : InboundMessage Raw) :
    ev.add [.message m] [] = { ev with messages := ev.messages ++ [m] } := by
  simp [WebhookEvent.add, List.filterMap_cons, Found.message?, Found.call?]

theorem WebhookEvent.add_call (ce : CallEvent Raw) :
    ev.add [.call ce] [] = { ev with calls := ev.calls ++ [ce] } := by
  simp [WebhookEvent.add, List.filterMap_cons, Found.message?, Found.call?]

theorem WebhookEvent.add_statuses (statuses : List Raw) :
    ev.add [] statuses = { ev with statuses := ev.statuses ++ statuses } := by
  simp [WebhookEvent.add]

/-- A loop that stops at the first error has read its list up to there. -/
theorem loop_eq {σ α β : Type} (loop : List α → σ → Except String σ) (read : α → Except String β)
    (put : σ → List β → σ) (hnil : ∀ s, loop [] s = .ok s) (hput : ∀ s, put s [] = s)
    (hcons : ∀ a l s, loop (a :: l) s = read a >>= fun b => loop l (put s [b]))
    (hputs : ∀ s b bs, put (put s [b]) bs = put s (b :: bs)) (l : List α) (s : σ) :
    loop l s = l.mapM read >>= fun bs => .ok (put s bs) := by
  induction l generalizing s with
  | nil =>
      rw [hnil, List.mapM_nil, pure_bind, hput]
  | cons a l ih =>
      rw [hcons, List.mapM_cons, bind_assoc]
      refine bind_congr fun b => ?_
      rw [ih, bind_assoc]
      refine bind_congr fun bs => ?_
      rw [hputs]
      rfl

theorem readMessages_eq (pnID : String) (raws : List Raw) (ev : WebhookEvent Raw) : readMessages J pnID raws ev =
    (raws.map (Item.message pnID)).mapM (Item.read J) >>= fun found => .ok (ev.add found []) := by
  rw [List.mapM_map]
  refine loop_eq (readMessages J pnID) _ (fun ev found => ev.add found []) (fun _ => rfl) (fun _ => by simp) ?_ ?_ raws
    ev
  · intro raw rest ev
    rw [readMessages, Function.comp_apply, Item.read]
    cases J.message raw with
    | error err => rfl
    | ok m => exact congrArg (readMessages J pnID rest) (WebhookEvent.add_message _).symm
  · intro ev b found
    rw [WebhookEvent.add_add]
    rfl

theorem readCalls_eq (raws : List Raw) (ev : WebhookEvent Raw) : readCalls J raws ev =
    (raws.map Item.call).mapM (Item.read J) >>= fun found => .ok (ev.add found []) := by
  rw [List.mapM_map]
  refine loop_eq (readCalls J) _ (fun ev found => ev.add found []) (fun _ => rfl) (fun _ => by simp) ?_ ?_ raws ev
  · intro raw rest ev
    rw [readCalls, Function.comp_apply, Item.read]
    cases J.call raw with
    | error err => rfl
    | ok ce => exact congrArg (readCalls J rest) (WebhookEvent.add_call _).symm
  · intro ev b found
    rw [WebhookEvent.add_add]
    rfl

theorem readChanges_eq (vs : List (Value Raw)) (ev : WebhookEvent Raw) : readChanges J vs ev =
    (vs.flatMap Value.items).mapM (Item.read J) >>= fun found => .ok (ev.add found (vs.flatMap Value.statuses)) := by
  induction vs generalizing ev with
  | nil => simp [readChanges, bind, Except.bind, pure, Except.pure]
  | cons v vs ih =>
      rw [readChanges, List.flatMap_cons, List.mapM_append, Value.items, List.mapM_append, readMessages_eq]
      simp only [bind_assoc, pure_bind]
      refine bind_congr fun messages => ?_
      change (readCalls J v.calls (ev.add messages []) >>= _) = _
      rw [readCalls_eq, bind_assoc]
      refine bind_congr fun calls => ?_
      change readChanges J vs { (ev.add messages []).add calls [] with statuses := _ } = _
      rw [← WebhookEvent.add_statuses, ih]
      refine bind_congr fun found => ?_
      simp only [WebhookEvent.add_add, List.append_nil, List.nil_append, List.flatMap_cons]

theorem readEntries_eq (entries : List (List (Value Raw))) (ev : WebhookEvent Raw) : readEntries J entries ev =
    (entries.flatten.flatMap Value.items).mapM (Item.read J) >>= fun found =>
      .ok (ev.add found (entries.flatten.flatMap Value.statuses)) := by
  induction entries generalizing ev with
  | nil => simp [readEntries, bind, Except.bind, pure, Except.pure]
  | cons changes rest ih =>
      rw [readEntries, readChanges_eq, List.flatten_cons, List.flatMap_append, List.mapM_append]
      simp only [bind_assoc, pure_bind]
      refine bind_congr fun found => ?_
      change readEntries J rest (ev.add found (changes.flatMap Value.statuses)) = _
      rw [ih]
      refine bind_congr fun found' => ?_
      rw [WebhookEvent.add_add, List.flatMap_append]

/-! ## Main theorems -/

/-- The nested loops read one item after another, in the order of the document: the messages of a change before its
calls. The first item that cannot be read is reported and nothing is returned; otherwise each message, with the phone
number of its change, each call and each status is returned once, in order. -/
theorem webhook_flattened (J : Json Raw) (raw : List UInt8) : parseWebhook J raw = (do
    let rw ← readBody J raw
    let found ← rw.items.mapM (Item.read J)
    return { object := rw.object, messages := found.filterMap Found.message?, calls := found.filterMap Found.call?
             statuses := rw.entry.flatten.flatMap Value.statuses }) := by
  rw [parseWebhook]
  refine bind_congr fun rw => ?_
  rw [readEntries_eq]
  refine bind_congr fun found => ?_
  simp only [WebhookEvent.add, List.nil_append]
  rfl

/-- The JSON of an object that has an ID only. -/
def idText (id : String) : String := "\x7b\"id\":\"" ++ id ++ "\"\x7d"

def changeText (pnID lists : String) : String :=
  "\x7b\"value\":\x7b\"metadata\":\x7b\"phone_number_id\":\"" ++ pnID ++ "\"\x7d," ++ lists ++ "\x7d\x7d"

/-- Two changes: a message for one number, and a message and a call for another one. -/
def changesBody : List UInt8 :=
  ("\x7b\"object\":\"whatsapp_business_account\",\"entry\":[\x7b\"changes\":[" ++
    changeText "10" ("\"messages\":[" ++ idText "1" ++ "]") ++ "," ++
    changeText "20" ("\"messages\":[" ++ idText "2" ++ "],\"calls\":[" ++ idText "3" ++ "]") ++
    "]\x7d]\x7d").toUTF8.toList

/-- What is read from these texts; others are not taken. -/
def changesJson : Json String where
  webhook raw :=
    if raw = changesBody then
      .ok ⟨"whatsapp_business_account", [[⟨"10", [idText "1"], [], []⟩, ⟨"20", [idText "2"], [idText "3"], []⟩]]⟩
    else .error ""
  message raw :=
    if raw = idText "1" then .ok ⟨"1", "", "", "", ""⟩
    else if raw = idText "2" then .ok ⟨"2", "", "", "", ""⟩
    else .error ""
  call raw := if raw = idText "3" then .ok ⟨"3", "", "", "", "", "", "", none⟩ else .error ""

theorem webhook_flattened_changes : parseWebhook changesJson changesBody =
    .ok
      { object := "whatsapp_business_account"
        messages := [⟨"1", "", "", "", "", "10", idText "1"⟩, ⟨"2", "", "", "", "", "20", idText "2"⟩]
        calls := [⟨⟨"3", "", "", "", "", "", "", none⟩, idText "3"⟩]
        statuses := [] } := by
  have hbody : readBody changesJson changesBody =
      .ok ⟨"whatsapp_business_account", [[⟨"10", [idText "1"], [], []⟩, ⟨"20", [idText "2"], [idText "3"], []⟩]]⟩ := by
    simp only [readBody, changesJson, if_true]
  rw [webhook_flattened, hbody]
  decide

theorem hex_not_labelled {rest : List Char} {data : List UInt8} :
    ("sha256=".toList ++ rest).map Char.toLower ≠ Hex.encode data := by
  have hdigit : ∀ n : Fin 16, Hex.digit n ≠ 's' := by decide
  intro h
  cases data with
  | nil => simp [Hex.encode] at h
  | cons b data =>
      have hb := b.toNat_lt
      rw [Hex.encode_cons] at h
      exact hdigit ⟨b.toNat / 16, by omega⟩ (List.cons.inj h).1.symm

theorem trimPrefix_append (header label : String) (digits : List Char) (h : header.toList = label.toList ++ digits) :
    (trimPrefix header label).toList = digits := by
  have hlabel : hasPrefix header label = true := by
    rw [hasPrefix, h, List.isPrefixOf_iff_prefix]
    exact List.prefix_append _ _
  rw [trimPrefix, if_pos hlabel, String.toList_ofList, h, List.drop_left]

theorem trimPrefix_cases (header label : String) :
    header.toList = label.toList ++ (trimPrefix header label).toList ∨ trimPrefix header label = header := by
  cases hlabel : hasPrefix header label with
  | true =>
      rw [hasPrefix, List.isPrefixOf_iff_prefix] at hlabel
      obtain ⟨digits, hdigits⟩ := hlabel
      rw [trimPrefix_append header label digits hdigits.symm]
      exact .inl hdigits.symm
  | false => exact .inr (by simp [trimPrefix, hlabel])

theorem verifySignature_eq_true {M : Mac} {body : List UInt8} {header secret : String} :
    verifySignature M body header secret = true ↔ secret ≠ "" ∧ header ≠ "" ∧
      Hex.decode (trimPrefix header "sha256=").toList = some (M.sum secret body) := by
  rw [verifySignature]
  split_ifs with hempty
  · refine iff_of_false (by simp) ?_
    rintro ⟨hsecret, hheader, -⟩
    exact hempty.elim hsecret hheader
  · rw [not_or] at hempty
    dsimp only
    cases Hex.decode (trimPrefix header "sha256=").toList with
    | none => simp
    | some expected => simp [hempty.1, hempty.2]

/-- A signature is accepted if and only if there is a secret and the header has the MAC of the body in hexadecimal
digits of either case, with or without the label. It is accepted then for just the bodies that have this MAC. -/
theorem signature_accepted_iff (M : Mac) (body : List UInt8) (header secret : String) :
    (verifySignature M body header secret = true ↔ secret ≠ "" ∧ ∃ digits : List Char,
      (header.toList = "sha256=".toList ++ digits ∨ header.toList = digits) ∧
        digits.map Char.toLower = Hex.encode (M.sum secret body)) ∧
    (verifySignature M body header secret = true → ∀ body', verifySignature M body' header secret = true ↔
      M.sum secret body' = M.sum secret body) := by
  constructor
  · rw [verifySignature_eq_true]
    constructor
    · rintro ⟨hsecret, -, hdecode⟩
      refine ⟨hsecret, (trimPrefix header "sha256=").toList, ?_, Hex.decode_eq_some_iff.mp hdecode⟩
      rcases trimPrefix_cases header "sha256=" with hlabel | hsame
      · exact .inl hlabel
      · exact .inr (by rw [hsame])
    · rintro ⟨hsecret, digits, hheader, hdigits⟩
      have hne : header ≠ "" := by
        rintro rfl
        have hempty : digits = [] := by
          rcases hheader with h | h
          · simp at h
          · exact h.symm
        have hlength := M.length secret body
        cases hsum : M.sum secret body with
        | nil => rw [hsum] at hlength; exact absurd hlength (by decide)
        | cons b data => rw [hempty, hsum, Hex.encode_cons] at hdigits; simp at hdigits
      refine ⟨hsecret, hne, Hex.decode_eq_some_iff.mpr ?_⟩
      rcases hheader with hlabel | hplain
      · rw [trimPrefix_append _ _ _ hlabel]
        exact hdigits
      · rcases trimPrefix_cases header "sha256=" with hlabel | hsame
        · rw [← hplain, hlabel] at hdigits
          exact absurd hdigits hex_not_labelled
        · rw [hsame, hplain]
          exact hdigits
  · intro haccepted body'
    obtain ⟨hsecret, hheader, hdecode⟩ := verifySignature_eq_true.mp haccepted
    rw [verifySignature_eq_true, hdecode, Option.some.injEq]
    exact ⟨fun h => h.2.2.symm, fun h => ⟨hsecret, hheader, h.symm⟩⟩

/-- It is right for the bytes one and two and the key `secret`. -/
def knownSum : Mac where
  sum _ _ :=
    [0x66, 0xbb, 0xb2, 0x3d, 0x26, 0x3c, 0x4d, 0xff, 0x4c, 0x34, 0x4b, 0x3e, 0x9a, 0x81, 0x91, 0x75,
      0x67, 0x69, 0x75, 0xab, 0x25, 0x15, 0x9f, 0x93, 0x57, 0x1e, 0x05, 0x87, 0x25, 0xa4, 0x54, 0x59]
  length _ _ := rfl

theorem signature_accepted_known : verifySignature knownSum [1, 2]
    "sha256=66bbb23d263c4dff4c344b3e9a819175676975AB25159F93571E058725A45459" "secret" = true := by
  refine (signature_accepted_iff knownSum [1, 2] _ "secret").1.mpr ⟨by decide,
    "66bbb23d263c4dff4c344b3e9a819175676975AB25159F93571E058725A45459".toList, .inl ?_, ?_⟩
  · decide
  · decide

end Gopkg.Communication.Meta
