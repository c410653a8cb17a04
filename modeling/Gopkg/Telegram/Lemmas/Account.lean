import Gopkg.Digits.Numeral
import Gopkg.Telegram.Account

/-!
# The sessions that commands use

Every session that is stored was issued for the user of its key, and no handler uses another.
-/

namespace Gopkg.Telegram.Account

open Lts Client Auth

variable {log log' : Record} {partnerID partnerID' : String} {telegramID telegramID' : Int} {cmd : Command}
  {sess : Auth.Session} {token : String} {d : Recorded Shared Command Op Ans} {α β : Type}

/-! ## A longer record -/

theorem Issued.mono (hsub : log ⊆ log') (h : Issued log partnerID telegramID sess) :
    Issued log' partnerID telegramID sess := by
  obtain ⟨cmd, resp, r, now, lang, hexchange, hr, hclock, hsess⟩ := h
  exact ⟨cmd, resp, r, now, lang, hsub hexchange, hr, hsub hclock, hsess⟩

theorem Current.mono (hsub : log ⊆ log') (h : Current log cmd sess) : Current log' cmd sess := by
  cases h with
  | unexpired hclock hsess => exact .unexpired (hsub hclock) hsess
  | renewed hexchange hr hsess => exact .renewed (hsub hexchange) hr hsess

theorem Authorised.mono (hsub : log ⊆ log') (h : Authorised log cmd token) : Authorised log' cmd token := by
  obtain ⟨sess, htoken, hissued, hcurrent⟩ := h
  exact ⟨sess, htoken, hissued.mono hsub, hcurrent.mono hsub⟩

theorem Shown.mono {reply : Reply} (hsub : log ⊆ log') (h : Shown log cmd reply) : Shown log' cmd reply := by
  cases reply with
  | balance lang balance currency =>
      obtain ⟨token, hmem, hauth⟩ := h
      exact ⟨token, hsub hmem, hauth.mono hsub⟩
  | bookings lang items =>
      obtain ⟨token, bookings, hmem, hauth, hitems⟩ := h
      exact ⟨token, bookings, hsub hmem, hauth.mono hsub, hitems⟩
  | noBookings lang =>
      obtain ⟨token, hmem, hauth⟩ := h
      exact ⟨token, hsub hmem, hauth.mono hsub⟩
  | welcome partnerID lang admin agent | help partnerID lang admin agent =>
      obtain ⟨hpartner, sess, hissued, hflags⟩ := h
      exact ⟨hpartner, sess, hissued.mono hsub, hflags⟩
  | notAuthenticated _ | genericError _ | errorFromStatus _ _ | serviceUnavailable _ | callbackError _
  | langChanged _ => trivial

theorem Lawful.mono {op : Op} (hsub : log ⊆ log') (h : Lawful log cmd op) : Lawful log' cmd op := by
  cases op with
  | session partnerID telegramID op =>
      obtain ⟨hpartner, huser, hset⟩ := h
      exact ⟨hpartner, huser, fun sess ttl hop => (hset sess ttl hop).mono hsub⟩
  | getWalletBalance token currency => exact ⟨h.1.mono hsub, h.2⟩
  | getUserBookings token => exact Authorised.mono hsub h
  | registerAgent partnerID userID chatID =>
      obtain ⟨hpartner, hchat, sess, hissued, hsess⟩ := h
      exact ⟨hpartner, hchat, sess, hissued.mono hsub, hsess⟩
  | send reply => exact Shown.mono hsub h

/-! ## The store -/

/-- A key is that of one user. -/
theorem sessionKey_inj (h : sessionKey partnerID telegramID = sessionKey partnerID' telegramID') :
    partnerID = partnerID' ∧ telegramID = telegramID' := by
  obtain ⟨hpartner, hid⟩ := Digits.key_inj h
  exact ⟨String.append_right_inj _ |>.mp hpartner, hid⟩

/-- What a handler knows of an answer. -/
def Answered (log : Record) : (op : Op) → Ans op → Prop
  | .session partnerID telegramID .get, a => ∀ sess, a = .ok (some sess) → Issued log partnerID telegramID sess
  | _, _ => True

def policy : Policy Shared Command Op Ans where
  Allows := Lawful
  Inv log s := ∀ key sess expiry, s.redis key = some (sess, expiry) →
    ∃ partnerID telegramID, key = sessionKey partnerID telegramID ∧ Issued log partnerID telegramID sess
  Known := Answered

theorem set_content {rdb : Redis} {key key' : String} {ttl expiry : Int} {reply : SetReply} {sess' : Auth.Session}
    (h : (rdb.set key sess ttl reply).2 key' = some (sess', expiry)) :
    rdb key' = some (sess', expiry) ∨ key' = key ∧ sess' = sess := by
  have hupdate : Function.update rdb key (some (sess, ttl)) key' = some (sess', expiry) →
      rdb key' = some (sess', expiry) ∨ key' = key ∧ sess' = sess := by
    intro h
    by_cases hkey : key' = key
    · rw [hkey, Function.update_self] at h
      cases h
      exact .inr ⟨hkey, rfl⟩
    · rw [Function.update_of_ne hkey] at h
      exact .inl h
  cases reply with
  | ok => exact hupdate h
  | error err done =>
      cases done with
      | true => exact hupdate h
      | false => exact .inl h

/-- A session in Redis was there before, or is that of a `Set`. -/
theorem answers_content {s s' : Shared} {op : Op} {a : Ans op} {key : String} {expiry : Int}
    (h : Answers s op a s') (hfound : s'.redis key = some (sess, expiry)) : s.redis key = some (sess, expiry) ∨
      ∃ partnerID telegramID ttl, key = sessionKey partnerID telegramID ∧
        op = .session partnerID telegramID (.set sess ttl) := by
  cases op with
  | getWalletBalance _ _ | getUserBookings _ | registerAgent _ _ _ | send _ => exact .inl (h ▸ hfound)
  | session partnerID telegramID op =>
      cases op with
      | get | clock => exact .inl (h.1 ▸ hfound)
      | exchange | callback _ => exact .inl (h ▸ hfound)
      | set sess' ttl =>
          obtain rfl := h
          rcases set_content hfound with hold | ⟨hkey, rfl⟩
          · exact .inl hold
          · exact .inr ⟨partnerID, telegramID, ttl, hkey, rfl⟩

theorem policy_sound : policy.Sound bots where
  mono := Lawful.mono
  answer := by
    intro log s cmd op a s' hinv hlaw hact key sess expiry hfound
    have hsub : log ⊆ log ++ [(cmd, ⟨op, a⟩)] := List.subset_append_left _ _
    rcases answers_content hact hfound with hold | ⟨partnerID, telegramID, ttl, hkey, rfl⟩
    · obtain ⟨partnerID, telegramID, hkey, hissued⟩ := hinv key sess expiry hold
      exact ⟨partnerID, telegramID, hkey, hissued.mono hsub⟩
    · exact ⟨partnerID, telegramID, hkey, (hlaw.2.2 sess ttl rfl).mono hsub⟩
  learn := by
    intro log log' s op a s' hinv hact hsub
    cases op with
    | getWalletBalance _ _ | getUserBookings _ | registerAgent _ _ _ | send _ => trivial
    | session partnerID telegramID op =>
        cases op with
        | exchange | callback _ | clock | set _ _ => trivial
        | get =>
            intro sess ha
            obtain ⟨⟨sess', expiry⟩, hfound, rfl⟩ := Option.map_eq_some_iff.mp (hact.2 _ ha).symm
            obtain ⟨partnerID', telegramID', hkey, hissued⟩ := hinv _ _ _ hfound
            obtain ⟨rfl, rfl⟩ := sessionKey_inj hkey
            exact hissued.mono hsub
  env := by
    rintro log s s' hinv henv key sess expiry hfound
    cases henv with
    | advance d => exact hinv key sess expiry hfound
    | @expire key' _ _ _ _ =>
        by_cases hkey : key = key'
        · rw [hkey] at hfound
          exact nomatch (Function.update_self key' none s.redis).symm.trans hfound
        · exact hinv key sess expiry ((Function.update_of_ne hkey none s.redis).symm.trans hfound)

/-! ## Rules -/

/-- The program of a command keeps to the policy, and returns with `Q`. -/
abbrev Keeps (Q : Recorded Shared Command Op Ans → α → Prop) (p : Call α) (cmd : Command)
    (d : Recorded Shared Command Op Ans) : Prop :=
  policy.Obeys bots Q p cmd d

variable {Q : Recorded Shared Command Op Ans → α → Prop}

/-- A method of the session manager, for the user of the command. -/
abbrev KeepsSession (Q : Recorded Shared Command Op Ans → α → Prop) (p : SessionManager.Call α) (cmd : Command)
    (d : Recorded Shared Command Op Ans) : Prop :=
  Keeps Q (sessions cmd.partnerID cmd.senderID p) cmd d

theorem keeps_session {p : SessionManager.Call α} (op : SessionManager.Op)
    {next : SessionManager.Ans op → SessionManager.Call α} (hp : p = .call op next)
    (hset : ∀ sess ttl, op = .set sess ttl → Issued d.log cmd.partnerID cmd.senderID sess)
    (hnext : ∀ a d', d.log ⊆ d'.log → (cmd, ⟨.session cmd.partnerID cmd.senderID op, a⟩) ∈ d'.log →
      Answered d'.log (.session cmd.partnerID cmd.senderID op) a → KeepsSession Q (next a) cmd d') :
    KeepsSession Q p cmd d := by
  subst hp
  exact .call policy_sound (.session cmd.partnerID cmd.senderID op) rfl ⟨rfl, rfl, hset⟩
    fun a d' hsub _ hmem hknown => hnext a d' hsub hmem hknown

theorem sessions_bind (p : SessionManager.Call α) (f : α → SessionManager.Call β) :
    sessions partnerID telegramID (p.bind f) =
      (sessions partnerID telegramID p).bind fun a => sessions partnerID telegramID (f a) := by
  induction p with
  | ret a => rfl
  | call op next ih => exact congrArg (Program.call _) (funext ih)

theorem keeps_then {R : Recorded Shared Command Op Ans → β → Prop} {p : SessionManager.Call α}
    {f : α → SessionManager.Call β} (h : KeepsSession Q p cmd d) (hf : ∀ a d', Q d' a → KeepsSession R (f a) cmd d') :
    KeepsSession R (p.bind f) cmd d := by
  rw [KeepsSession, sessions_bind]
  exact h.bind hf

theorem keeps_send {reply : Reply} (h : Shown d.log cmd reply) : Keeps (fun _ _ => True) (send reply) cmd d :=
  .call policy_sound (.send reply) rfl h fun _ _ _ _ _ _ => .ret trivial

/-! ## The session manager -/

theorem keeps_getSession : KeepsSession
    (fun d r => ∀ sess, r = .ok (some sess) → Issued d.log cmd.partnerID cmd.senderID sess)
    SessionManager.getSession cmd d := by
  refine keeps_session .get rfl (by simp) fun a d' _ _ hknown => ?_
  cases a with
  | error err => exact .ret (by simp)
  | ok found => exact .ret hknown

theorem keeps_saveSession (h : Issued d.log cmd.partnerID cmd.senderID sess) :
    KeepsSession (fun d' _ => d.log ⊆ d'.log) (SessionManager.saveSession sess) cmd d := by
  refine keeps_session .clock rfl (by simp) fun now d₁ hsub₁ _ _ => ?_
  refine keeps_session (.set sess _) rfl ?_ fun reply d₂ hsub₂ _ _ => ?_
  · rintro _ _ ⟨⟩
    exact h.mono hsub₁
  · cases reply <;> exact .ret (List.Subset.trans hsub₁ hsub₂)

/-- The session was issued for the user, and the command has got it itself. -/
structure Own (log : Record) (cmd : Command) (sess : Auth.Session) : Prop where
  issued : Issued log cmd.partnerID cmd.senderID sess
  current : Current log cmd sess

theorem Own.mono (hsub : log ⊆ log') (h : Own log cmd sess) : Own log' cmd sess :=
  ⟨h.issued.mono hsub, h.current.mono hsub⟩

theorem Own.authorised (h : Own log cmd sess) : Authorised log cmd sess.token := ⟨sess, rfl, h.issued, h.current⟩

theorem keeps_authenticate :
    KeepsSession (fun d r => ∀ sess, r = .ok sess → Own d.log cmd sess) SessionManager.authenticate cmd d := by
  refine keeps_session .exchange rfl (by simp) fun resp d₁ _ hexchange _ => ?_
  rw [Program.ret_bind]
  cases hr : exchangeTelegramToken resp with
  | error err => exact .ret (by simp)
  | ok r =>
      refine keeps_session .clock rfl (by simp) fun now d₂ hsub hclock _ => ?_
      have hown : Own d₂.log cmd (newSession r now) :=
        ⟨⟨cmd, resp, r, now, "ar", hsub hexchange, hr, hclock, rfl⟩, .renewed (hsub hexchange) hr rfl⟩
      rw [Program.ret_bind]
      refine keeps_then (keeps_saveSession hown.issued) fun err d₃ hsub₃ => ?_
      cases err with
      | some err => exact .ret (by simp)
      | none =>
          refine .ret fun sess hsess => ?_
          cases hsess
          exact hown.mono hsub₃

theorem keeps_getValidToken : KeepsSession
    (fun d r => ∀ token sess, r = .ok (token, some sess) → sess.token = token ∧ Own d.log cmd sess)
    SessionManager.getValidToken cmd d := by
  refine keeps_then keeps_getSession fun found d₁ hfound => ?_
  match found with
  | .error err => exact .ret (by simp)
  | .ok none => exact .ret (by simp)
  | .ok (some sess) =>
      refine keeps_session .clock rfl (by simp) fun now d₂ hsub hclock _ => ?_
      rw [Program.ret_bind]
      split
      · refine keeps_then keeps_authenticate fun renewed d₃ hrenewed => ?_
        cases renewed with
        | error err => exact .ret (by simp)
        | ok newSess =>
            refine .ret fun token sess hsess => ?_
            cases hsess
            exact ⟨rfl, hrenewed newSess rfl⟩
      · rename_i hvalid
        refine .ret fun token sess' hsess => ?_
        cases hsess
        exact ⟨rfl, (hfound sess rfl).mono hsub, .unexpired hclock (Bool.not_eq_true _ ▸ hvalid)⟩

theorem keeps_setLang {lang : String} : KeepsSession (fun _ _ => True) (SessionManager.setLang lang) cmd d := by
  refine keeps_then keeps_getSession fun found d₁ hfound => ?_
  match found with
  | .error err => exact .ret trivial
  | .ok none => exact .ret trivial
  | .ok (some sess) =>
      obtain ⟨cmd', resp, r, now, lang', hexchange, hr, hclock, hsess⟩ := hfound sess rfl
      have hissued : Issued d₁.log cmd.partnerID cmd.senderID { sess with lang := lang } :=
        ⟨cmd', resp, r, now, lang, hexchange, hr, hclock, by rw [hsess]⟩
      exact (keeps_saveSession hissued).imp fun _ _ _ => trivial

/-! ## Handlers -/

/-- A request to the gateway with a token of the user's own. -/
def Fetches (fetch : String → Call (Except GatewayErr α)) (cmd : Command) (Q : Record → α → Prop) : Prop :=
  ∀ {token : String} {d : Recorded Shared Command Op Ans}, Authorised d.log cmd token →
    Keeps (fun d' r => d.log ⊆ d'.log ∧ ∀ resp, r = .ok resp → Q d'.log resp) (fetch token) cmd d

theorem keeps_handleUnauthorized {fetch : String → Call (Except GatewayErr α)} {Q : Record → α → Prop}
    (hfetch : Fetches fetch cmd Q) : Keeps (fun d r => ∀ resp, r = some resp → Q d.log resp)
      (handleUnauthorized cmd.partnerID cmd.senderID fetch) cmd d := by
  refine Policy.Obeys.bind keeps_authenticate fun renewed d₁ hrenewed => ?_
  cases renewed with
  | error err => exact .ret (by simp)
  | ok sess =>
      refine Policy.Obeys.bind (hfetch (hrenewed sess rfl).authorised) fun r d₂ hr => .ret fun resp hresp => ?_
      cases r with
      | error err => cases hresp
      | ok resp' => exact hr.2 resp (congrArg Except.ok (Option.some.inj hresp))

theorem keeps_handleFetch {fetch : String → Call (Except GatewayErr α)} {Q : Record → α → Prop}
    {reply : String → α → Reply} (hfetch : Fetches fetch cmd Q)
    (hreply : ∀ {log lang resp}, Q log resp → Shown log cmd (reply lang resp)) :
    Keeps (fun _ _ => True) (handleFetch cmd.partnerID cmd.senderID fetch reply) cmd d := by
  refine Policy.Obeys.bind keeps_getValidToken fun found d₁ hfound => ?_
  match found with
  | .error err => exact keeps_send trivial
  | .ok (_, none) => exact keeps_send trivial
  | .ok (token, some sess) =>
      obtain ⟨rfl, hown⟩ := hfound token sess rfl
      refine Policy.Obeys.bind (hfetch hown.authorised) fun r d₂ hr => ?_
      match r with
      | .ok resp => exact keeps_send (hreply (hr.2 resp rfl))
      | .error .other => exact keeps_send trivial
      | .error (.status code) =>
          by_cases hcode : code = 401
          · simp only [hcode, ↓reduceIte]
            refine Policy.Obeys.bind (keeps_handleUnauthorized hfetch) fun retried d₃ hretried => ?_
            cases retried with
            | none => exact keeps_send trivial
            | some resp => exact keeps_send (hreply (hretried resp rfl))
          · simp only [hcode, ↓reduceIte]
            exact keeps_send trivial

theorem keeps_handleBalance : Keeps (fun _ _ => True) (handleBalance cmd.partnerID cmd.senderID) cmd d := by
  let Q : Record → BalanceResponse → Prop := fun log resp =>
    ∃ token, (cmd, ⟨.getWalletBalance token "IQD", .ok resp⟩) ∈ log ∧ Authorised log cmd token
  have hfetch : Fetches (getWalletBalance · "IQD") cmd Q := by
    intro token d hauth
    refine .call policy_sound (.getWalletBalance token "IQD") rfl ⟨hauth, rfl⟩ fun a d' hsub _ hmem _ => ?_
    refine .ret ⟨hsub, fun resp hresp => ⟨token, ?_, hauth.mono hsub⟩⟩
    subst hresp
    exact hmem
  exact keeps_handleFetch hfetch fun hQ => hQ

theorem bookingItems_eq (i : Nat) (bs : List BookingSummary) (hi : i ≤ 9) : bookingItems i bs = bs.take (10 - i) := by
  induction bs generalizing i with
  | nil => simp [bookingItems]
  | cons b bs ih =>
      rw [bookingItems, show 10 - i = (9 - i) + 1 by omega, List.take_succ_cons]
      split
      · rw [show 9 - i = 0 by omega, List.take_zero]
      · rw [ih (i + 1) (by omega), show 10 - (i + 1) = 9 - i by omega]

theorem keeps_handleMyBookings : Keeps (fun _ _ => True) (handleMyBookings cmd.partnerID cmd.senderID) cmd d := by
  let Q : Record → BookingsResponse → Prop := fun log resp =>
    ∃ token, (cmd, ⟨.getUserBookings token, .ok resp⟩) ∈ log ∧ Authorised log cmd token
  have hfetch : Fetches getUserBookings cmd Q := by
    intro token d hauth
    refine .call policy_sound (.getUserBookings token) rfl hauth fun a d' hsub _ hmem _ => ?_
    refine .ret ⟨hsub, fun resp hresp => ⟨token, ?_, hauth.mono hsub⟩⟩
    subst hresp
    exact hmem
  refine keeps_handleFetch hfetch fun {log lang resp} hQ => ?_
  obtain ⟨token, hmem, hauth⟩ := hQ
  obtain ⟨bookings⟩ := resp
  unfold bookingsReply
  split
  · rename_i hnone
    obtain rfl := List.length_eq_zero_iff.mp hnone
    exact ⟨token, hmem, hauth⟩
  · exact ⟨token, bookings, hmem, hauth, bookingItems_eq 0 bookings (Nat.zero_le 9)⟩

theorem keeps_handleStart : Keeps (fun _ _ => True) (handleStart cmd.partnerID cmd.senderID) cmd d := by
  refine Policy.Obeys.bind keeps_authenticate fun found d₁ hfound => ?_
  cases found with
  | error err => exact keeps_send trivial
  | ok sess =>
      have hissued := (hfound sess rfl).issued
      have hwelcome : ∀ {d' : Recorded Shared Command Op Ans}, d₁.log ⊆ d'.log → Keeps (fun _ _ => True)
          (send (.welcome cmd.partnerID sess.lang (isAdmin sess) (isSupportAgent sess))) cmd d' :=
        fun hsub => keeps_send ⟨rfl, sess, hissued.mono hsub, rfl, rfl, rfl⟩
      dsimp only
      by_cases hagent : isSupportAgent sess = true
      · rw [if_pos hagent]
        refine .call policy_sound (.registerAgent cmd.partnerID sess.userID cmd.senderID) rfl
          ⟨rfl, rfl, sess, hissued, hagent, rfl⟩ fun _ d₂ hsub _ _ _ => hwelcome hsub
      · rw [if_neg hagent]
        exact hwelcome (List.Subset.refl _)

theorem keeps_handleHelp : Keeps (fun _ _ => True) (handleHelp cmd.partnerID cmd.senderID) cmd d := by
  refine Policy.Obeys.bind keeps_getSession fun found d₁ hfound => ?_
  match found with
  | .error err => exact keeps_send trivial
  | .ok none => exact keeps_send trivial
  | .ok (some sess) => exact keeps_send ⟨rfl, sess, hfound sess rfl, rfl, rfl, rfl⟩

theorem keeps_handleLangCallback {lang : String} :
    Keeps (fun _ _ => True) (handleLangCallback cmd.partnerID cmd.senderID lang) cmd d := by
  refine Policy.Obeys.bind keeps_setLang fun err d₁ _ => ?_
  cases err <;> exact keeps_send trivial

theorem keeps_program : Keeps (fun _ _ => True) cmd.program cmd d := by
  unfold Command.program
  split
  · exact keeps_handleStart
  · exact keeps_handleHelp
  · exact keeps_handleLangCallback
  · exact keeps_handleBalance
  · exact keeps_handleMyBookings

end Gopkg.Telegram.Account
