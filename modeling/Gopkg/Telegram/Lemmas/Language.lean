import Gopkg.Telegram.SessionManager

/-!
# The chosen language

What the calls of the session manager may rely on: a stored session has the language that was chosen, and that changes
only with a choice.
-/

namespace Gopkg.Telegram.Auth.SessionManager

open Lts Client

variable {s s' : Shared} {task : Task} {sess : Session} {α β : Type} {Q : Shared → α → Prop}

def contract : Contract Shared Task where
  I s := ∀ sess expiry, s.store = some (sess, expiry) → ∀ lang, s.chosen = some lang → sess.lang = lang
  R s s' := s.choices ≤ s'.choices ∧ (s'.choices = s.choices → s'.chosen = s.chosen)
  G _ s s' := s.choices ≤ s'.choices ∧ (s'.choices = s.choices → s'.chosen = s.chosen)

theorem contract_closed : contract.Closed where
  refl _ := ⟨Nat.le_refl _, fun _ => rfl⟩
  trans h h' := ⟨Nat.le_trans h.1 h'.1, fun heq =>
    (h'.2 (Nat.le_antisymm (heq ▸ h.1) h'.1)).trans (h.2 (Nat.le_antisymm (heq ▸ h'.1) h.1))⟩
  guaranteed h := h

/-- The program of a call keeps to the contract, and the label of the call stays. -/
def SafeCall (Q : Shared → α → Prop) (p : Call α) (task : Task) (s : Shared) : Prop :=
  Safe (system.restrict Unchosen).Act contract (fun l s a => l = task ∧ Q s a) p task s

theorem SafeCall.ret {a : α} (h : Q s a) : SafeCall Q (.ret a) task s := ⟨rfl, h⟩

theorem SafeCall.bind {P : Shared → β → Prop} {p : Call β} {f : β → Call α} (h : SafeCall P p task s)
    (hf : ∀ s b, P s b → SafeCall Q (f b) task s) : SafeCall Q (p.bind f) task s := by
  refine Safe.bind (h.mono fun l s b hb => ?_)
  obtain ⟨rfl, hb⟩ := hb
  exact hf s b hb

/-- The session has the language that is chosen, unless a choice was made since the call started. -/
def Agrees (task : Task) (s : Shared) (sess : Session) : Prop :=
  task.startedAt ≤ s.choices ∧ (s.choices = task.startedAt → ∀ lang, s.chosen = some lang → sess.lang = lang)

theorem Agrees.stable (h : Agrees task s sess) (hR : contract.R s s') : Agrees task s' sess := by
  refine ⟨Nat.le_trans h.1 hR.1, fun heq lang hlang => ?_⟩
  have hsame : s.choices = task.startedAt := Nat.le_antisymm (heq ▸ hR.1) h.1
  exact h.2 hsame lang ((hR.2 (heq.trans hsame.symm)).symm.trans hlang)

/-! ## Operations -/

theorem act_get (s : Shared) (task : Task) : system.Act s task .get (.ok (s.store.map Prod.fst)) s task :=
  ⟨⟨rfl, fun _ h => (Except.ok.inj h).symm⟩, rfl⟩

theorem act_clock (s : Shared) (task : Task) : system.Act s task .clock s.now s task := ⟨⟨rfl, rfl⟩, rfl⟩

/-- The operations that change nothing. -/
def Op.quiet : Op → Bool
  | .set _ _ => false
  | .get | .exchange | .clock | .callback _ => true

theorem act_quiet {op : Op} {a : Ans op} (hop : op.quiet = true) (h : Act s task op a s') : s' = s := by
  cases op with
  | set sess ttl => cases hop
  | get | clock => exact h.1
  | exchange | callback token => exact h

theorem safe_quiet {op : Op} {next : Ans op → Call α} (hop : op.quiet = true)
    (h : ∀ s₁ a, contract.R s s₁ → contract.I s₁ → Act s₁ task op a s₁ → SafeCall Q (next a) task s₁) :
    SafeCall Q (.call op next) task s := by
  rintro s₁ hR hI a s₂ task ⟨⟨hact, rfl⟩, _⟩
  obtain rfl := act_quiet hop hact
  exact ⟨hI, contract_closed.refl _, h _ a hR hI hact⟩

theorem write_choices (s : Shared) (sess : Session) (ttl : Int) (reply : SetReply) :
    (s.write sess ttl reply).choices = s.choices ∧ (s.write sess ttl reply).chosen = s.chosen := by
  cases reply with
  | ok => exact ⟨rfl, rfl⟩
  | error err done => cases done <;> exact ⟨rfl, rfl⟩

/-- A `SetLang` writes the language that it chooses. -/
theorem safe_set_choice {lang : String} {ttl : Int} {next : SetReply → Call α} (hreq : task.request = .setLang lang)
    (hlang : sess.lang = lang)
    (h : ∀ s₁ s₂ reply, contract.R s s₁ → contract.R s₁ s₂ → SafeCall Q (next reply) task s₂) :
    SafeCall Q (.call (.set sess ttl) next) task s := by
  rintro s₁ hR _ reply s₂ task ⟨⟨hact, rfl⟩, _⟩
  have hchoices : s₂.choices = s₁.choices + 1 ∧ contract.I s₂ := by
    rw [hact, hreq]
    cases reply with
    | ok =>
        refine ⟨rfl, fun sess' expiry hstore l hl => ?_⟩
        cases hstore
        exact hlang.trans (Option.some.inj hl)
    | error err done =>
        refine ⟨congrArg (· + 1) (write_choices ..).1, fun _ _ _ l hl => ?_⟩
        cases hl
  have hR₂ : contract.R s₁ s₂ := ⟨by omega, fun heq => by omega⟩
  exact ⟨hchoices.2, hR₂, h s₁ s₂ reply hR hR₂⟩

/-- An `Authenticate` writes `ar`, while no other language is chosen. -/
theorem safe_set_new {ttl : Int} {next : SetReply → Call α} (hreq : ∀ lang, task.request ≠ .setLang lang)
    (hlang : sess.lang = "ar") (h : ∀ s₁ s₂ reply, contract.R s s₁ → contract.R s₁ s₂ →
      s₂.chosen = none ∨ s₂.chosen = some "ar" → SafeCall Q (next reply) task s₂) :
    SafeCall Q (.call (.set sess ttl) next) task s := by
  rintro s₁ hR hI reply s₂ task ⟨⟨hact, rfl⟩, hcond⟩
  have hwrite : s₂ = s₁.write sess ttl reply := by
    rw [hact]
    cases hr : task.request with
    | setLang lang => exact absurd hr (hreq lang)
    | authenticate | getValidToken | handleUnauthorized => rfl
  obtain ⟨hchoices, hchosen⟩ := write_choices s₁ sess ttl reply
  rw [← hwrite] at hchoices hchosen
  have hunchosen : s₂.chosen = none ∨ s₂.chosen = some "ar" := by
    rw [hchosen]
    exact hcond.resolve_left fun ⟨lang, hl⟩ => hreq lang hl
  have hI₂ : contract.I s₂ := by
    intro sess' expiry hstore lang hl
    have hcases : s₂.store = some (sess, s₁.now + ttl) ∨ s₂.store = s₁.store := by
      rw [hwrite]
      cases reply with
      | ok => exact .inl rfl
      | error err done =>
          cases done
          · exact .inr rfl
          · exact .inl rfl
    rcases hcases with hnew | hold
    · obtain ⟨rfl, _⟩ := Prod.mk.inj (Option.some.inj (hstore.symm.trans hnew))
      rcases hunchosen with hnone | har
      · cases hnone.symm.trans hl
      · exact hlang.trans (Option.some.inj (har.symm.trans hl))
    · exact hI sess' expiry (hold.symm.trans hstore) lang (hchosen.symm.trans hl)
  have hR₂ : contract.R s₁ s₂ := ⟨Nat.le_of_eq hchoices.symm, fun _ => hchosen⟩
  exact ⟨hI₂, hR₂, h s₁ s₂ reply hR hR₂ hunchosen⟩

/-! ## Methods -/

theorem safe_getSession (hle : task.startedAt ≤ s.choices) :
    SafeCall (fun s r => task.startedAt ≤ s.choices ∧ ∀ sess, r = .ok (some sess) → Agrees task s sess) getSession
      task s := by
  refine safe_quiet rfl fun s₁ a hR hI hact => ?_
  have hle₁ := Nat.le_trans hle hR.1
  cases a with
  | error err => exact .ret ⟨hle₁, fun _ h => nomatch h⟩
  | ok found =>
      refine .ret ⟨hle₁, fun sess hsess => ⟨hle₁, fun _ lang hlang => ?_⟩⟩
      have hfound := hact.2 found rfl
      rw [Except.ok.inj hsess] at hfound
      obtain ⟨⟨sess', expiry⟩, hstore, rfl⟩ := Option.map_eq_some_iff.mp hfound.symm
      exact hI sess' expiry hstore lang hlang

theorem safe_saveSession_choice {lang : String} (hreq : task.request = .setLang lang) (hlang : sess.lang = lang) :
    SafeCall (fun _ _ => True) (saveSession sess) task s := by
  refine safe_quiet rfl fun s₁ now _ _ _ => safe_set_choice hreq hlang fun s₂ s₃ reply _ _ => ?_
  cases reply <;> exact .ret trivial

theorem safe_saveSession_new (hle : task.startedAt ≤ s.choices) (hreq : ∀ lang, task.request ≠ .setLang lang)
    (hlang : sess.lang = "ar") : SafeCall (fun s _ => Agrees task s sess) (saveSession sess) task s := by
  refine safe_quiet rfl fun s₁ now hR _ _ => safe_set_new hreq hlang fun s₂ s₃ reply hR₂ hR₃ hunchosen => ?_
  have hagrees : Agrees task s₃ sess := by
    refine ⟨Nat.le_trans hle (Nat.le_trans hR.1 (Nat.le_trans hR₂.1 hR₃.1)), fun _ lang hl => ?_⟩
    rcases hunchosen with hnone | har
    · cases hnone.symm.trans hl
    · exact hlang.trans (Option.some.inj (har.symm.trans hl))
  cases reply <;> exact .ret hagrees

theorem safe_authenticate (hle : task.startedAt ≤ s.choices) (hreq : ∀ lang, task.request ≠ .setLang lang) :
    SafeCall (fun s r => ∀ sess, r = .ok sess → Agrees task s sess) authenticate task s := by
  refine safe_quiet rfl fun s₁ a hR _ _ => ?_
  have hle₁ := Nat.le_trans hle hR.1
  rw [Program.ret_bind]
  cases hexchange : exchangeTelegramToken a with
  | error err =>
      exact .ret fun _ h => nomatch h
  | ok resp =>
      refine safe_quiet rfl fun s₂ now hR₂ _ _ => ?_
      refine (safe_saveSession_new (Nat.le_trans hle₁ hR₂.1) hreq rfl).bind fun s r hagrees => ?_
      cases r with
      | some err => exact .ret fun _ h => nomatch h
      | none =>
          refine .ret fun sess hsess => ?_
          cases hsess
          exact hagrees

theorem safe_getValidToken (hle : task.startedAt ≤ s.choices) (hreq : ∀ lang, task.request ≠ .setLang lang) :
    SafeCall (fun s r => ∀ token sess, r = .ok (token, some sess) → Agrees task s sess) getValidToken task s := by
  refine (safe_getSession hle).bind fun s r h => ?_
  obtain ⟨hle, hagrees⟩ := h
  rcases r with err | _ | sess
  · exact .ret fun _ _ h => nomatch h
  · exact .ret fun _ _ h => nomatch h
  · refine safe_quiet rfl fun s₁ now hR _ _ => ?_
    rw [Program.ret_bind]
    split
    · refine (safe_authenticate (Nat.le_trans hle hR.1) hreq).bind fun s r hnew => ?_
      cases r with
      | error err => exact .ret fun _ _ h => nomatch h
      | ok newSess =>
          refine .ret fun token sess' hsess => ?_
          cases hsess
          exact hnew newSess rfl
    · refine .ret fun token sess' hsess => ?_
      cases hsess
      exact (hagrees sess rfl).stable hR

theorem safe_handleUnauthorized (hle : task.startedAt ≤ s.choices) (hreq : ∀ lang, task.request ≠ .setLang lang) :
    SafeCall (fun _ _ => True) handleUnauthorized task s := by
  refine (safe_authenticate hle hreq).bind fun s r _ => ?_
  cases r with
  | error err => exact .ret trivial
  | ok sess => exact safe_quiet rfl fun _ _ _ _ _ => .ret trivial

theorem safe_setLang {lang : String} (hle : task.startedAt ≤ s.choices) (hreq : task.request = .setLang lang) :
    SafeCall (fun _ _ => True) (setLang lang) task s := by
  refine (safe_getSession hle).bind fun s r _ => ?_
  rcases r with err | _ | sess
  · exact .ret trivial
  · exact .ret trivial
  · exact safe_saveSession_choice hreq rfl

/-- A session that `GetValidToken` returns agrees with the choice. -/
def Returned (task : Task) (s : Shared) (r : Result) : Prop :=
  ∀ token sess, r = .token (.ok (token, some sess)) → Agrees task s sess

theorem safe_program (h : task.startedAt = s.choices) :
    SafeCall (Returned task) task.request.program task s := by
  have hle := Nat.le_of_eq h
  cases hreq : task.request with
  | authenticate =>
      refine (safe_authenticate hle (by simp [hreq])).bind fun s r _ => .ret ?_
      exact fun _ _ h => nomatch h
  | getValidToken =>
      refine (safe_getValidToken hle (by simp [hreq])).bind fun s r hr => .ret fun token sess hsess => ?_
      cases hsess
      exact hr token sess rfl
  | handleUnauthorized =>
      refine (safe_handleUnauthorized hle (by simp [hreq])).bind fun s r _ => .ret ?_
      exact fun _ _ h => nomatch h
  | setLang lang =>
      refine (safe_setLang hle hreq).bind fun s r _ => .ret ?_
      exact fun _ _ h => nomatch h

theorem meets_contract : (system.restrict Unchosen).Meets contract Returned where
  start := by
    rintro s _ task _ hI ⟨rfl, hstarted, rfl⟩
    refine ⟨hI, contract_closed.refl _, (safe_program hstarted).mono ?_⟩
    rintro _ s r ⟨rfl, hr⟩
    exact hr
  enter _ h := h.elim
  env := by
    intro s s' hI henv
    cases henv with
    | advance d => exact ⟨hI, contract_closed.refl _⟩
    | expire _ _ => exact ⟨fun _ _ h => (nomatch h), contract_closed.refl _⟩
  result _ _ _ _ hR h := fun token sess hsess => (h token sess hsess).stable hR

end Gopkg.Telegram.Auth.SessionManager
