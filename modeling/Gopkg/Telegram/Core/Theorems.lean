import Gopkg.Telegram.Session
import Gopkg.Telegram.Core.Lemmas.Sole
import Gopkg.Telegram.Core.Lemmas.Serving
import Gopkg.Telegram.Core.Lemmas.Quiet
import Gopkg.Telegram.Core.Lemmas.Webhook

/-!
# Theorems about the bot manager
-/

namespace Gopkg.Telegram.Core

open Client Lts

/-! ## One live bot per partner -/

/-- While every bot is registered under the tracked token and over no live bot, a live bot is the one in `m.bots`, it
has the token in `m.tokens`, and it is the only one of its partner. -/
theorem one_live_bot (t : List Event) (m : Manager) (hr : Run (Restrict Step Current) newBotManager t m)
    (b : Nat) (bot : PartnerBot) (hlive : Live m b bot) :
    m.bots.lookup bot.cfg.partnerID = some b ∧ m.tokens.lookup bot.cfg.partnerID = some bot.cfg.botToken ∧
      ∀ b' bot', Live m b' bot' → bot'.cfg.partnerID = bot.cfg.partnerID → b' = b := by
  have hsole : Sole m := hr.stateInvariant nofun fun _ _ _ h hs => h.step hs.1 hs.2
  obtain ⟨hbots, htokens⟩ := hsole b bot hlive
  refine ⟨hbots, htokens, fun b' bot' hlive' hpartner => ?_⟩
  have hbots' := (hsole b' bot' hlive').1
  rw [hpartner, hbots] at hbots'
  exact (Option.some.inj hbots').symm

/-- The answer of the identity service with one bot of one partner. -/
def oneBot (token : String) : Http GetBotsResponse := .body (.ok ⟨true, [⟨"p", "P", token⟩], none⟩)

/-- After the first pass. -/
def firstPass (token : String) : Manager :=
  { (newBotManager.syncBot ⟨"p", "P", token⟩).removeInactive ["p"] with loader := .selecting }

theorem firstPass_run (token : String) : ∃ t, Run Step newBotManager t (firstPass token) := by
  have h₁ : Run Step newBotManager _ _ := .single (.load (.L_Loaded (oneBot token) rfl rfl))
  have h₂ := h₁.snoc (.load (.L_Sync rfl))
  exact ⟨_, h₂.snoc (.load (.L_Sweep rfl))⟩

/-- The token changes while the first bot is in `m.bots`: it is stopped before the second one is registered. -/
theorem one_live_bot_rotated : ∃ (t : List Event) (m : Manager),
    Run (Restrict Step Current) newBotManager t m ∧
    m.made = [⟨⟨"p", "P", "old"⟩, true⟩, ⟨⟨"p", "P", "new"⟩, false⟩] ∧
    ∀ b bot, Live m b bot → m.bots.lookup bot.cfg.partnerID = some b := by
  have h₁ : Run (Restrict Step Current) newBotManager _ _ :=
    .single ⟨.load (.L_Loaded (oneBot "old") rfl rfl), fun _ _ _ he => nomatch he⟩
  have h₂ := h₁.snoc ⟨.load (.L_Sync rfl), fun _ _ _ he => nomatch he⟩
  have h₃ := h₂.snoc ⟨.load (.L_Sweep rfl), fun _ _ _ he => nomatch he⟩
  have h₄ := h₃.snoc ⟨.start (.G_Create (k := 0) rfl rfl), fun _ _ _ he hk => by
    cases he
    cases hk
    exact ⟨rfl, fun _ _ hb => nomatch hb⟩⟩
  have h₅ := h₄.snoc ⟨.load (.L_Tick rfl), fun _ _ _ he => nomatch he⟩
  have h₆ := h₅.snoc ⟨.load (.L_Loaded (oneBot "new") rfl rfl), fun _ _ _ he => nomatch he⟩
  have h₇ := h₆.snoc ⟨.load (.L_Sync rfl), fun _ _ _ he => nomatch he⟩
  have h₈ := h₇.snoc ⟨.start (.G_Create (k := 1) rfl rfl), fun _ _ _ he hk => by
    cases he
    cases hk
    refine ⟨rfl, fun _ _ hb hbot => ?_⟩
    cases hb
    cases hbot
    rfl⟩
  exact ⟨_, _, h₈, rfl, fun b bot hlive => (one_live_bot _ _ h₈ b bot hlive).1⟩

/-- The token changes while the first goroutine is still in `NewPartnerBot`: it registers its bot over the one with
the new token. -/
theorem two_live_bots : ¬ ∀ (t : List Event) (m : Manager), Run Step newBotManager t m →
    ∀ b bot, Live m b bot → m.bots.lookup bot.cfg.partnerID = some b ∧
      m.tokens.lookup bot.cfg.partnerID = some bot.cfg.botToken ∧
      ∀ b' bot', Live m b' bot' → bot'.cfg.partnerID = bot.cfg.partnerID → b' = b := by
  intro h
  obtain ⟨t₀, h₃⟩ := firstPass_run "old"
  have h₄ := h₃.snoc (.load (.L_Tick rfl))
  have h₅ := h₄.snoc (.load (.L_Loaded (oneBot "new") rfl rfl))
  have h₆ := h₅.snoc (.load (.L_Sync rfl))
  have h₇ := h₆.snoc (.start (.G_Create (k := 1) rfl rfl))
  have h₈ := h₇.snoc (.start (.G_Create (k := 0) rfl rfl))
  have htoken := (h _ _ h₈ 1 ⟨⟨"p", "P", "old"⟩, false⟩ ⟨rfl, rfl⟩).2.1
  revert htoken
  decide

/-! ## `Stop` -/

/-- After `Stop`, and with the context done, no bot is registered or started again if and only if the manager is
quiet. -/
theorem stop_final_iff (t : List Event) (m : Manager) (hr : Run Step newBotManager t m)
    (_hstopped : m.stopped = true) (_hctx : m.ctxDone = true) : Final m ↔ Quiet m := by
  have hw := Wf.run hr
  exact ⟨fun h => h.quiet hw, fun h => h.final hw⟩

def noBots : Http GetBotsResponse := .body (.ok ⟨true, [], none⟩)

/-- The partner was removed before `Stop`, and the goroutine has not yet come back from `Start`. -/
theorem stop_final_iff_removed : ∃ (t : List Event) (m : Manager), Run Step newBotManager t m ∧
    m.stopped = true ∧ m.ctxDone = true ∧ m.routines = [⟨⟨"p", "P", "tok"⟩, .running 0⟩] ∧ Quiet m ∧ Final m := by
  obtain ⟨t₀, h₃⟩ := firstPass_run "tok"
  have h₄ := h₃.snoc (.start (.G_Create (k := 0) rfl rfl))
  have h₅ := (h₄.snoc (.start (.G_Spawn (k := 0) rfl))).snoc (.start (.G_Start (k := 0) rfl))
  have h₆ := h₅.snoc (.load (.L_Tick rfl))
  have h₇ := h₆.snoc (.load (.L_Loaded noBots rfl rfl))
  have h₈ := h₇.snoc (.load (.L_Sweep rfl))
  have h₉ := h₈.snoc (.outer .M_Cancel)
  have h₁₀ := h₉.snoc (.load (.L_Done rfl rfl))
  have h₁₁ := h₁₀.snoc (.outer .M_Stop)
  have hfinal := (stop_final_iff _ _ h₁₁ rfl rfl).mpr
  refine ⟨_, _, h₁₁, rfl, rfl, rfl, (and_iff_left_of_imp hfinal).mpr ⟨trivial, fun r hr => ?_⟩⟩
  rw [List.mem_singleton.mp hr]
  exact .inl fun h => nomatch h

/-- `Stop` stops a bot that is running. Its token is still tracked, and the goroutine registers a bot again. -/
theorem stop_not_final : ¬ ∀ (t : List Event) (m : Manager), Run Step newBotManager t m → m.stopped = true →
    m.ctxDone = true → Final m := by
  intro h
  obtain ⟨t₀, h₃⟩ := firstPass_run "tok"
  have h₄ := h₃.snoc (.start (.G_Create (k := 0) rfl rfl))
  have h₅ := (h₄.snoc (.start (.G_Spawn (k := 0) rfl))).snoc (.start (.G_Start (k := 0) rfl))
  have h₆ := h₅.snoc (.outer .M_Cancel)
  have h₇ := h₆.snoc (.load (.L_Done rfl rfl))
  have h₈ := h₇.snoc (.outer .M_Stop)
  have hfinal := h _ _ h₈ rfl rfl
  have h₉ := hfinal.step (.start (.G_Return (k := 0) rfl rfl rfl))
  have h₁₀ := h₉.step (.start (.G_Tracked (k := 0) rfl rfl))
  have h₁₁ := h₁₀.step (.start (.G_Unchanged (k := 0) rfl rfl))
  have h₁₂ := h₁₁.step (.start (.G_Wake (k := 0) rfl))
  exact nomatch h₁₂.events (.start (.G_Create (k := 0) rfl rfl)) _ (List.mem_singleton.mpr rfl)

/-! ## Serving every partner -/

/-- After a pass, the goroutine that was started last for a partner of the list holds the partner's token of the
list, and it lives unless it gave up. -/
theorem partners_in_charge (t : List Event) (m : Manager) (configs : List PartnerBotConfig) (m' : Manager)
    (hr : Run Step newBotManager t m) (hs : Step m [.swept configs] m')
    (hnodup : (configs.map (·.partnerID)).Nodup) (cfg : PartnerBotConfig) (hcfg : cfg ∈ configs) :
    ∃ k r, Latest m' cfg.partnerID k r ∧ r.cfg.botToken = cfg.botToken ∧ (r.pc ≠ .exited ∨ .gaveUp k ∈ t) := by
  have hserving := Serving.run hr
  generalize hevs : ([.swept configs] : List Event) = evs at hs
  cases hs with
  | start hs => cases hs <;> cases hevs
  | outer hs => cases hs <;> cases hevs
  | load hs =>
      cases hs with
      | @L_Sweep ph passed hl =>
          cases hevs
          have htoken : m.tokens.lookup cfg.partnerID = some cfg.botToken :=
            hserving.passed ph configs [] hl (by rwa [List.append_nil]) cfg hcfg
          obtain ⟨k, r, hlatest, hrest⟩ := hserving.tracked _ _ htoken
          have hswept := swept_removeInactive m (configs.map (·.partnerID))
          exact ⟨k, r, hlatest.congr hswept.routines, hrest⟩
      | L_Refused _ _ _ | L_Loaded _ _ _ | L_Sync _ | L_Retry _ | L_Cancelled _ _ | L_Tick _ | L_Done _ _ =>
          cases hevs

/-- The first pass starts the goroutine. -/
theorem partners_in_charge_started : ∃ (t : List Event) (m m' : Manager), Run Step newBotManager t m ∧
    Step m [.swept [⟨"p", "P", "tok"⟩]] m' ∧
    ∃ k r, Latest m' "p" k r ∧ r.cfg.botToken = "tok" ∧ (r.pc ≠ .exited ∨ .gaveUp k ∈ t) := by
  have h₁ : Run Step newBotManager _ _ := .single (.load (.L_Loaded (oneBot "tok") rfl rfl))
  have h₂ := h₁.snoc (.load (.L_Sync rfl))
  refine ⟨_, _, _, h₂, .load (.L_Sweep rfl), ?_⟩
  exact partners_in_charge _ _ _ _ h₂ (.load (.L_Sweep rfl)) (by decide) ⟨"p", "P", "tok"⟩ (List.mem_singleton.mpr rfl)

/-- A bot that was given up is not started again by the next pass. -/
theorem partner_not_served : ¬ ∀ (t : List Event) (m : Manager) (configs : List PartnerBotConfig) (m' : Manager),
    Run Step newBotManager t m → Step m [.swept configs] m' → (configs.map (·.partnerID)).Nodup →
    ∀ cfg ∈ configs, ∃ r ∈ m'.routines,
      r.cfg.partnerID = cfg.partnerID ∧ r.cfg.botToken = cfg.botToken ∧ r.pc ≠ .exited := by
  intro h
  obtain ⟨t₀, h₃⟩ := firstPass_run "tok"
  obtain ⟨t, health, last, hfails, hlast, hn⟩ := failing_run (k := 0) 9 (firstPass "tok") ⟨.starting, 0⟩ rfl rfl
    (by decide)
  have h₄ := h₃.trans hfails
  have h₅ := h₄.snoc (.start (.G_GiveUp (k := 0) rfl hlast (by rw [hn]; decide)))
  have h₆ := h₅.snoc (.load (.L_Tick rfl))
  have h₇ := h₆.snoc (.load (.L_Loaded (oneBot "tok") rfl rfl))
  have h₈ := h₇.snoc (.load (.L_Sync rfl))
  obtain ⟨r, hr, _, _, hlive⟩ := h _ _ _ _ h₈ (.load (.L_Sweep rfl)) (by decide) ⟨"p", "P", "tok"⟩
    (List.mem_singleton.mpr rfl)
  have hr : r ∈ [(⟨⟨"p", "P", "tok"⟩, .exited⟩ : Routine)] := hr
  rw [List.mem_singleton.mp hr] at hlive
  exact hlive rfl

/-! ## Answers that are no success -/

/-- An answer that is no success changes nothing if and only if it carries an error: then `loadAndSync` fails and
leaves every bot alone, and `Authenticate` fails and writes nothing, whatever Redis answers. -/
theorem refused_iff_error (m : Manager) (bots : GetBotsResponse) (hbots : bots.success = false) (rdb : Auth.Redis)
    (partnerID : String) (telegramID : Int) (auth : AuthResponse) (hauth : auth.success = false) (now now' : Int) :
    (((∃ err, (m.loadAndSync (.body (.ok bots))).1 = .error err) ∧
        (m.loadAndSync (.body (.ok bots))).2.made = m.made ∧ (m.loadAndSync (.body (.ok bots))).2.bots = m.bots) ↔
      bots.error ≠ none) ∧
    ((∀ reply, (∃ err, (Auth.authenticate rdb partnerID telegramID (.body (.ok auth)) now now' reply).1 = .error err) ∧
        (Auth.authenticate rdb partnerID telegramID (.body (.ok auth)) now now' reply).2 = rdb) ↔
      auth.error ≠ none) := by
  constructor
  · cases herr : bots.error with
    | none =>
        rw [loadAndSync_no_error m herr]
        simp
    | some e =>
        rw [loadAndSync_refused m hbots herr]
        simp
  · cases herr : auth.error with
    | none =>
        refine ⟨fun h => ?_, fun h => absurd rfl h⟩
        obtain ⟨err, hfail⟩ := (h .ok).1
        rw [Auth.authenticate_no_error rdb herr] at hfail
        exact nomatch hfail
    | some e =>
        refine ⟨fun _ h => (nomatch h), fun _ reply => ?_⟩
        rw [Auth.authenticate_refused rdb hauth herr]
        exact ⟨⟨_, rfl⟩, rfl⟩

/-- Both services refuse, with an error. -/
theorem refused_iff_error_refused :
    let bots : GetBotsResponse := ⟨false, [], some ⟨"INTERNAL", "database is down"⟩⟩
    let auth : AuthResponse := ⟨false, "", "", 0, [], ⟨"", "", ""⟩, some ⟨"NOT_FOUND", "unknown user"⟩⟩
    (∃ err, ((firstPass "tok").loadAndSync (.body (.ok bots))).1 = .error err) ∧
    ∀ reply, (Auth.authenticate (fun _ => none) "p" 7 (.body (.ok auth)) 0 0 reply).2 = fun _ => none := by
  intro bots auth
  have h := refused_iff_error (firstPass "tok") bots rfl (fun _ => none) "p" 7 auth rfl 0 0
  exact ⟨(h.1.mpr nofun).1, fun reply => (h.2.mpr nofun reply).2⟩

/-- An empty answer, which carries no error: the bot is stopped and removed, and a session without a token is
written. -/
theorem refusal_taken_as_success :
    (¬ ∀ (t : List Event) (m : Manager) (bots : GetBotsResponse), Run Step newBotManager t m → bots.success = false →
      (∃ err, (m.loadAndSync (.body (.ok bots))).1 = .error err) ∧
        (m.loadAndSync (.body (.ok bots))).2.made = m.made ∧ (m.loadAndSync (.body (.ok bots))).2.bots = m.bots) ∧
    ¬ ∀ (rdb : Auth.Redis) (partnerID : String) (telegramID : Int) (auth : AuthResponse) (now now' : Int)
      (reply : Auth.SetReply), auth.success = false →
      (∃ err, (Auth.authenticate rdb partnerID telegramID (.body (.ok auth)) now now' reply).1 = .error err) ∧
        (Auth.authenticate rdb partnerID telegramID (.body (.ok auth)) now now' reply).2 = rdb := by
  constructor
  · intro h
    obtain ⟨t₀, h₃⟩ := firstPass_run "tok"
    have h₄ := h₃.snoc (.start (.G_Create (k := 0) rfl rfl))
    have hmade := (h _ _ ⟨false, [], none⟩ h₄ rfl).2.1
    revert hmade
    decide
  · intro h
    have hstore := (h (fun _ => none) "p" 7 ⟨false, "", "", 0, [], ⟨"", "", ""⟩, none⟩ 0 0 .ok rfl).2
    simp only [Auth.authenticate, exchangeTelegramToken_decoded, accept_no_error, Auth.saveSession,
      Auth.Redis.set] at hstore
    have hkey := congrFun hstore (Auth.sessionKey "p" 7)
    rw [Function.update_self] at hkey
    cases hkey

/-! ## Webhook requests -/

/-- A webhook request is handed only to a bot of the partner that its path names, made for a configuration that the
identity service had answered before, and only after the partner was marked ready with a bot of it registered before
that. -/
theorem webhook_to_own_bot (t : List Event) (m : Manager) (hr : Run Step newBotManager t m) (before after : List Event)
    (id : String) (b : Nat) (ht : t = before ++ .webhook id (some b) :: after) :
    id ≠ "" ∧ '/' ∉ id.toList ∧
      (∃ bot, m.made[b]? = some bot ∧ bot.cfg.partnerID = id ∧ Loaded before bot.cfg) ∧
      ∃ t₁ t₂ k b' bot', before = t₁ ++ .markedReady id :: t₂ ∧ .registered k b' ∈ t₁ ∧ m.made[b']? = some bot' ∧
        bot'.cfg.partnerID = id := by
  obtain ⟨hne, hslash, ⟨cfg, hcfg, hid, hloaded⟩, t₁, t₂, hmarked, k, b', cfg', hregistered, hcfg', hid'⟩ :=
    Handed.run hr before _ after ht id b rfl
  have hbot : ∀ {i : Nat} {cfg : PartnerBotConfig}, m.configs[i]? = some cfg →
      ∃ bot, m.made[i]? = some bot ∧ bot.cfg = cfg := by
    intro i cfg hi
    rw [Manager.configs, List.getElem?_map] at hi
    exact Option.map_eq_some_iff.mp hi
  obtain ⟨bot, hmade, rfl⟩ := hbot hcfg
  obtain ⟨bot', hmade', rfl⟩ := hbot hcfg'
  exact ⟨hne, hslash, ⟨bot, hmade, hid, hloaded⟩, t₁, t₂, k, b', bot', hmarked, hregistered, hmade', hid'⟩

/-- The first bot is marked ready, and a request reaches it before its `Start` was called. -/
theorem webhook_to_own_bot_first : ∃ (t before : List Event) (m : Manager), Run Step newBotManager t m ∧
    t = before ++ [.webhook "p" (some 0)] ∧ ∃ bot, m.made[0]? = some bot ∧ bot.cfg.partnerID = "p" := by
  obtain ⟨t₀, h₃⟩ := firstPass_run "tok"
  have h₄ := h₃.snoc (.start (.G_Create (k := 0) rfl rfl))
  have h₅ := h₄.snoc (.start (.G_Spawn (k := 0) rfl))
  have h₆ := h₅.snoc (.outer (.M_Ready List.mem_cons_self))
  have h₇ := h₆.snoc (.outer (.M_Webhook "p"))
  obtain ⟨_, _, ⟨bot, hbot, hid, _⟩, _⟩ := webhook_to_own_bot _ _ h₇ _ [] "p" 0 rfl
  exact ⟨_, _, _, h₇, rfl, bot, hbot, hid⟩

end Gopkg.Telegram.Core
