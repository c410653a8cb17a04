import Gopkg.Telegram.Core.Lemmas.Tables

/-!
# One live bot per partner

A partner's entries in `m.bots` and `m.tokens` change only when the partner has no live bot, as long as every
`startBot` goroutine finds things as it left them when it comes to register its bot.
-/

namespace Gopkg.Telegram.Core

open Client Lts

variable {m m' : Manager} {evs : List Event} {id : String} {b : Nat}

/-- The bot has been created and not been stopped. -/
def Live (m : Manager) (b : Nat) (bot : PartnerBot) : Prop := m.made[b]? = some bot ∧ bot.stopped = false

/-- Every live bot is the one in `m.bots`, with the token in `m.tokens`. -/
def Sole (m : Manager) : Prop := ∀ b bot, Live m b bot →
  m.bots.lookup bot.cfg.partnerID = some b ∧ m.tokens.lookup bot.cfg.partnerID = some bot.cfg.botToken

/-- A bot is registered while its token is the one in `m.tokens` and `m.bots` has no live bot of the partner. -/
def Current (m : Manager) (evs : List Event) (_ : Manager) : Prop :=
  ∀ k b r, evs = [.registered k b] → m.routines[k]? = some r →
    m.tokens.lookup r.cfg.partnerID = some r.cfg.botToken ∧
    ∀ b' bot, m.bots.lookup r.cfg.partnerID = some b' → m.made[b']? = some bot → bot.stopped = true

/-- The partner has no live bot. -/
def Vacant (m : Manager) (id : String) : Prop := ∀ b bot, Live m b bot → bot.cfg.partnerID ≠ id

theorem Sole.vacant_of_bots (h : Sole m) (hb : m.bots.lookup id = none) : Vacant m id := by
  rintro b bot hlive rfl
  rw [(h b bot hlive).1] at hb
  exact nomatch hb

theorem Sole.vacant_of_tokens (h : Sole m) (ht : m.tokens.lookup id = none) : Vacant m id := by
  rintro b bot hlive rfl
  rw [(h b bot hlive).2] at ht
  exact nomatch ht

theorem Sole.vacant_of_stopped (h : Sole m) (hb : m.bots.lookup id = some b)
    (hstopped : ∀ bot, m.made[b]? = some bot → bot.stopped = true) : Vacant m id := by
  rintro b' bot hlive rfl
  have hb' := (h b' bot hlive).1
  rw [hb] at hb'
  cases hb'
  have := hstopped bot hlive.1
  rw [hlive.2] at this
  exact nomatch this

theorem Sole.stopBot (h : Sole m) (hb : m.bots.lookup id = some b) :
    Sole (m.stopBot b) ∧ Vacant (m.stopBot b) id := by
  have hsole : Sole (m.stopBot b) := fun b' bot hlive => h b' bot ⟨(live_of_stopBot hlive.1 hlive.2).2, hlive.2⟩
  refine ⟨hsole, hsole.vacant_of_stopped hb fun bot hbot => ?_⟩
  rw [made_stopBot] at hbot
  obtain ⟨old, _, rfl⟩ := Option.map_eq_some_iff.mp hbot
  rw [if_pos rfl]

/-- The entries of a partner without a live bot may change. -/
theorem Sole.change (h : Sole m) (hvacant : Vacant m id) (hmade : m'.made = m.made)
    (hbots : ∀ id', id' ≠ id → m'.bots.lookup id' = m.bots.lookup id')
    (htokens : ∀ id', id' ≠ id → m'.tokens.lookup id' = m.tokens.lookup id') : Sole m' := by
  intro b bot hlive
  have hlive' : Live m b bot := ⟨hmade ▸ hlive.1, hlive.2⟩
  have hne := hvacant b bot hlive'
  rw [hbots _ hne, htokens _ hne]
  exact h b bot hlive'

theorem Sole.removeBot (h : Sole m) (hb : m.bots.lookup id = some b) : Sole (m.removeBot id b) := by
  obtain ⟨hsole, hvacant⟩ := h.stopBot hb
  exact hsole.change hvacant rfl (fun _ => AList.lookup_erase_ne) fun _ => AList.lookup_erase_ne

theorem Sole.haltBot (h : Sole m) (hb : m.bots.lookup id = some b) : Sole (m.haltBot id b) := by
  obtain ⟨hsole, hvacant⟩ := h.stopBot hb
  exact hsole.change hvacant rfl (fun _ => AList.lookup_erase_ne) fun _ _ => rfl

theorem Sole.removeInactive (h : Sole m) (activeIDs : List String) : Sole (m.removeInactive activeIDs) := by
  refine eachBot_induct h (fun m id b id' hid => ?_) fun m id b hm hb => ?_
  · split
    · rfl
    · exact AList.lookup_erase_ne hid
  · split
    · exact hm
    · exact hm.removeBot hb

theorem Sole.stop (h : Sole m) : Sole m.stop :=
  eachBot_induct h (fun _ _ _ _ hid => AList.lookup_erase_ne hid) fun _ _ _ hm hb => hm.haltBot hb

theorem Sole.retireBot (h : Sole m) (id : String) : Sole (m.retireBot id) ∧ Vacant (m.retireBot id) id := by
  unfold Manager.retireBot
  split
  · exact h.stopBot ‹_›
  · exact ⟨h, h.vacant_of_bots ‹_›⟩

theorem Sole.launchBot {cfg : PartnerBotConfig} (h : Sole m) (hvacant : Vacant m cfg.partnerID) :
    Sole (m.launchBot cfg) :=
  h.change hvacant rfl (fun _ _ => rfl) fun _ => AList.lookup_insert_ne

theorem Sole.syncBot (h : Sole m) (cfg : PartnerBotConfig) : Sole (m.syncBot cfg) := by
  unfold Manager.syncBot
  split
  · split
    · exact h
    · obtain ⟨hsole, hvacant⟩ := h.retireBot cfg.partnerID
      exact hsole.launchBot hvacant
  · exact h.launchBot (h.vacant_of_tokens ‹_›)

theorem Sole.registerBot {cfg : PartnerBotConfig} (h : Sole m) (hvacant : Vacant m cfg.partnerID)
    (htoken : m.tokens.lookup cfg.partnerID = some cfg.botToken) : Sole (m.registerBot cfg) := by
  intro b bot hlive
  rcases getElem?_snoc_cases (l := m.made) hlive.1 with ⟨rfl, rfl⟩ | hmade
  · exact ⟨AList.lookup_insert _, htoken⟩
  · -- a bot of another partner
    have hold : Live m b bot := ⟨hmade, hlive.2⟩
    obtain ⟨hbots, htokens⟩ := h b bot hold
    exact ⟨(AList.lookup_insert_ne (hvacant b bot hold)).trans hbots, htokens⟩

theorem Sole.step (h : Sole m) (hs : Step m evs m') (hc : Current m evs m') : Sole m' := by
  cases hs with
  | start hs =>
      cases hs with
      | @G_Create k cfg _ hk _ =>
          obtain ⟨htoken, hstopped⟩ := hc k m.made.length ⟨cfg, .creating⟩ rfl hk
          refine h.registerBot ?_ htoken
          cases hb : m.bots.lookup cfg.partnerID with
          | none => exact h.vacant_of_bots hb
          | some b => exact h.vacant_of_stopped hb fun bot hbot => hstopped b bot hb hbot
      | G_Fail _ _ _ | G_GiveUp _ _ _ | G_Spawn _ | G_Start _ | G_Return _ _ _ | G_Removed _ _
      | G_Tracked _ _ | G_Changed _ _ | G_Unchanged _ _ | G_Wake _ => exact h
  | load hs =>
      cases hs with
      | @L_Sync _ _ _ cfg _ => exact h.syncBot cfg
      | @L_Sweep _ passed _ => exact h.removeInactive (passed.map (·.partnerID))
      | L_Refused _ _ _ | L_Loaded _ _ _ | L_Retry _ | L_Cancelled _ _ | L_Tick _ | L_Done _ _ => exact h
  | outer hs =>
      cases hs with
      | M_Stop => exact h.stop
      | M_Cancel | M_Ready _ | M_Webhook _ => exact h

end Gopkg.Telegram.Core
