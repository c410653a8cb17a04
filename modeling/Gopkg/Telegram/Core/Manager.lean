import Mathlib.Data.List.AList
import Gopkg.Lts.Run
import Gopkg.Telegram.Identity

/-!
# Bot manager

`communication/telegram/bot/core/manager.go`, as the interleaving of its goroutines: the one that loads the
configurations (`Start`, and then `reloadLoop`), the `startBot` goroutines, and those that mark a bot ready.
What a goroutine does under the lock is one step. `NewPartnerBot` reads and writes nothing of the manager's, so
that its return and what `startBot` then does under the lock are one step too, and a bot is there from that step
on. `PartnerBot.Stop` only marks the bot, and `PartnerBot.Start` returns when its bot is marked. A second `Stop` of one
bot is taken to return as well; the library's own would wait for a poller that is gone, with the lock held. The sleeps
and the waits last any time.
-/

namespace Gopkg.Telegram.Core

open Client

/-! ## State -/

inductive Status where
  | starting
  | healthy
  | degraded
  | down
  deriving DecidableEq, Repr

structure BotHealth where
  status : Status
  failures : Nat
  deriving DecidableEq, Repr

structure PartnerBot where
  cfg : PartnerBotConfig
  stopped : Bool
  deriving DecidableEq, Repr

/-- The places of `startBot`. -/
inductive StartPc where
  -- In `NewPartnerBot`.
  | creating
  | sleeping
  -- Before the `go` statement of the goroutine that marks the bot ready.
  | registered (bot : Nat)
  -- Before the call of `bot.Start`, and in it.
  | spawned (bot : Nat)
  | running (bot : Nat)
  -- Before the first and the second look at `m.tokens`.
  | checkTracked
  | checkToken
  | exited
  deriving DecidableEq, Repr

structure Routine where
  cfg : PartnerBotConfig
  pc : StartPc
  deriving DecidableEq, Repr

/-- The loop that calls `loadAndSync`: the one in `Start`, at its attempt, or `reloadLoop`. -/
inductive Phase where
  | starting (attempt : Nat)
  | reloading
  deriving DecidableEq, Repr

/-- The places of `Start`, `reloadLoop` and `loadAndSync`. -/
inductive LoaderPc where
  | fetching (ph : Phase)
  -- In the loop over the configurations, with those it has passed and those that are left.
  | syncing (ph : Phase) (passed rest : List PartnerBotConfig)
  -- In the backoff of `Start`, after the attempt.
  | waiting (attempt : Nat)
  -- In the `select` of `reloadLoop`.
  | selecting
  | exited
  deriving DecidableEq, Repr

/-- A Go map whose keys are partner IDs. -/
abbrev PartnerMap (V : Type) := AList fun _ : String => V

structure Manager where
  -- A bot is an index into `made`.
  bots : PartnerMap Nat
  health : PartnerMap BotHealth
  tokens : PartnerMap String
  ready : PartnerMap Bool
  -- Every bot that has been created.
  made : List PartnerBot
  routines : List Routine
  -- The partners whose bot a goroutine is going to mark ready.
  readying : List String
  loader : LoaderPc
  ctxDone : Bool
  -- `Stop` has returned.
  stopped : Bool
  deriving DecidableEq

/-- `NewBotManager`, with `Start` called. -/
def newBotManager : Manager where
  bots := ∅
  health := ∅
  tokens := ∅
  ready := ∅
  made := []
  routines := []
  readying := []
  loader := .fetching (.starting 1)
  ctxDone := false
  stopped := false

namespace Manager

def setRoutine (m : Manager) (k : Nat) (r : Routine) : Manager := { m with routines := m.routines.set k r }

/-- `bot.Stop()`. -/
def stopBot (m : Manager) (b : Nat) : Manager :=
  { m with made := m.made.modify b fun bot => { bot with stopped := true } }

/-- `for id, bot := range m.bots`, with a body that deletes no other key. -/
def eachBot (m : Manager) (body : Manager → String → Nat → Manager) : Manager :=
  m.bots.entries.foldl (fun m e => body m e.1 e.2) m

/-! ## `loadAndSync` -/

/-- The bot of a partner whose token changed is stopped; it stays in `m.bots`. -/
def retireBot (m : Manager) (partnerID : String) : Manager :=
  match m.bots.lookup partnerID with
  | some b => { m.stopBot b with ready := m.ready.insert partnerID false }
  | none => m

def launchBot (m : Manager) (cfg : PartnerBotConfig) : Manager :=
  { m with
    tokens := m.tokens.insert cfg.partnerID cfg.botToken
    health := m.health.insert cfg.partnerID ⟨.starting, 0⟩
    routines := m.routines ++ [⟨cfg, .creating⟩] }

def syncBot (m : Manager) (cfg : PartnerBotConfig) : Manager :=
  match m.tokens.lookup cfg.partnerID with
  | some existingToken =>
      if existingToken = cfg.botToken then m else (m.retireBot cfg.partnerID).launchBot cfg
  | none => m.launchBot cfg

def markDown (health : PartnerMap BotHealth) (id : String) : PartnerMap BotHealth :=
  match health.lookup id with
  | some h => health.insert id { h with status := .down }
  | none => health

def removeBot (m : Manager) (id : String) (b : Nat) : Manager :=
  { m.stopBot b with
    bots := m.bots.erase id
    tokens := m.tokens.erase id
    ready := m.ready.erase id
    health := markDown m.health id }

/-- The removal sweep. -/
def removeInactive (m : Manager) (activeIDs : List String) : Manager :=
  m.eachBot fun m id b => if id ∈ activeIDs then m else m.removeBot id b

/-- A pass with no other goroutine in between. -/
def loadAndSync (m : Manager) (resp : Http GetBotsResponse) : Except String Unit × Manager :=
  match getTelegramBots resp with
  | .error err => (.error s!"fetch bot configs: {err}", m)
  | .ok configs => (.ok (), (configs.foldl syncBot m).removeInactive (configs.map (·.partnerID)))

/-! ## `Stop` -/

def haltBot (m : Manager) (id : String) (b : Nat) : Manager :=
  { m.stopBot b with bots := m.bots.erase id, ready := m.ready.erase id }

def stop (m : Manager) : Manager := { m.eachBot haltBot with stopped := true }

/-! ## `startBot` -/

def failBot (m : Manager) (partnerID : String) (h : BotHealth) (status : Status) : Manager :=
  { m with health := m.health.insert partnerID ⟨status, h.failures + 1⟩ }

/-- The new bot is the last one of `made`. -/
def registerBot (m : Manager) (cfg : PartnerBotConfig) : Manager :=
  { m with
    made := m.made ++ [⟨cfg, false⟩]
    bots := m.bots.insert cfg.partnerID m.made.length
    ready := m.ready.insert cfg.partnerID false
    health := m.health.insert cfg.partnerID ⟨.healthy, 0⟩ }

/-! ## `handleWebhook` -/

/-- The bot that a webhook request for the partner is handed to. -/
def handleWebhook (m : Manager) (partnerID : String) : Option Nat :=
  if partnerID = "" ∨ '/' ∈ partnerID.toList then none
  else if (m.ready.lookup partnerID).getD false then m.bots.lookup partnerID else none

end Manager

def maxRetries : Nat := 10

def maxConsecutiveFailures : Nat := 10

/-- Where an error of `loadAndSync` leaves the loop that called it. -/
def Phase.failed : Phase → LoaderPc
  | .starting attempt => .waiting attempt
  | .reloading => .selecting

/-- The next attempt of `Start`; there is none after the last one. -/
def nextAttempt (attempt : Nat) : LoaderPc :=
  if attempt < maxRetries then .fetching (.starting (attempt + 1)) else .exited

inductive Event where
  | failed (k : Nat)
  | gaveUp (k : Nat)
  | registered (k b : Nat)
  | started (k b : Nat)
  | markedReady (partnerID : String)
  | loadFailed (err : String)
  | loaded (configs : List PartnerBotConfig)
  | synced (cfg : PartnerBotConfig)
  -- The end of a pass over the configurations.
  | swept (configs : List PartnerBotConfig)
  | ctxDone
  | stopped
  | webhook (partnerID : String) (bot : Option Nat)
  deriving DecidableEq, Repr

/-! ## Steps -/

/-- The `startBot` goroutine `k` moves. -/
inductive StartStep : Manager → List Event → Manager → Prop
  | G_Fail {m : Manager} {k : Nat} {cfg : PartnerBotConfig} {h : BotHealth} :
      m.routines[k]? = some ⟨cfg, .creating⟩ → m.health.lookup cfg.partnerID = some h →
      h.failures + 1 < maxConsecutiveFailures →
      StartStep m [.failed k] ((m.failBot cfg.partnerID h .degraded).setRoutine k ⟨cfg, .sleeping⟩)
  | G_GiveUp {m : Manager} {k : Nat} {cfg : PartnerBotConfig} {h : BotHealth} :
      m.routines[k]? = some ⟨cfg, .creating⟩ → m.health.lookup cfg.partnerID = some h →
      maxConsecutiveFailures ≤ h.failures + 1 →
      StartStep m [.gaveUp k] ((m.failBot cfg.partnerID h .down).setRoutine k ⟨cfg, .exited⟩)
  | G_Create {m : Manager} {k : Nat} {cfg : PartnerBotConfig} {h : BotHealth} :
      m.routines[k]? = some ⟨cfg, .creating⟩ → m.health.lookup cfg.partnerID = some h →
      StartStep m [.registered k m.made.length] ((m.registerBot cfg).setRoutine k ⟨cfg, .registered m.made.length⟩)
  -- the goroutine that marks the bot ready may be done before `bot.Start` is called
  | G_Spawn {m : Manager} {k b : Nat} {cfg : PartnerBotConfig} : m.routines[k]? = some ⟨cfg, .registered b⟩ →
      StartStep m [] { m.setRoutine k ⟨cfg, .spawned b⟩ with readying := m.readying ++ [cfg.partnerID] }
  | G_Start {m : Manager} {k b : Nat} {cfg : PartnerBotConfig} : m.routines[k]? = some ⟨cfg, .spawned b⟩ →
      StartStep m [.started k b] (m.setRoutine k ⟨cfg, .running b⟩)
  | G_Return {m : Manager} {k b : Nat} {cfg : PartnerBotConfig} {bot : PartnerBot} :
      m.routines[k]? = some ⟨cfg, .running b⟩ → m.made[b]? = some bot → bot.stopped = true →
      StartStep m [] (m.setRoutine k ⟨cfg, .checkTracked⟩)
  | G_Removed {m : Manager} {k : Nat} {cfg : PartnerBotConfig} : m.routines[k]? = some ⟨cfg, .checkTracked⟩ →
      m.tokens.lookup cfg.partnerID = none → StartStep m [] (m.setRoutine k ⟨cfg, .exited⟩)
  | G_Tracked {m : Manager} {k : Nat} {cfg : PartnerBotConfig} {token : String} :
      m.routines[k]? = some ⟨cfg, .checkTracked⟩ → m.tokens.lookup cfg.partnerID = some token →
      StartStep m [] (m.setRoutine k ⟨cfg, .checkToken⟩)
  -- a key that is absent reads as the empty token
  | G_Changed {m : Manager} {k : Nat} {cfg : PartnerBotConfig} : m.routines[k]? = some ⟨cfg, .checkToken⟩ →
      (m.tokens.lookup cfg.partnerID).getD "" ≠ cfg.botToken → StartStep m [] (m.setRoutine k ⟨cfg, .exited⟩)
  | G_Unchanged {m : Manager} {k : Nat} {cfg : PartnerBotConfig} : m.routines[k]? = some ⟨cfg, .checkToken⟩ →
      (m.tokens.lookup cfg.partnerID).getD "" = cfg.botToken → StartStep m [] (m.setRoutine k ⟨cfg, .sleeping⟩)
  | G_Wake {m : Manager} {k : Nat} {cfg : PartnerBotConfig} : m.routines[k]? = some ⟨cfg, .sleeping⟩ →
      StartStep m [] (m.setRoutine k ⟨cfg, .creating⟩)

inductive LoadStep : Manager → List Event → Manager → Prop
  | L_Refused {m : Manager} {ph : Phase} {err : String} (resp : Http GetBotsResponse) :
      m.loader = .fetching ph → getTelegramBots resp = .error err →
      LoadStep m [.loadFailed s!"fetch bot configs: {err}"] { m with loader := ph.failed }
  | L_Loaded {m : Manager} {ph : Phase} {configs : List PartnerBotConfig} (resp : Http GetBotsResponse) :
      m.loader = .fetching ph → getTelegramBots resp = .ok configs →
      LoadStep m [.loaded configs] { m with loader := .syncing ph [] configs }
  | L_Sync {m : Manager} {ph : Phase} {passed rest : List PartnerBotConfig} {cfg : PartnerBotConfig} :
      m.loader = .syncing ph passed (cfg :: rest) →
      LoadStep m [.synced cfg] { m.syncBot cfg with loader := .syncing ph (passed ++ [cfg]) rest }
  | L_Sweep {m : Manager} {ph : Phase} {passed : List PartnerBotConfig} : m.loader = .syncing ph passed [] →
      LoadStep m [.swept passed] { m.removeInactive (passed.map (·.partnerID)) with loader := .selecting }
  | L_Retry {m : Manager} {attempt : Nat} : m.loader = .waiting attempt →
      LoadStep m [] { m with loader := nextAttempt attempt }
  | L_Cancelled {m : Manager} {attempt : Nat} : m.loader = .waiting attempt → m.ctxDone = true →
      LoadStep m [] { m with loader := .exited }
  -- the tick may be taken although the context is done as well
  | L_Tick {m : Manager} : m.loader = .selecting → LoadStep m [] { m with loader := .fetching .reloading }
  | L_Done {m : Manager} : m.loader = .selecting → m.ctxDone = true → LoadStep m [] { m with loader := .exited }

/-- The owner of the manager, the goroutines that mark a bot ready, and the webhook requests. -/
inductive OuterStep : Manager → List Event → Manager → Prop
  | M_Cancel {m : Manager} : OuterStep m [.ctxDone] { m with ctxDone := true }
  | M_Stop {m : Manager} : OuterStep m [.stopped] m.stop
  | M_Ready {m : Manager} {partnerID : String} : partnerID ∈ m.readying →
      OuterStep m [.markedReady partnerID]
        { m with ready := m.ready.insert partnerID true, readying := m.readying.erase partnerID }
  | M_Webhook {m : Manager} (partnerID : String) :
      OuterStep m [.webhook partnerID (m.handleWebhook partnerID)] m

inductive Step : Manager → List Event → Manager → Prop
  | start {m m' : Manager} {evs : List Event} : StartStep m evs m' → Step m evs m'
  | load {m m' : Manager} {evs : List Event} : LoadStep m evs m' → Step m evs m'
  | outer {m m' : Manager} {evs : List Event} : OuterStep m evs m' → Step m evs m'

end Gopkg.Telegram.Core
