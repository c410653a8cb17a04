import Gopkg.Lts.Run
import Gopkg.Lts.Exec
import Gopkg.Lts.Program
import Gopkg.Lts.Alone
import Gopkg.Lts.Rounds
import Gopkg.Lts.Pool
import Gopkg.Lts.Slots
import Gopkg.Lts.Potential
import Gopkg.Lts.Simulation
import Gopkg.Lts.Audit
import Gopkg.Pacing.Deadlines
import Gopkg.Circuitbreaker.Config
import Gopkg.Circuitbreaker.Breaker
import Gopkg.Circuitbreaker.World
import Gopkg.Circuitbreaker.Lemmas.Breaker
import Gopkg.Circuitbreaker.Lemmas.Recovery
import Gopkg.Circuitbreaker.Lemmas.Periods
import Gopkg.Circuitbreaker.Methods
import Gopkg.Circuitbreaker.Lemmas.Methods
import Gopkg.Circuitbreaker.Lemmas.Counters
import Gopkg.Circuitbreaker.Lemmas.Backoff
import Gopkg.Circuitbreaker.Lemmas.Slots
import Gopkg.Circuitbreaker.Theorems
import Gopkg.Lru.Cache
import Gopkg.Lru.Recency
import Gopkg.Lru.Lemmas.Representation
import Gopkg.Lru.Lemmas.Refinement
import Gopkg.Lru.Lemmas.History
import Gopkg.Lru.Theorems
import Gopkg.Ratelimit.Limiter
import Gopkg.Ratelimit.Theorems
import Gopkg.Ratelimit.Progress
import Gopkg.Workerpool.Pool
import Gopkg.Workerpool.Lemmas.Books
import Gopkg.Workerpool.Lemmas.Execution
import Gopkg.Workerpool.Theorems
import Gopkg.Redis.SortedSet
import Gopkg.Redis.Glob
import Gopkg.Prefix.Longest
import Gopkg.Go.Map
import Gopkg.Stream.Blocks
import Gopkg.Sorting.Stable
import Gopkg.Sorting.Exchange
import Gopkg.Slice.Heap
import Gopkg.Word.Small
import Gopkg.Word.Exact
import Gopkg.Digits.BigEndian
import Gopkg.Digits.Decimal
import Gopkg.Digits.Numeral
import Gopkg.Float.Nearest
import Gopkg.Float.Cents
import Gopkg.Float.Strconv
import Gopkg.Regex.Pattern
import Gopkg.Base64.Standard
import Gopkg.Telegram.State
import Gopkg.Telegram.Text
import Gopkg.Telegram.Handlers
import Gopkg.Telegram.World
import Gopkg.Telegram.Lemmas.Discipline
import Gopkg.Telegram.Lemmas.Ledger
import Gopkg.Telegram.InFlight
import Gopkg.Telegram.Lemmas.InFlight
import Gopkg.Telegram.Gateway
import Gopkg.Telegram.Lemmas.AddCredit
import Gopkg.Telegram.Amount
import Gopkg.Telegram.Lemmas.Question
import Gopkg.Telegram.Support
import Gopkg.Telegram.Lemmas.Support
import Gopkg.Telegram.Desk
import Gopkg.Telegram.Lemmas.Desk
import Gopkg.Telegram.Provenance
import Gopkg.Telegram.Lemmas.Provenance
import Gopkg.Telegram.Account
import Gopkg.Telegram.Lemmas.Account
import Gopkg.Telegram.Theorems
import Gopkg.Telegram.Identity
import Gopkg.Telegram.Session
import Gopkg.Telegram.SessionManager
import Gopkg.Telegram.Lemmas.Language
import Gopkg.Telegram.Ratelimit
import Gopkg.Telegram.Core.Manager
import Gopkg.Telegram.Core.Lemmas.Tables
import Gopkg.Telegram.Core.Lemmas.Sole
import Gopkg.Telegram.Core.Lemmas.Serving
import Gopkg.Telegram.Core.Lemmas.Quiet
import Gopkg.Telegram.Core.Lemmas.Webhook
import Gopkg.Telegram.Core.Theorems
import Gopkg.Ai.Conversation
import Gopkg.Ai.Llm
import Gopkg.Ai.Geminitext
import Gopkg.Ai.Orchestrator
import Gopkg.Ai.Lemmas.History
import Gopkg.Ai.Lemmas.Reads
import Gopkg.Ai.Lemmas.Contents
import Gopkg.Ai.Lemmas.Transcript
import Gopkg.Ai.Lemmas.Outcome
import Gopkg.Ai.Theorems
import Gopkg.Audio.Codec
import Gopkg.Audio.Lemmas.Chunks
import Gopkg.Audio.Lemmas.Mulaw
import Gopkg.Audio.Lemmas.Quantiser
import Gopkg.Audio.Lemmas.Upsample
import Gopkg.Audio.Theorems
import Gopkg.Voice.Itoa
import Gopkg.Voice.CodecBridge
import Gopkg.Voice.Endpoint
import Gopkg.Voice.HoldFiller
import Gopkg.Voice.ToolBatch
import Gopkg.Voice.Session
import Gopkg.Voice.Lemmas.Outcome
import Gopkg.Voice.Lemmas.Dispatch
import Gopkg.Voice.Lemmas.Release
import Gopkg.Voice.Lemmas.ToolBatch
import Gopkg.Voice.Lemmas.ToolProgress
import Gopkg.Voice.Gemini
import Gopkg.Voice.Twilio
import Gopkg.Voice.Lemmas.Reader
import Gopkg.Voice.Lemmas.Reading
import Gopkg.Voice.Lemmas.PhoneCall
import Gopkg.Voice.Lemmas.Stuck
import Gopkg.Voice.Lemmas.AdapterErrors
import Gopkg.Voice.Lemmas.Drive
import Gopkg.Voice.Lemmas.HoldFiller
import Gopkg.Voice.Lemmas.CallerAudio
import Gopkg.Voice.Lemmas.HangUp
import Gopkg.Voice.Lemmas.GeminiTurns
import Gopkg.Voice.Theorems
import Gopkg.Voice.Twilio.Receive
import Gopkg.Voice.Twilio.Theorems
import Gopkg.Voice.Wire.Call
import Gopkg.Voice.Wire.Lemmas.Sends
import Gopkg.Voice.Wire.Lemmas.Tools
import Gopkg.Voice.Wire.Lemmas.Readers
import Gopkg.Voice.Wire.Theorems
import Gopkg.Voice.HoldTone
import Gopkg.Voice.Tone
import Gopkg.Voice.Whatsapp.Transport
import Gopkg.Voice.Whatsapp.Lemmas.Framing
import Gopkg.Voice.Whatsapp.Lemmas.BargeIn
import Gopkg.Voice.Whatsapp.Pacer
import Gopkg.Voice.Whatsapp.Lemmas.Pacing
import Gopkg.Voice.Whatsapp.Lemmas.Playback
import Gopkg.Voice.Lemmas.Source
import Gopkg.Voice.Whatsapp.Receive
import Gopkg.Voice.Whatsapp.Lemmas.Receive
import Gopkg.Voice.Whatsapp.Theorems
import Gopkg.Router.SmsRouter
import Gopkg.Router.Theorems
import Gopkg.Communication.Registry
import Gopkg.Digits.Hex
import Gopkg.Communication.MetaWebhook
import Gopkg.Sms.Twilio
import Gopkg.Push.Multicast
import Gopkg.Sqlbuilder.Builder
import Gopkg.Sqlbuilder.Query
import Gopkg.Sqlbuilder.Lemmas.Refinement
import Gopkg.Sqlbuilder.Lemmas.Placeholders
import Gopkg.Sqlbuilder.Lemmas.Erasure
import Gopkg.Sqlbuilder.Theorems
import Gopkg.Clock.Mock
import Gopkg.Clock.Timers
import Gopkg.Clock.Theorems
import Gopkg.PendingQueue.Queue
import Gopkg.PendingQueue.Theorems
import Gopkg.FilterPipeline.Run
import Gopkg.FilterPipeline.Theorems
import Gopkg.I18n.Localized
import Gopkg.Paymentgateway.Callback
import Gopkg.Paymentgateway.Segments
import Gopkg.Fx.Memory
import Gopkg.Id.Uuid
import Gopkg.Id.Theorems
import Gopkg.Stringcase.Split
import Gopkg.Stringcase.Lemmas.Split
import Gopkg.Stringcase.Lemmas.Positions
import Gopkg.Stringcase.Lemmas.Digits
import Gopkg.Stringcase.Theorems
import Gopkg.Money.Money
import Gopkg.Money.Theorems
import Gopkg.Slicex.Chunk
import Gopkg.Go.Backoff
import Gopkg.Retry.Retry
import Gopkg.Retry.Theorems
import Gopkg.Httpx.Client
import Gopkg.Httpx.Theorems
import Gopkg.Httpx.Middleware
import Gopkg.Errorsx.Errors
import Gopkg.Errorsx.Theorems
