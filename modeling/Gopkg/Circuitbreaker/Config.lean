/-!
# Configuration of the circuit breaker

`circuitbreaker/config.go`. Durations are `time.Duration`, a signed 64-bit number of nanoseconds; the
thresholds and counters are `uint32`.
-/

namespace Gopkg.Circuitbreaker

/-- `BackoffMultiplier`, a `float64`, by the two things the breaker does with it: whether it is positive,
and the duration `time.Duration(float64(d) * BackoffMultiplier)`. -/
structure Multiplier where
  positive : Bool
  scale : Int64 → Int64

/-- The multiplier `m`, for a whole number `m` and products that a `float64` represents exactly. -/
def Multiplier.ofNat (m : Nat) : Multiplier where
  positive := decide (0 < m)
  scale d := Int64.ofInt (d.toInt * m)

structure Config where
  failureThreshold : UInt32
  successThreshold : UInt32
  openTimeout : Int64
  maxOpenTimeout : Int64
  backoffMultiplier : Multiplier
  halfOpenMaxRequests : UInt32
  retryableErrors : List String
  nonRetryableErrors : List String

def second : Int64 := 1000000000
def hour : Int64 := 3600 * second

def defaultConfig : Config where
  failureThreshold := 5
  successThreshold := 2
  openTimeout := 30 * second
  maxOpenTimeout := 1 * hour
  backoffMultiplier := Multiplier.ofNat 2
  halfOpenMaxRequests := 1
  retryableErrors := ["timeout", "connection_refused", "connection_reset", "dns_error", "rate_limited",
    "service_unavailable", "server_error"]
  nonRetryableErrors := ["auth_error", "forbidden", "validation_error", "not_found"]

/-- `IsRetryableError`: explicit NonRetryable, then explicit Retryable, then the default `true`. -/
def Config.isRetryableError (c : Config) (bucket : String) : Bool :=
  if bucket ∈ c.nonRetryableErrors then false
  else if bucket ∈ c.retryableErrors then true
  else true

/-- The guard of `RecordFailure`: a failure in the bucket counts against the failure budget. -/
def Config.counting (c : Config) (bucket : String) : Bool :=
  !(bucket == "" || !c.isRetryableError bucket)

end Gopkg.Circuitbreaker
