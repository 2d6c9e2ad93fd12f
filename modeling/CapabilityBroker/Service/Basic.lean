import CapabilityBroker.Lock.Basic
import CapabilityBroker.Request.Codec
import CapabilityBroker.Service.Settings
import CapabilityBroker.Telemetry.Sink
import CapabilityBroker.Time.Ticker
import CapabilityBroker.Work
/-!
# The service

The state of a service: its parts, the calls that are on their way, and a
journal of everything that has occurred, the latest first. The resolver is
not a part of it. The service asks for it, and its replies come from
outside, as does the course of time.

A call that is on its way waits for the lock, for the resolver, or for the
end of a pause between two attempts.
-/

namespace CapabilityBroker

/-- The surroundings of a service: the name of its resolver, its event
sink, and chance, which picks the calls whose durations are recorded and
the jitter of the pauses. -/
structure Host where
  resolverName : String
  sink : Sink
  samples : (call : Nat) → Bool
  draws : (call attempt : Nat) → Backoff.Draw

namespace Service

/-- Where a call is. The limit is that of the current attempt. -/
inductive Stage where
  /-- In line for the lock. -/
  | waiting (limit : Option WaitLimit)
  /-- At the resolver, which was asked at an instant; the askings of a
  service are numbered. -/
  | resolving (invocation since : Nat) (limit : Option WaitLimit)
  /-- Between two attempts. -/
  | pausing (wakeAt : Nat)
  deriving DecidableEq, Repr

/-- A call on its way: what is asked, since when, whether it is the trial
of the circuit, the number of the current attempt, and where it is. -/
structure Call where
  request : Request
  start : Nat
  isTrial : Bool
  attempt : Nat
  stage : Stage
  deriving DecidableEq, Repr

/-- What occurs in a service. Calls are named by their numbers. -/
inductive Occurrence where
  /-- A call begins. -/
  | asked (call : Nat) (request : Request)
  /-- The rate limit lets a call pass, for a token, or refuses it. -/
  | rated (call : Nat) (passes : Bool)
  /-- The circuit lets a call pass. -/
  | passed (call : Nat) (isTrial : Bool)
  /-- The resolver is asked for a call. -/
  | invoked (call : Nat) (key : CacheKey)
  /-- An attempt of a call ends. -/
  | attempted (call : Nat) (result : Except Error CapabilitySet)
  /-- The circuit learns how a call went. -/
  | recorded (call : Nat) (succeeded : Bool)
  /-- The answer of the resolver is stored, or is refused by the cache. -/
  | stored (call : Nat) (key : CacheKey) (value : CapabilitySet) (kept : Bool)
  /-- A call ends with a result. -/
  | answered (call : Nat) (result : Except Error CapabilitySet)
  /-- A call ends because its caller gave up. -/
  | abandoned (call : Nat)
  /-- A call ends because the resolver panicked. -/
  | panicked (call : Nat)
  /-- Memory is asked to be reclaimed. -/
  | reclaimed
  /-- Something is reported. -/
  | reported (signal : Signal)

/-- A line of the journal. -/
structure JournalLine where
  time : Nat
  occurrence : Occurrence

end Service

/-- A service. -/
structure Service (α : Type) where
  settings : ServiceSettings
  lock : Lock Nat
  bucket : TokenBucket α
  breaker : CircuitBreaker
  cache : Cache
  monitor : PressureMonitor
  isDisposed : Bool
  /-- The tickers of the sweep and of the monitor, while they run. -/
  sweeper : Option Ticker
  watcher : Option Ticker
  /-- The calls on their way, by their numbers. -/
  calls : List (Nat × Service.Call)
  /-- How many calls have begun, which is the number of the next one. -/
  asked : Nat
  /-- How often the resolver has been asked. -/
  invocations : Nat
  /-- How many events the sink has been handed. -/
  captured : Nat
  journal : List Service.JournalLine

namespace Service

variable {α : Type} [Scalar α]

/-- The label of the retried operation. -/
def operation : String := "resolve_capabilities"

/-! ## The calls -/

/-- The call of a number, if it is on its way. -/
def call? (s : Service α) (id : Nat) : Option Call := (s.calls.find? (·.1 = id)).map (·.2)

/-- A call takes the place of the one of that number. -/
def setCall (s : Service α) (id : Nat) (c : Call) : Service α :=
  { s with calls := (id, c) :: s.calls.filter (·.1 ≠ id) }

/-- A call is not on its way any more. -/
def dropCall (s : Service α) (id : Nat) : Service α :=
  { s with calls := s.calls.filter (·.1 ≠ id) }

/-! ## The journal -/

/-- Something occurs. -/
def note (s : Service α) (now : Nat) (o : Occurrence) : Service α :=
  { s with journal := ⟨now, o⟩ :: s.journal }

/-- Several things are reported, one after the other. -/
def report (s : Service α) (now : Nat) (signals : List Signal) : Service α :=
  { s with journal := (signals.map fun x => ⟨now, .reported x⟩).reverse ++ s.journal }

/-- An event is handed to the sink. Whatever the sink makes of it, nothing
but the log shows it. -/
def capture (host : Host) (s : Service α) (now : Nat) (e : TelemetryEvent) : Service α :=
  { s.report now (.event e :: ((host.sink s.captured e).lines e).map .log) with
    captured := s.captured + 1 }

/-- What has occurred, the earliest first. -/
def history (s : Service α) : List JournalLine := s.journal.reverse

/-- What has been reported, in order. -/
def signals (s : Service α) : List Signal :=
  s.history.filterMap fun l => match l.occurrence with
    | .reported x => some x
    | _ => none

/-! ## The beginning -/

/-- A service that nobody has called yet, without tickers. -/
def idle (settings : ServiceSettings) (canReclaim : Bool) (now : Nat) : Service α where
  settings
  lock := .free
  bucket := .full settings.rateLimit now
  breaker := .new settings.breaker now
  cache := .new settings.cache
  monitor := .new settings.memory canReclaim
  isDisposed := false
  sweeper := none
  watcher := none
  calls := []
  asked := 0
  invocations := 0
  captured := 0
  journal := []

/-- What the start of a service reports. -/
def startSignals (host : Host) : List Signal :=
  [.log ⟨.debug, "capability service started", [("resolver", .text host.resolverName)]⟩]

/-- A service that starts. With tickers, the first sweep is a whole period
away, and the monitor is to check at once. -/
def start (host : Host) (settings : ServiceSettings) (canReclaim background : Bool) (now : Nat) :
    Service α :=
  let s : Service α := idle settings canReclaim now
  let s := if background then
      { s with
        sweeper := Ticker.starting? now settings.sweepInterval settings.sweepInterval
        watcher := Ticker.starting? now 0 settings.memory.sampleInterval }
    else s
  s.report now (startSignals host)

/-- The error that tickers have nothing to run on. -/
def noRuntime : Error := .configuration "background tasks require a tokio runtime"

/-- Starts a service if its settings are usable, and if there is a runtime
for its tickers where it is to have them. -/
def start? (host : Host) (settings : ServiceSettings) (canReclaim background runtime : Bool)
    (now : Nat) : Except Error (Service α) :=
  match settings.check with
  | .error e => .error e
  | .ok _ =>
    if background && !runtime then .error noRuntime
    else .ok (start host settings canReclaim background now)

end Service

end CapabilityBroker
