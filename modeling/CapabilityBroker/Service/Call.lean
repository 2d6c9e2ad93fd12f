import CapabilityBroker.Service.Basic
import CapabilityBroker.Service.Events
/-!
# Calls

The course of a call through a service. A call passes the gates in their
order: disposal, validation, rate limit, cache and circuit; each of them
may end it. Behind the gates it asks the resolver, up to a number of times
and always holding the lock, and what comes of it goes to the circuit, the
cache and the caller.

`ask` takes a call as far as it gets without waiting. From there it goes
on by `poll?`, when the lock is handed to it or a time has come, by
`reply?`, when the resolver replies, and by `abandon?`, when its caller
gives up.
-/

namespace CapabilityBroker

namespace Service

variable {α : Type} [Scalar α]

/-! ## The end of a call -/

/-- The status under which a result is counted. -/
def statusOf : Except Error CapabilitySet → String
  | .ok _ => "ok"
  | .error e => e.code

/-- Whether the duration of a call is recorded. -/
def recordsDuration (host : Host) (rate : Float) (id : Nat) : Bool :=
  if 1.0 ≤ rate then true else if rate ≤ 0.0 then false else host.samples id

/-- What is reported of every result. -/
def resultSignals (recorded : Bool) (elapsed : Nat) (result : Except Error CapabilitySet) :
    List Signal :=
  .count (.requests (statusOf result)) ::
    if recorded then [.duration (Binary64.seconds elapsed)] else []

/-- A failure is logged and handed to the sink, unless the service was
shut down. -/
def reportFailure (host : Host) (s : Service α) (now : Nat) (r : Request) (e : Error) :
    Service α :=
  if e = .disposed then s
  else (s.report now [.log (r.failureLine e)]).capture host now (.failed e r.browserEnabled)

/-- What a result that is an error has for a consequence. -/
def reportResult (host : Host) (s : Service α) (now : Nat) (r : Request) :
    Except Error CapabilitySet → Service α
  | .ok _ => s
  | .error e => s.reportFailure host now r e

/-- A call that began at an instant ends with a result. -/
def answer (host : Host) (s : Service α) (now id : Nat) (r : Request) (start : Nat)
    (result : Except Error CapabilitySet) : Service α :=
  let recorded := recordsDuration host s.settings.sampleRate id
  (((s.report now (resultSignals recorded (now - start) result)).reportResult host now r
    result).dropCall id).note now (.answered id result)

/-- The circuit learns how a call ended. -/
def recordOutcome (s : Service α) (now id : Nat) (succeeded : Bool) : Service α :=
  let breaker := if succeeded then s.breaker.recordSuccess now else s.breaker.recordFailure now
  ({ s with breaker }.report now (CircuitBreaker.signals s.breaker breaker)).note now
    (.recorded id succeeded)

/-- The answer of the resolver to a call is stored. -/
def store (s : Service α) (now id : Nat) (k : CacheKey) (v : CapabilitySet) : Service α :=
  let (cache, stored) := s.cache.insert now k v
  ({ s with cache }.report now (stored.signals cache.budget.maxBytes)).note now
    (.stored id k v stored.isKept)

/-- The last attempt of a call is over. -/
def settle (host : Host) (s : Service α) (now id : Nat) (c : Call) :
    Except Error CapabilitySet → Service α
  | .ok v =>
    let s := (s.recordOutcome now id true).store now id c.request.cacheKey v
    (s.capture host now (.determined host.resolverName v.size c.request.browserEnabled)).answer
      host now id c.request c.start (.ok v)
  | .error e =>
    (s.recordOutcome now id false).answer host now id c.request c.start
      (.error (RetryPolicy.exhausted c.attempt e).root)

/-! ## Attempts -/

/-- An attempt of a call is over: either it was the last one, or there is
another after a pause. -/
def endAttempt (host : Host) (s : Service α) (now id : Nat) (c : Call)
    (result : Except Error CapabilitySet) : Service α :=
  let s := s.note now (.attempted id result)
  match s.settings.retry.verdict (host.draws id c.attempt) c.attempt result, result with
  | .again delay, .error e =>
    (s.report now (s.settings.retry.signals operation c.attempt delay e)).setCall id
      { c with stage := .pausing (Instant.after now delay) }
  | _, _ => s.settle host now id c result

/-- The resolver is asked for a call that has the lock. -/
def invoke (s : Service α) (now id : Nat) (c : Call) (limit : Option WaitLimit) : Service α :=
  ({ s with invocations := s.invocations + 1 }.setCall id
    { c with stage := .resolving s.invocations now limit }).note now
    (.invoked id c.request.cacheKey)

/-- An attempt of a call begins: it gets in line for the lock. -/
def beginAttempt (s : Service α) (now id : Nat) (c : Call) : Service α :=
  let limit := s.settings.retry.attemptTimeout.map (WaitLimit.of now)
  let (lock, acquired) := s.lock.enter now s.settings.lockTimeout id
  if acquired then { s with lock }.invoke now id c limit
  else { s with lock }.setCall id { c with stage := .waiting limit }

/-! ## The gates -/

/-- A call comes to the circuit. -/
def enterCircuit (host : Host) (s : Service α) (now id : Nat) (r : Request) : Service α :=
  let (breaker, reception) := s.breaker.receive now
  let s := { s with breaker }.report now (CircuitBreaker.signals s.breaker breaker)
  if reception = .refused then s.answer host now id r now (.error .serviceUnavailable)
  else
    let isTrial := reception = .trial
    (s.note now (.passed id isTrial)).beginAttempt now id ⟨r, now, isTrial, 1, .pausing now⟩

/-- A call comes to the cache. -/
def enterCache (host : Host) (s : Service α) (now id : Nat) (r : Request) : Service α :=
  let (cache, found) := s.cache.get now r.cacheKey
  let s := { s with cache }.report now found.signals
  match found with
  | .hit v => s.answer host now id r now (.ok v)
  | _ => s.enterCircuit host now id r

/-- A call comes to the rate limit. One that is refused is told when there
will be a token. -/
def enterBucket (host : Host) (s : Service α) (now id : Nat) (r : Request) : Service α :=
  let (bucket, passes) := s.bucket.consume now
  let s := s.note now (.rated id passes)
  if passes then { s with bucket }.enterCache host now id r
  else
    let (bucket, wait) := bucket.timeUntilNext now
    ({ s with bucket }.report now [.count .rateLimited]).answer host now id r now
      (.error (.rateLimited (some wait)))

/-- A call begins, and goes as far as it gets without waiting. -/
def ask (host : Host) (s : Service α) (now : Nat) (r : Request) : Service α :=
  let id := s.asked
  let s := { s with asked := id + 1 }.note now (.asked id r)
  if s.isDisposed then s.answer host now id r now (.error .disposed)
  else match s.settings.validation.check r with
    | .error e => s.answer host now id r now (.error e)
    | .ok _ => s.enterBucket host now id r

/-! ## The course of a call -/

/-- A call leaves the lock, whatever it has of it. -/
def leaveLock (s : Service α) (id : Nat) : Service α := { s with lock := s.lock.leave id }

/-- Whether the limit of an attempt is reached. -/
def isOver (now : Nat) (limit : Option WaitLimit) : Bool :=
  Instant.hasCome now (limit.map (·.deadline))

/-- The error of an attempt whose limit is reached. -/
def attemptTimeout (limit : Option WaitLimit) : Error :=
  .timeout operation ((limit.map (·.after)).getD 0)

/-- A call goes on, if it can: it has been handed the lock, it has waited
for it too long, the attempt has taken too long, or the pause is over. -/
def poll? (host : Host) (s : Service α) (now id : Nat) : Option (Service α) := do
  let c ← s.call? id
  match c.stage with
  | .waiting limit =>
    match s.lock.look now id with
    | (lock, .acquired) => some ({ s with lock }.invoke now id c limit)
    | (lock, .timedOut after) =>
      some ({ s with lock }.endAttempt host now id c (.error (.lockTimeout after)))
    | _ =>
      if isOver now limit then
        some ((s.leaveLock id).endAttempt host now id c (.error (attemptTimeout limit)))
      else none
  | .resolving _ _ limit =>
    if isOver now limit then
      some ((s.leaveLock id).endAttempt host now id c (.error (attemptTimeout limit)))
    else none
  | .pausing wakeAt =>
    if now < wakeAt then none
    else some (s.beginAttempt now id { c with attempt := c.attempt + 1 })

/-- A call ends without a result, and a trial gives up its place. -/
def giveUp (s : Service α) (now id : Nat) (c : Call) (o : Occurrence) : Service α :=
  let breaker := if c.isTrial then s.breaker.releaseTrial else s.breaker
  ({ s.leaveLock id with breaker }.dropCall id).note now o

/-- The resolver replies to a call, if it was asked for it. -/
def reply? (host : Host) (s : Service α) (now id : Nat) (reply : Reply CapabilitySet) :
    Option (Service α) := do
  let c ← s.call? id
  match c.stage, reply with
  | .resolving .., .done result => some ((s.leaveLock id).endAttempt host now id c result)
  | .resolving .., .panicked => some (s.giveUp now id c (.panicked id))
  | _, _ => none

/-- The caller of a call gives up, if the call is on its way. -/
def abandon? (s : Service α) (now id : Nat) : Option (Service α) := do
  let c ← s.call? id
  return s.giveUp now id c (.abandoned id)

end Service

end CapabilityBroker
