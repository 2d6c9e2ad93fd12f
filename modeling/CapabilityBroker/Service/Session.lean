import CapabilityBroker.Resolver
import CapabilityBroker.Service.History
import CapabilityBroker.Time.Timeline
/-!
# Sessions of a service

A service at work on a clock: callers that ask it, a resolver whose work
has a known course, and a memory with a known reading. Each caller rests
for a while, asks, and may give up after a while. The callers go on in
their order; the tickers of the service go on after them, in the order of
their timers, and only for as long as there is something to wait for.
-/

namespace CapabilityBroker

namespace Service

/-- What a session of a service goes by. -/
structure Scenario where
  host : Host
  resolver : Resolver
  reading : Except Error MemoryUsage

/-- A caller: what it asks, how long it rests before it does, and for how
long it waits for the answer. -/
structure Caller where
  request : Request
  rest : Nat
  patience : Option Nat

/-- What a caller is doing. -/
inductive Caller.Stage where
  | resting (wakeAt : Nat)
  | calling (call : Nat) (abandonAt : Option Nat)
  | done (call : Nat)

/-- A session: the service, and what the callers are doing. -/
structure Session (α : Type) where
  service : Service α
  callers : List (Caller × Caller.Stage)

variable {α : Type} [Scalar α]

/-- How a call ended. -/
inductive Ending where
  | answered (result : Except Error CapabilitySet)
  | abandoned
  | panicked

/-- The ending of a call that an occurrence is. -/
def Occurrence.ending? (id : Nat) : Occurrence → Option Ending
  | answered call result => if call = id then some (.answered result) else none
  | abandoned call => if call = id then some .abandoned else none
  | panicked call => if call = id then some .panicked else none
  | _ => none

/-- How and when a call ended. -/
def ending? (s : Service α) (id : Nat) : Option (Nat × Ending) :=
  s.journal.findSome? fun l => (l.occurrence.ending? id).map (l.time, ·)

namespace Session

/-- A caller goes over to another stage. -/
def setStage (s : Session α) (i : Nat) (stage : Caller.Stage) : Session α :=
  { s with callers := s.callers.modify i fun c => (c.1, stage) }

/-- The instant at which the resolver replies to a call, and the reply. -/
def replyOf (sc : Scenario) (c : Call) : Option Nat × Reply CapabilitySet :=
  match c.stage with
  | .resolving invocation since _ =>
    let work := sc.resolver.work invocation c.request
    (work.readyAt since, work.reply)
  | _ => (none, .panicked)

/-- A call goes on, if it can. A reply that is there counts even if a time
is over at the same instant, and the patience of the caller ends last. -/
def proceedCall (sc : Scenario) (now id : Nat) (abandonAt : Option Nat) (s : Service α)
    (c : Call) : Option (Service α) :=
  let (readyAt, reply) := replyOf sc c
  if Instant.hasCome now readyAt then s.reply? sc.host now id reply
  else match s.poll? sc.host now id with
    | some s => some s
    | none => if Instant.hasCome now abandonAt then s.abandon? now id else none

/-- What a caller does at an instant. -/
def proceedCaller (sc : Scenario) (now i : Nat) (s : Session α) : Option (Session α) :=
  match s.callers[i]? with
  | none => none
  | some (caller, .resting wakeAt) =>
    if now < wakeAt then none
    else some ({ s with service := s.service.ask sc.host now caller.request }.setStage i
      (.calling s.service.asked (caller.patience.map (Instant.deadline now))))
  | some (_, .calling id abandonAt) =>
    match s.service.call? id with
    | none => some (s.setStage i (.done id))
    | some c => (proceedCall sc now id abandonAt s.service c).map fun service => { s with service }
  | some (_, .done _) => none

/-- What the tasks of a session do: the callers, and behind them the
tickers. -/
def proceed (sc : Scenario) (now i : Nat) (s : Session α) : Option (Session α) :=
  if i < s.callers.length then proceedCaller sc now i s
  else (s.service.tick? sc.host now sc.reading).map fun service => { s with service }

/-- The instants at which a call may have something to do. -/
def callTimers (sc : Scenario) (s : Service α) (id : Nat) (c : Call) : List Nat :=
  match c.stage with
  | .waiting limit =>
    (limit.map (·.deadline)).toList ++ ((s.lock.waitOf? id).join.map (·.deadline)).toList
  | .resolving _ _ limit => (limit.map (·.deadline)).toList ++ (replyOf sc c).1.toList
  | .pausing wakeAt => [wakeAt]

/-- The instants at which a caller may have something to do. -/
def callerTimers (sc : Scenario) (s : Service α) : Caller.Stage → List Nat
  | .resting wakeAt => [wakeAt]
  | .calling id abandonAt =>
    abandonAt.toList ++ match s.call? id with
      | none => []
      | some c => callTimers sc s id c
  | .done _ => []

/-- The instants at which the tickers ring. -/
def tickerTimers (s : Service α) : List Nat :=
  (s.sweeper.map (·.timer)).toList ++ (s.watcher.map (·.timer)).toList

/-- Whether a caller is done. -/
def isDone : Caller × Caller.Stage → Bool
  | (_, .done _) => true
  | _ => false

/-- The timeline of a session that goes on until all callers are done, and
at least up to an instant. -/
def timeline (sc : Scenario) (last : Nat) : Timeline (Session α) where
  tasks s := s.callers.length + 1
  proceed := proceed sc
  timers s :=
    last :: (s.callers.flatMap (fun c => callerTimers sc s.service c.2) ++ tickerTimers s.service)
  finished now s := last ≤ now && s.callers.all isDone

/-- The most steps of one caller: each attempt begins, is granted the lock
and ends, and the caller begins, gives up and is done. -/
def stepsPerCaller (p : RetryPolicy) : Nat := 3 * p.maxAttempts + 3

/-- The longest time that one caller keeps a session going: its attempts,
each with its work and the pause behind it. -/
def longestCall (sc : Scenario) (p : RetryPolicy) (c : Caller) : Nat :=
  c.rest + p.maxAttempts * (sc.resolver.longestWork + 2 * p.maxDelay + Duration.ofMillis 3)

/-- Lets the callers ask a service, and time pass up to an instant. All
happens at whole milliseconds, which bounds the number of instants. -/
def run (sc : Scenario) (s : Service α) (now last : Nat) (callers : List Caller) :
    Nat × Session α :=
  let policy := s.settings.retry
  let steps := callers.length * stepsPerCaller policy + Ticker.ringLimit
  let span := (last - now) + callers.foldl (fun d c => d + longestCall sc policy c) 0
  (timeline sc last).run steps (Duration.millis span + callers.length + 2) now
    ⟨s, callers.map fun c => (c, .resting (Instant.after now c.rest))⟩

/-- How the calls of a session ended. -/
def endings (s : Session α) : List (Option (Nat × Ending)) :=
  s.callers.map fun c => match c.2 with
    | .done id => s.service.ending? id
    | _ => none

end Session

/-- Starts a service in a scenario. A monitor that runs by itself checks at
once. -/
def Scenario.start? (sc : Scenario) (settings : ServiceSettings)
    (canReclaim background : Bool) (now : Nat) : Except Error (Service α) :=
  (Service.start? sc.host settings canReclaim background true now).map fun s =>
    (s.watchTick? sc.host now sc.reading).getD s

/-- Lets time pass for a service. -/
def Scenario.sleep (sc : Scenario) (s : Service α) (now duration : Nat) : Nat × Service α :=
  let (now, session) := Session.run sc s now (Instant.after now duration) []
  (now, session.service)

/-- Lets callers ask a service until all are done, and tells how their
calls ended. -/
def Scenario.ask (sc : Scenario) (s : Service α) (now : Nat) (callers : List Caller) :
    Nat × Service α × List (Option (Nat × Ending)) :=
  let (now, session) := Session.run sc s now now callers
  (now, session.service, session.endings)

end Service

end CapabilityBroker
