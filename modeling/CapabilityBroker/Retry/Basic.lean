import CapabilityBroker.Redaction
import CapabilityBroker.Retry.Backoff
import CapabilityBroker.Telemetry.Signal
import CapabilityBroker.Work
/-!
# Retrying

An operation that fails in a transient way is tried again, up to a number
of attempts and with growing delays between them. An attempt may have a
limit in time; one that exceeds it fails with a timeout, which is
transient. `RetryPolicy.verdict` is the decision after one attempt, and
`RetryPolicy.run` follows an operation through all of them.
-/

namespace CapabilityBroker

/-- How an operation is retried. -/
structure RetryPolicy where
  /-- Attempts after the first one. -/
  maxRetries : Nat := 2
  /-- The delay after the first attempt. -/
  initialDelay : Nat := Duration.ofSecs 1
  /-- By what the delay grows with each attempt. -/
  backoffFactor : Float := 2.0
  /-- The greatest delay. -/
  maxDelay : Nat := Duration.ofSecs 30
  /-- Whether chance changes the delays. -/
  jitter : Bool := true
  /-- How long an attempt may take. -/
  attemptTimeout : Option Nat := some (Duration.ofSecs 5)
  deriving BEq

namespace RetryPolicy

/-- The policy that tries once. -/
def disabled : RetryPolicy := { maxRetries := 0 }

/-- The greatest number of attempts that can be counted. -/
def attemptLimit : Nat := UInt32.size - 1

/-- The number of attempts in all. -/
def maxAttempts (p : RetryPolicy) : Nat := min (p.maxRetries + 1) attemptLimit

/-- The delay after a failed attempt, before chance has its say. -/
def delayAfter (p : RetryPolicy) (attempt : Nat) : Nat :=
  Backoff.delay p.initialDelay p.maxDelay p.backoffFactor attempt

/-- The delay after a failed attempt. No delay at all is not changed. -/
def effectiveDelay (p : RetryPolicy) (draw : Backoff.Draw) (attempt : Nat) : Nat :=
  let delay := p.delayAfter attempt
  if !p.jitter || delay = 0 then delay else Backoff.jittered draw delay

/-- What happens after an attempt. -/
inductive Verdict where
  /-- Its outcome is the outcome of the operation. -/
  | final
  /-- The operation is tried again after a delay. -/
  | again (delay : Nat)
  deriving DecidableEq, Repr

/-- The decision after an attempt: a transient error is followed by
another attempt as long as there are any left. -/
def verdict {α : Type} (p : RetryPolicy) (draw : Backoff.Draw) (attempt : Nat) :
    Except Error α → Verdict
  | .ok _ => .final
  | .error e =>
    if e.isRetryable && attempt < p.maxAttempts then .again (p.effectiveDelay draw attempt)
    else .final

/-- What is reported when an attempt is followed by another. -/
def signals (p : RetryPolicy) (operation : String) (attempt delay : Nat) (e : Error) :
    List Signal :=
  [.count (.retries operation),
   .log ⟨.warn, "retrying after transient error",
    [("operation", .text operation), ("attempt", .nat attempt),
     ("max_attempts", .nat p.maxAttempts), ("delay_ms", .nat (Duration.millis delay)),
     ("code", .text e.code), ("error", .text (Redaction.error e))]⟩]

/-- The error of an operation whose last attempt failed: a transient one
is wrapped, with the number of attempts. -/
def exhausted (attempts : Nat) (e : Error) : Error :=
  if e.isRetryable then .retryExhausted attempts e else e

/-- When an attempt begun at an instant ends, and how: with its own
outcome if that is there by the deadline, and otherwise, at the deadline,
with a timeout. Nothing, if it never ends. -/
def attemptEnd? {α : Type} (p : RetryPolicy) (operation : String) (w : Work α) (start : Nat) :
    Option (Nat × Reply α) :=
  match w.readyAt start, p.attemptTimeout with
  | ready, none => ready.map (·, w.reply)
  | ready, some after =>
    let deadline := Instant.deadline start after
    match ready with
    | some t =>
      if t ≤ deadline then some (t, w.reply)
      else some (deadline, .done (.error (.timeout operation after)))
    | none => some (deadline, .done (.error (.timeout operation after)))

/-- The course of an operation: when its attempts began, how it ended and
when, and what was reported. The reply is missing if the last attempt
never ends. -/
structure Run (α : Type) where
  starts : List Nat
  finish : Nat
  reply : Option (Reply α)
  signals : List Signal

/-- An operation tried from an attempt on, which begins at an instant. -/
def runFrom {α : Type} (p : RetryPolicy) (operation : String) (draws : Nat → Backoff.Draw)
    (script : Nat → Work α) : (left attempt start : Nat) → Run α
  | 0, _, start => ⟨[], start, none, []⟩
  | left + 1, attempt, start =>
    match p.attemptEnd? operation (script attempt) start with
    | none => ⟨[start], start, none, []⟩
    | some (t, .panicked) => ⟨[start], t, some .panicked, []⟩
    | some (t, .done result) =>
      match p.verdict (draws attempt) attempt result, result with
      | .again delay, .error e =>
        let rest := runFrom p operation draws script left (attempt + 1)
          (Instant.after t delay)
        { rest with
          starts := start :: rest.starts
          signals := p.signals operation attempt delay e ++ rest.signals }
      | _, _ => ⟨[start], t, some (.done result), []⟩

/-- An operation whose attempts follow a script, the first one being
number one. -/
def run {α : Type} (p : RetryPolicy) (operation : String) (draws : Nat → Backoff.Draw)
    (script : Nat → Work α) (start : Nat) : Run α :=
  p.runFrom operation draws script p.maxAttempts 1 start

end RetryPolicy

end CapabilityBroker
