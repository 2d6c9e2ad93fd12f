import CapabilityBroker.Retry.Basic
/-!
# What comes of a retried operation

An operation that has come to an end is told in one of two ways: as a
result, in which a transient error is wrapped with the number of attempts,
or as an outcome that says how many attempts there were and leaves the error
as it is.
-/

namespace CapabilityBroker

/-- What came of an operation. -/
structure RetryOutcome (α : Type) where
  /-- The value, if an attempt succeeded. -/
  result : Option α
  /-- The error of the last attempt, if none succeeded. -/
  error : Option Error
  attempts : Nat
  successful : Bool

namespace RetryOutcome

variable {α : Type}

/-- The outcome of so many attempts, the last one with a result. -/
def ofResult (attempts : Nat) : Except Error α → RetryOutcome α
  | .ok v => ⟨some v, none, attempts, true⟩
  | .error e => ⟨none, some e, attempts, false⟩

/-- The result of an outcome, without the number of attempts. -/
def intoResult (o : RetryOutcome α) : Except Error α :=
  match o.result, o.error with
  | some v, _ => .ok v
  | none, some e => .error e
  | none, none => .error (.capability "retry finished without a result")

end RetryOutcome

namespace RetryPolicy

namespace Run

variable {α : Type}

/-- The number of attempts. -/
def attempts (r : Run α) : Nat := r.starts.length

/-- The result of the last attempt, if it ends and does not panic. -/
def result? (r : Run α) : Option (Except Error α) :=
  match r.reply with
  | some (.done result) => some result
  | _ => none

/-- What an operation is told to have come to: a transient error is
wrapped. -/
def wrapped? (r : Run α) : Option (Except Error α) :=
  r.result?.map (·.mapError (exhausted r.attempts))

/-- The outcome of an operation. -/
def outcome? (r : Run α) : Option (RetryOutcome α) :=
  r.result?.map (.ofResult r.attempts)

end Run

end RetryPolicy

end CapabilityBroker
