import CapabilityBroker.Error
import CapabilityBroker.Time.Duration
/-!
# Work with a known course

A piece of work that takes a given time and ends in a given way: with a
result, with an error, or by a panic, which ends everything that waits for
it as well. Scripts of such pieces stand for operations whose course is
not the library's to decide.
-/

namespace CapabilityBroker

/-- How a piece of work ends. -/
inductive Reply (α : Type) where
  | done (result : Except Error α)
  | panicked

/-- A piece of work: the time it takes, if it ends at all, and how it
ends. -/
structure Work (α : Type) where
  delay : Option Nat
  reply : Reply α

namespace Work

variable {α : Type}

/-- The instant at which work begun at an instant is done. Work that takes
no time is done at once; any other is done when its timer rings. -/
def readyAt (w : Work α) (start : Nat) : Option Nat :=
  w.delay.map (Instant.after start)

/-- The piece of a script for a call: scripts go on with their last
piece. -/
def inScript (script : List (Work α)) (n : Nat) : Option (Work α) :=
  match script[n]? with
  | some w => some w
  | none => script.getLast?

end Work

end CapabilityBroker
