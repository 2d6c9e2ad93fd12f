import CapabilityBroker.Time.Scalar
/-!
# Backoff

How long to wait before an operation is tried again. The delay grows by a
constant factor from attempt to attempt, up to a limit; a jitter may
lengthen or shorten it by up to a quarter. The growth is written over any
arithmetic of times (`Scalar`).
-/

namespace CapabilityBroker

namespace Backoff

/-- The greatest exponent that a factor is raised to. -/
def exponentLimit : Nat := 2147483647

/-- The delay after a failed attempt, the first one being number one: the
initial delay times the factor to the number of attempts before, and the
limit where that is not below it or is no number. -/
def delay {α : Type} [Scalar α] (initial limit : Nat) (factor : α) (attempt : Nat) : Nat :=
  let scaled := Scalar.seconds initial * Scalar.power factor (min (attempt - 1) exponentLimit)
  if !Scalar.finite scaled || Scalar.atMost (Scalar.seconds limit) scaled then limit
  else Scalar.span scaled

/-- What chance decides about a jittered delay: the share of it by which
it changes, and whether it becomes longer. -/
structure Draw where
  share : Float
  longer : Bool

/-- The greatest share of a delay that a jitter changes. -/
def jitterShare : Float := 0.25

/-- A delay lengthened or shortened as chance decides, by no more than the
greatest share. -/
def jittered (draw : Draw) (delay : Nat) : Nat :=
  let offset := Binary64.span (Scalar.least draw.share jitterShare * Binary64.seconds delay)
  if draw.longer then delay + offset else delay - offset

end Backoff

end CapabilityBroker
