import CapabilityBroker.Service.Call
import CapabilityBroker.Service.Upkeep
/-!
# Histories

Everything that can happen to a service, as events, and the state after a
history of them. Which events happen, when, and in which order is up to
the surroundings; an event that cannot happen in a state leaves the state
as it is. What is true after every history is true however calls, their
callers, the resolver and the clock interleave.
-/

namespace CapabilityBroker

namespace Service

/-- What happens to a service. -/
inductive Event where
  /-- A call begins. -/
  | ask (request : Request)
  /-- A call looks whether it can go on. -/
  | poll (call : Nat)
  /-- The resolver replies to a call. -/
  | reply (call : Nat) (reply : Reply CapabilitySet)
  /-- The caller of a call gives up. -/
  | abandon (call : Nat)
  | clearCache
  | sweep
  | checkMemory (reading : Except Error MemoryUsage)
  /-- The ticker of the sweep is looked at. -/
  | sweepTick
  /-- The ticker of the monitor is looked at. -/
  | watchTick (reading : Except Error MemoryUsage)
  /-- The rate limit is read. -/
  | readBucket
  | dispose

variable {α : Type} [Scalar α]

/-- The rate limit is read, which mints the tokens that are due. -/
def readBucket (s : Service α) (now : Nat) : Service α × Nat :=
  let (bucket, tokens) := s.bucket.available now
  ({ s with bucket }, tokens)

/-- The state after an event. -/
def step (host : Host) (now : Nat) (s : Service α) : Event → Service α
  | .ask r => s.ask host now r
  | .poll id => (s.poll? host now id).getD s
  | .reply id r => (s.reply? host now id r).getD s
  | .abandon id => (s.abandon? now id).getD s
  | .clearCache => s.clearCache
  | .sweep => s.sweep now
  | .checkMemory reading => s.checkMemory host now reading
  | .sweepTick => (s.sweepTick? now).getD s
  | .watchTick reading => (s.watchTick? host now reading).getD s
  | .readBucket => (s.readBucket now).1
  | .dispose => s.dispose now

/-- The state after a history of events, each with its instant. -/
def run (host : Host) (s : Service α) (events : List (Nat × Event)) : Service α :=
  events.foldl (fun s e => s.step host e.1 e.2) s

/-- The instants of a history are in order, and none is before `now`. -/
def InOrder (now : Nat) (events : List (Nat × Event)) : Prop :=
  (now :: events.map (·.1)).Pairwise (· ≤ ·)

/-- A history that goes on. -/
theorem run_append (host : Host) (s : Service α) (as bs : List (Nat × Event)) :
    s.run host (as ++ bs) = (s.run host as).run host bs := by
  simp [run]

end Service

end CapabilityBroker
