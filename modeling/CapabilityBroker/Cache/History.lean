import CapabilityBroker.Cache.Basic
/-!
# Histories of a cache

Everything that is done to a cache, as events, with what is reported of
each, and the cache after a history of them. Each event has its instant,
and nothing is asked of the instants.
-/

namespace CapabilityBroker

namespace Cache

/-- What is done to a cache. -/
inductive Event where
  /-- A value is stored under a key. -/
  | insert (key : CacheKey) (value : CapabilitySet)
  /-- A key is looked up. -/
  | get (key : CacheKey)
  /-- It is asked whether a key has a living entry, which changes nothing. -/
  | contains (key : CacheKey)
  /-- The entry of a key is removed. -/
  | remove (key : CacheKey)
  | purge
  | reduce
  | clear

/-- The cache after an event. -/
def step (now : Nat) (c : Cache) : Event → Cache
  | .insert k v => (c.insert now k v).1
  | .get k => (c.get now k).1
  | .contains _ => c
  | .remove k => (c.remove k).1
  | .purge => (c.purge now).1
  | .reduce => c.reduce.1
  | .clear => c.clear

/-- What is reported of an event. -/
def signals (now : Nat) (c : Cache) : Event → List Signal
  | .insert k v => (c.insert now k v).2.signals c.budget.maxBytes
  | .get k => (c.get now k).2.signals
  | .contains _ => []
  | .remove _ => []
  | .purge => (c.purge now).2.map fun _ => evictionSignal .expired
  | .reduce => c.reduce.2.map fun _ => evictionSignal .reduction
  | .clear => []

/-- The cache after a history of events, each with its instant. -/
def run (c : Cache) (events : List (Nat × Event)) : Cache :=
  events.foldl (fun c e => c.step e.1 e.2) c

end Cache

end CapabilityBroker
