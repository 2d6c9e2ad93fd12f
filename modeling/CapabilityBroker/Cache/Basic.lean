import CapabilityBroker.Cache.Budget
import CapabilityBroker.Cache.Recency
import CapabilityBroker.Capability.Codec
import CapabilityBroker.Request.Basic
import CapabilityBroker.Telemetry.Signal
import CapabilityBroker.Time.Duration
/-!
# The cache

Resolved capability sets by the keys of requests, for a limited time and
within two limits: on the number of entries and on the bytes their JSON
texts take. An entry leaves the cache to make room, when the use is
brought down, when its time is over, when it is replaced or removed, or
when everything is dropped. Each operation says what it did; what is
reported of it follows from that.
-/

namespace CapabilityBroker

/-- The limits of a cache. -/
structure CacheLimits where
  /-- The greatest number of entries; none disables the cache. -/
  maxEntries : Nat := 100
  /-- The greatest number of bytes. -/
  maxBytes : Nat := 10 * 1024 * 1024
  /-- How long an entry lives. -/
  ttl : Nat := Duration.ofSecs 3600
  /-- The percentage of the bytes above which the use is brought down. -/
  reductionThreshold : Nat := 90
  /-- The percentage of the bytes it is brought down to. -/
  reductionRatio : Nat := 70
  deriving DecidableEq, Repr

namespace Cache

/-- A cached capability set, with the instant it was stored at and the
bytes it counts for. -/
structure Entry where
  key : CacheKey
  value : CapabilitySet
  createdAt : Nat
  size : Nat

/-- Whether the time of an entry is over. -/
def Entry.isExpired (e : Entry) (ttl now : Nat) : Bool := ttl ≤ now - e.createdAt

/-- Why an entry was given up. -/
inductive Reason where
  /-- There were too many entries. -/
  | capacity
  /-- There was too little room for a new entry. -/
  | budget
  /-- The use was brought down. -/
  | reduction
  /-- Its time was over. -/
  | expired
  deriving DecidableEq, Repr

/-- The spelling of a reason. -/
def Reason.name : Reason → String
  | capacity => "capacity"
  | budget => "budget"
  | reduction => "reduction"
  | expired => "expired"

end Cache

/-- A cache: its entries, the order of their last uses, the bytes they
take, and how often lookups found an entry, found none, and how many
entries were given up. -/
structure Cache where
  limits : CacheLimits
  entries : List (CacheKey × Cache.Entry)
  recency : Recency CacheKey
  budget : ByteBudget
  hits : Nat
  misses : Nat
  evictions : Nat

namespace Cache

/-- An empty cache. -/
def new (limits : CacheLimits) : Cache where
  limits
  entries := []
  recency := .empty
  budget := .new limits.maxBytes limits.reductionThreshold limits.reductionRatio
  hits := 0
  misses := 0
  evictions := 0

/-- The entry of a key. -/
def find? (c : Cache) (k : CacheKey) : Option Entry := (c.entries.find? (·.1 = k)).map (·.2)

/-- The number of entries. -/
def size (c : Cache) : Nat := c.entries.length

/-- The keys, the least recently used first. -/
def keys (c : Cache) : List CacheKey := c.recency.toList

/-- A cache without the entry of a key. -/
def erase (c : Cache) (k : CacheKey) : Cache :=
  match c.find? k with
  | none => c
  | some e => { c with
      entries := c.entries.filter (·.1 ≠ k)
      recency := c.recency.erase k
      budget := c.budget.remove e.size }

/-- Removes the entry of a key, and tells whether there was one. -/
def remove (c : Cache) (k : CacheKey) : Cache × Bool := (c.erase k, (c.find? k).isSome)

/-- Gives up the entry of a key, if there is one. -/
def evict (c : Cache) (k : CacheKey) : Cache :=
  if (c.find? k).isSome then { c.erase k with evictions := c.evictions + 1 } else c

/-- Gives up the least recently used entry, and tells its key. -/
def evictOldest? (c : Cache) : Option (CacheKey × Cache) :=
  c.recency.pop?.map fun (k, recency) => (k, { c with recency }.evict k)

/-- Gives up entries, the least recently used first, until a cache is as
it should be or is empty, and tells their keys. The bound is the number of
keys there are. -/
def evictUntil (enough : Cache → Bool) : Nat → Cache → Cache × List CacheKey
  | 0, c => (c, [])
  | bound + 1, c =>
    if enough c then (c, [])
    else match c.evictOldest? with
      | none => (c, [])
      | some (k, c) =>
        let (c, ks) := evictUntil enough bound c
        (c, k :: ks)

/-- What an item counts for: the bytes of its compact JSON text, or the
nine letters of `undefined` where there is no item. -/
def itemSize : Option Json → Nat
  | none => 9
  | some j => j.byteSize

/-! ## Looking up -/

/-- What a lookup finds. -/
inductive Lookup where
  | hit (value : CapabilitySet)
  | absent
  /-- There was an entry, but its time was over. -/
  | expired
  deriving DecidableEq

/-- Looks up a key. A living entry becomes the most recently used one; one
whose time is over is given up. -/
def get (c : Cache) (now : Nat) (k : CacheKey) : Cache × Lookup :=
  match c.find? k with
  | none => ({ c with misses := c.misses + 1 }, .absent)
  | some e =>
    if e.isExpired c.limits.ttl now then
      let c := c.evict k
      ({ c with misses := c.misses + 1 }, .expired)
    else ({ c with recency := c.recency.touch k, hits := c.hits + 1 }, .hit e.value)

/-- Whether a key has a living entry. -/
def contains (c : Cache) (now : Nat) (k : CacheKey) : Bool :=
  (c.find? k).any fun e => !e.isExpired c.limits.ttl now

/-! ## Storing -/

/-- What storing a value did. -/
inductive Stored where
  /-- The value is not kept: nothing is, or it is too large. -/
  | refused (size : Nat)
  /-- The value is kept, and the listed keys were given up for it. -/
  | kept (evicted : List (Reason × CacheKey))
  deriving DecidableEq

/-- Stores a value under a key, in the place of what was stored there.
Where there are too many entries, the least recently used one is given up;
where there is too little room, as many of them are as make room. -/
def insert (c : Cache) (now : Nat) (k : CacheKey) (v : CapabilitySet) : Cache × Stored :=
  let size := v.byteSize
  let c := c.erase k
  if c.limits.maxEntries = 0 ∨ c.budget.maxBytes < size then (c, .refused size)
  else
    let (c, crowded) :=
      if c.limits.maxEntries ≤ c.size then
        match c.evictOldest? with
        | none => (c, [])
        | some (k, c) => (c, [k])
      else (c, [])
    let (c, bulky) := evictUntil (·.budget.fits size) c.recency.order.length c
    ({ c with
        entries := (k, ⟨k, v, now, size⟩) :: c.entries
        recency := c.recency.touch k
        budget := c.budget.add size },
      .kept (crowded.map (Reason.capacity, ·) ++ bulky.map (Reason.budget, ·)))

/-! ## Sweeping -/

/-- The keys of the entries whose time is over. -/
def expiredKeys (c : Cache) (now : Nat) : List CacheKey :=
  (c.entries.filter fun e => e.2.isExpired c.limits.ttl now).map (·.1)

/-- Gives up the entries whose time is over, and tells their keys. -/
def purge (c : Cache) (now : Nat) : Cache × List CacheKey :=
  let ks := c.expiredKeys now
  (ks.foldl evict c, ks)

/-- Brings the use down when it is above the threshold: gives up entries,
the least recently used first, until as many bytes are free as it was
above the level to shrink to. Tells their keys. -/
def reduce (c : Cache) : Cache × List CacheKey :=
  if !c.budget.shouldReduce then (c, [])
  else
    let start := c.budget.current
    let target := c.budget.excess
    evictUntil (fun c => target ≤ start - c.budget.current) c.recency.order.length c

/-- Drops every entry. What was counted stays. -/
def clear (c : Cache) : Cache :=
  { c with entries := [], recency := c.recency.clear, budget := c.budget.reset }

/-! ## Reports -/

/-- The share of lookups that found an entry; zero before the first. -/
def hitRate (c : Cache) : Float :=
  if c.hits + c.misses = 0 then 0.0
  else c.hits.toUInt64.toFloat / (c.hits + c.misses).toUInt64.toFloat

/-- The report that an entry was given up. -/
def evictionSignal (reason : Reason) : Signal := .count (.cacheEvictions reason.name)

/-- What is reported of a lookup. -/
def Lookup.signals : Lookup → List Signal
  | hit _ => [.count .cacheHits]
  | absent => [.count .cacheMisses]
  | expired => [evictionSignal .expired, .count .cacheMisses]

/-- Whether a value is kept. -/
def Stored.isKept : Stored → Bool
  | kept _ => true
  | refused _ => false

/-- What is reported of storing a value. -/
def Stored.signals (maxBytes : Nat) : Stored → List Signal
  | kept evicted => evicted.map fun e => evictionSignal e.1
  | refused size => [.log ⟨.debug, "not caching capability set",
      [("size", .nat size), ("max_bytes", .nat maxBytes)]⟩]

end Cache

end CapabilityBroker
