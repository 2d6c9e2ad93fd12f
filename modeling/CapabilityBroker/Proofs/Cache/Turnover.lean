import CapabilityBroker.Proofs.Cache.Lifetimes
import Mathlib.Data.List.Perm.Basic
/-!
# What comes into a cache and what leaves it

An entry comes into a cache when a value is stored and kept. It leaves in
one of four ways (`Exit`): it is given up for a reason, which is counted
and reported; something is stored under its key; it is removed; or it is
dropped with all others. Every event names the keys that leave, each of
them once (`Moment.exits`), and the entries after it are those that came
in and those whose keys were not named (`Settled`). So along a history
what is in the cache and what has left it is what came in, and each exit
has been counted where it belongs (`Accounted`). Nothing of this depends on
the bytes in use, so the limits may be any.
-/

namespace CapabilityBroker

namespace Cache

/-- How an entry leaves a cache. -/
inductive Exit where
  | givenUp (reason : Reason)
  /-- Something is stored under its key, be it kept or not. -/
  | replaced
  | removed
  /-- Everything is dropped. -/
  | dropped
  deriving DecidableEq

/-- All reasons for which an entry may be given up. -/
def Reason.all : List Reason := [.capacity, .budget, .reduction, .expired]

theorem Reason.name_inj {r s : Reason} : r.name = s.name ↔ r = s := by
  cases r <;> cases s <;> decide

/-- The keys that were given up for a value, with the reasons. -/
def Stored.given : Stored → List (Reason × CacheKey)
  | kept evicted => evicted
  | refused _ => []

/-- An event at its instant, with the cache that it meets. -/
structure Moment where
  cache : Cache
  now : Nat
  event : Event

/-- The moments of a history. -/
def moments (c : Cache) : List (Nat × Event) → List Moment
  | [] => []
  | (now, event) :: events => ⟨c, now, event⟩ :: (c.step now event).moments events

namespace Moment

/-- The cache after the event. -/
def next (m : Moment) : Cache := m.cache.step m.now m.event

/-- What is reported of the event. -/
def signals (m : Moment) : List Signal := m.cache.signals m.now m.event

/-- The keys that the event gives up, with the reasons. -/
def given (m : Moment) : List (Reason × CacheKey) :=
  match m.event with
  | .insert k v => (m.cache.insert m.now k v).2.given
  | .get k => if (m.cache.get m.now k).2 = .expired then [(.expired, k)] else []
  | .purge => (m.cache.purge m.now).2.map (.expired, ·)
  | .reduce => m.cache.reduce.2.map (.reduction, ·)
  | .contains _ | .remove _ | .clear => []

/-- The keys that it takes out otherwise. -/
def taken (m : Moment) : List (Exit × CacheKey) :=
  match m.event with
  | .insert k _ => [(.replaced, k)]
  | .remove k => [(.removed, k)]
  | .clear => m.cache.entries.map fun p => (.dropped, p.1)
  | .get _ | .contains _ | .purge | .reduce => []

/-- All keys that leave, and how they do. -/
def exits (m : Moment) : List (Exit × CacheKey) :=
  m.taken ++ m.given.map fun g => (.givenUp g.1, g.2)

/-- The entries that leave. -/
def departures (m : Moment) : List (Exit × CacheKey × Entry) :=
  m.exits.filterMap fun x => (m.cache.find? x.2).map fun e => (x.1, x.2, e)

/-- The entry that comes in, if one does. -/
def arrivals (m : Moment) : List (CacheKey × Entry) :=
  match m.event with
  | .insert k v =>
    if (m.cache.insert m.now k v).2.isKept then [(k, ⟨k, v, m.now, v.byteSize⟩)] else []
  | _ => []

/-- Whether a value is stored and kept. -/
def keeps (m : Moment) : Bool :=
  match m.event with
  | .insert k v => (m.cache.insert m.now k v).2.isKept
  | _ => false

/-- Whether a value is stored, kept or not, where its key has an entry. -/
def meetsKey (m : Moment) : Bool :=
  match m.event with
  | .insert k _ => (m.cache.find? k).isSome
  | _ => false

/-- Whether an entry is removed, as the removal tells. -/
def removes (m : Moment) : Bool :=
  match m.event with
  | .remove k => (m.cache.remove k).2
  | _ => false

/-- The number of entries that are dropped together. -/
def dropped (m : Moment) : Nat :=
  match m.event with
  | .clear => m.cache.size
  | _ => 0

/-- The number of entries that leave in a way, as the results tell. -/
def tally (m : Moment) : Exit → Nat
  | .givenUp r => m.given.countP (·.1 = r)
  | .replaced => m.meetsKey.toNat
  | .removed => m.removes.toNat
  | .dropped => m.dropped

/-- **The accounts of one event.** -/
structure Settled (m : Moment) : Prop where
  /-- No key leaves twice. -/
  nodup : (m.exits.map (·.2)).Nodup
  /-- What is given up was there. -/
  present {g : Reason × CacheKey} : g ∈ m.given → (m.cache.find? g.2).isSome
  /-- What came in and what did not leave is there. -/
  entries_eq :
    m.next.entries = m.arrivals ++ m.cache.entries.filter (·.1 ∉ m.exits.map (·.2))
  /-- What is given up is counted. -/
  evictions_eq : m.next.evictions = m.cache.evictions + m.given.length

end Moment

/-- The counters that went up in some moments, in order. -/
def countersOf (ms : List Moment) : List Counter := ms.flatMap fun m => Signal.counters m.signals

/-- The keys that were given up in some moments, with the reasons. -/
def givenOf (ms : List Moment) : List (Reason × CacheKey) := ms.flatMap (·.given)

/-- The entries that left in some moments. -/
def departuresOf (ms : List Moment) : List (Exit × CacheKey × Entry) := ms.flatMap (·.departures)

/-- **The accounts of a cache** that began without entries. -/
structure Accounted (c : Cache) (ms : List Moment) : Prop where
  /-- Every lookup is a hit or a miss. -/
  lookups_eq : c.hits + c.misses = ms.countP (·.event.isGet)
  /-- What was given up was reported, with one reason each -/
  reasons_eq :
    c.evictions = (Reason.all.map fun r => (countersOf ms).count (.cacheEvictions r.name)).sum
  /-- and no other. -/
  evictions_eq : c.evictions = (countersOf ms).countP (·.name = "huginn_cache_evictions_total")
  /-- What was kept is there or has left. -/
  kept_eq : ms.countP (·.keeps) = c.size + c.evictions + ms.countP (·.meetsKey) +
    ms.countP (·.removes) + (ms.map (·.dropped)).sum
  /-- Each entry that came in is there or has left, once. -/
  perm : ((departuresOf ms).map (·.2) ++ c.entries).Perm (ms.flatMap (·.arrivals))
  /-- Each that left is counted as what it was: given up, -/
  givenUp_eq (r : Reason) : (departuresOf ms).countP (·.1 = .givenUp r) =
    (countersOf ms).count (.cacheEvictions r.name)
  replaced_eq : (departuresOf ms).countP (·.1 = .replaced) = ms.countP (·.meetsKey)
  removed_eq : (departuresOf ms).countP (·.1 = .removed) = ms.countP (·.removes)
  dropped_eq : (departuresOf ms).countP (·.1 = .dropped) = (ms.map (·.dropped)).sum

open scoped List

variable {c : Cache} {m : Moment} {now : Nat} {event : Event} {events : List (Nat × Event)}

/-! ## One event -/

namespace Moment

/-- An event that gives up entries and does nothing else to them. -/
theorem settled_of_evictAll (h : m.cache.Aligned) (ks : List CacheKey) (htaken : m.taken = [])
    (harrivals : m.arrivals = []) (hgiven : m.given.map (·.2) = ks) (hnodup : ks.Nodup)
    (hks : ∀ k ∈ ks, k ∈ m.cache.keys) (hentries : m.next.entries = (m.cache.evictAll ks).entries)
    (hevictions : m.next.evictions = (m.cache.evictAll ks).evictions) : m.Settled := by
  have hexits : m.exits.map (·.2) = ks := by
    rw [← hgiven]
    simp [exits, htaken, Function.comp_def]
  refine ⟨hexits ▸ hnodup, fun {g} hg => ?_, ?_, ?_⟩
  · have hmem : g.2 ∈ ks := hgiven ▸ List.mem_map.mpr ⟨g, hg, rfl⟩
    exact h.find?_isSome_iff.mpr (hks g.2 hmem)
  · rw [hentries, entries_evictAll, harrivals, hexits, List.nil_append]
  · rw [hevictions, (h.counts_evictAll hnodup hks).2, ← hgiven, List.length_map]

/-- A value that is stored takes the place of what is under its key. -/
theorem settled_insert (h : c.Aligned) (now : Nat) (k : CacheKey) (v : CapabilitySet) :
    (Moment.mk c now (.insert k v)).Settled := by
  rcases h.insert_cases now k v with hinsert | ⟨evicted, hks, hinsert⟩
  · refine ⟨?_, fun {g} hg => ?_, ?_, ?_⟩
    · simp [exits, taken, given, hinsert, Stored.given]
    · simp [given, hinsert, Stored.given] at hg
    · simp [next, step, arrivals, exits, taken, given, hinsert, Stored.given, Stored.isKept,
        entries_erase]
    · simp [next, step, given, hinsert, Stored.given, evictions_erase]
  · -- the key is out when others are given up, so it is none of them
    have hnodup : (evicted.map (·.2)).Nodup :=
      (h.erase k).linked.toList_nodup.sublist hks.sublist
    have hother {j : CacheKey} (hj : j ∈ evicted.map (·.2)) : j ∈ c.keys ∧ j ≠ k :=
      mem_otherKeys.mp (h.keys_erase k ▸ hks.subset hj)
    have hexits : (Moment.mk c now (.insert k v)).exits.map (·.2) = k :: evicted.map (·.2) := by
      simp [exits, taken, given, hinsert, Stored.given, Function.comp_def]
    refine ⟨?_, fun {g} hg => ?_, ?_, ?_⟩
    · rw [hexits]
      exact List.nodup_cons.mpr ⟨fun hk => (hother hk).2 rfl, hnodup⟩
    · have hg' : g ∈ evicted := by simpa [given, hinsert, Stored.given] using hg
      exact h.find?_isSome_iff.mpr (hother (List.mem_map.mpr ⟨g, hg', rfl⟩)).1
    · rw [hexits, ← Keyed.filter_ne_filter, ← entries_erase, ← entries_evictAll]
      simp [next, step, arrivals, hinsert, Stored.isKept, store]
    · have hgiven := ((h.erase k).counts_evictAll hnodup fun _ hj => hks.subset hj).2
      rw [evictions_erase, List.length_map] at hgiven
      simpa [next, step, given, hinsert, Stored.given, store] using hgiven

theorem settled_get (h : c.Aligned) (now : Nat) (k : CacheKey) :
    (Moment.mk c now (.get k)).Settled := by
  cases he : c.find? k with
  | none =>
    have hget : c.get now k = ({ c with misses := c.misses + 1 }, .absent) := by
      simp only [Cache.get, he]
    refine settled_of_evictAll h [] rfl rfl ?_ List.nodup_nil (by simp) ?_ ?_
    · simp [given, hget]
    all_goals simp [next, step, hget, evictAll]
  | some e =>
    by_cases hexpired : e.isExpired c.limits.ttl now = true
    · have hget : c.get now k =
          ({ c.evict k with misses := (c.evict k).misses + 1 }, .expired) := by
        simp only [Cache.get, he, if_pos hexpired]
      have hk : k ∈ c.keys := h.find?_isSome_iff.mp (he ▸ rfl)
      refine settled_of_evictAll h [k] rfl rfl ?_ (by simp) (by simpa) ?_ ?_
      · simp [given, hget]
      all_goals simp [next, step, hget, evictAll]
    · have hget : c.get now k =
          ({ c with recency := c.recency.touch k, hits := c.hits + 1 }, .hit e.value) := by
        simp only [Cache.get, he, if_neg hexpired]
      refine settled_of_evictAll h [] rfl rfl ?_ List.nodup_nil (by simp) ?_ ?_
      · simp [given, hget]
      all_goals simp [next, step, hget, evictAll]

theorem settled_purge (h : c.Aligned) (now : Nat) : (Moment.mk c now .purge).Settled := by
  have hgiven : (Moment.mk c now .purge).given.map (·.2) = c.expiredKeys now := by
    simp [given, purge, Function.comp_def]
  refine settled_of_evictAll h _ rfl rfl hgiven ?_ (fun k hk => ?_) rfl rfl
  · exact h.nodup.sublist (List.filter_sublist.map _)
  · exact h.mem_keys.mpr ((List.filter_sublist.map _).subset hk)

theorem settled_reduce (h : c.Aligned) (now : Nat) : (Moment.mk c now .reduce).Settled := by
  obtain ⟨ks, hks, hreduce⟩ := h.reduce_eq
  have hgiven : (Moment.mk c now .reduce).given.map (·.2) = ks := by
    simp [given, hreduce, Function.comp_def]
  refine settled_of_evictAll h _ rfl rfl hgiven ?_ (fun k hk => hks.subset hk) ?_ ?_
  · exact h.linked.toList_nodup.sublist hks.sublist
  · simp [next, step, hreduce]
  · simp [next, step, hreduce]

theorem settled_clear (h : c.Aligned) (now : Nat) : (Moment.mk c now .clear).Settled := by
  have hexits : (Moment.mk c now .clear).exits.map (·.2) = c.entries.map (·.1) := by
    simp [exits, taken, given, Function.comp_def]
  refine ⟨hexits ▸ h.nodup, fun {g} hg => ?_, ?_, rfl⟩
  · simp [given] at hg
  · rw [hexits]
    refine (List.filter_eq_nil_iff.mpr fun p hp => ?_).symm
    simpa using ⟨p.2, hp⟩

/-- **The accounts of every event are settled.** -/
theorem settled (h : m.cache.Aligned) : m.Settled := by
  obtain ⟨c, now, event⟩ := m
  cases event with
  | insert k v => exact settled_insert h now k v
  | get k => exact settled_get h now k
  | contains k =>
    exact settled_of_evictAll h [] rfl rfl rfl List.nodup_nil (fun _ hk => nomatch hk) rfl rfl
  | remove k =>
    refine ⟨?_, fun {g} hg => ?_, ?_, ?_⟩
    · simp [exits, taken, given]
    · simp [given] at hg
    · simp [next, step, remove, arrivals, exits, taken, given, entries_erase]
    · simp [next, step, remove, given, evictions_erase]
  | purge => exact settled_purge h now
  | reduce => exact settled_reduce h now
  | clear => exact settled_clear h now

/-! ## What is counted -/

/-- What is reported of what is given up, and that nothing else is. -/
theorem counters_signals (m : Moment) : ∃ rest : List Counter,
    Signal.counters m.signals = (m.given.map fun g => Counter.cacheEvictions g.1.name) ++ rest ∧
      ∀ x ∈ rest, x.name ≠ "huginn_cache_evictions_total" := by
  obtain ⟨c, now, event⟩ := m
  have hmap (evicted : List (Reason × CacheKey)) :
      Signal.counters (evicted.map fun g => evictionSignal g.1) =
        evicted.map fun g => Counter.cacheEvictions g.1.name := by
    simp [Signal.counters, evictionSignal, List.filterMap_map]
  cases event with
  | insert k v =>
    refine ⟨[], ?_, by simp⟩
    simp only [signals, Cache.signals, given]
    cases (c.insert now k v).2 with
    | kept evicted => simp [Stored.signals, Stored.given, hmap]
    | refused size => rfl
  | get k =>
    simp only [signals, Cache.signals, given]
    cases (c.get now k).2 with
    | hit v => exact ⟨[.cacheHits], rfl, by decide⟩
    | absent => exact ⟨[.cacheMisses], rfl, by decide⟩
    | expired => exact ⟨[.cacheMisses], rfl, by decide⟩
  | contains k => exact ⟨[], rfl, by simp⟩
  | remove k => exact ⟨[], rfl, by simp⟩
  | purge =>
    refine ⟨[], ?_, by simp⟩
    have := hmap ((c.purge now).2.map (.expired, ·))
    simpa [signals, Cache.signals, given, Function.comp_def] using this
  | reduce =>
    refine ⟨[], ?_, by simp⟩
    have := hmap (c.reduce.2.map (.reduction, ·))
    simpa [signals, Cache.signals, given, Function.comp_def] using this
  | clear => exact ⟨[], rfl, by simp⟩

theorem count_counters (m : Moment) (r : Reason) :
    (Signal.counters m.signals).count (.cacheEvictions r.name) = m.given.countP (·.1 = r) := by
  obtain ⟨rest, hcounters, hrest⟩ := m.counters_signals
  have hnone : rest.count (.cacheEvictions r.name) = 0 :=
    List.count_eq_zero.mpr fun hmem => hrest _ hmem rfl
  rw [hcounters, List.count_append, hnone, Nat.add_zero, List.count, List.countP_map]
  refine List.countP_congr fun g _ => ?_
  simp [Counter.cacheEvictions, Reason.name_inj]

theorem countP_counters (m : Moment) :
    (Signal.counters m.signals).countP (·.name = "huginn_cache_evictions_total") =
      m.given.length := by
  obtain ⟨rest, hcounters, hrest⟩ := m.counters_signals
  have hnone : rest.countP (·.name = "huginn_cache_evictions_total") = 0 :=
    List.countP_eq_zero.mpr fun x hx => by simpa using hrest x hx
  rw [hcounters, List.countP_append, hnone, Nat.add_zero, List.countP_map]
  exact List.countP_eq_length.mpr fun g _ => by simp [Counter.cacheEvictions]

theorem length_arrivals (m : Moment) : m.arrivals.length = m.keeps.toNat := by
  unfold arrivals keeps
  cases m.event with
  | insert k v => cases hkept : (m.cache.insert m.now k v).2.isKept <;> simp [hkept]
  | _ => rfl

/-- What the results tell is what is taken out, if it is there, and what is
given up. -/
theorem tally_eq (m : Moment) (x : Exit) : m.tally x =
    m.taken.countP (fun y => decide (y.1 = x) && (m.cache.find? y.2).isSome) +
      m.given.countP fun g => Exit.givenUp g.1 = x := by
  obtain ⟨c, now, event⟩ := m
  cases x with
  | givenUp r => cases event <;> simp [tally, taken]
  | replaced =>
    cases event with
    | insert k v => cases hk : (c.find? k).isSome <;> simp [tally, taken, meetsKey, hk]
    | _ => simp [tally, taken, meetsKey, Function.comp_def]
  | removed =>
    cases event with
    | remove k => cases hk : (c.find? k).isSome <;> simp [tally, taken, removes, remove, hk]
    | _ => simp [tally, taken, removes, Function.comp_def]
  | dropped =>
    cases event with
    | clear =>
      have hsome : ∀ p ∈ c.entries, (c.find? p.1).isSome = true := fun p hp =>
        isSome_find?_iff.mpr (List.mem_map.mpr ⟨p, hp, rfl⟩)
      have hall : c.entries.countP (fun p => (c.find? p.1).isSome) = c.entries.length :=
        List.countP_eq_length.mpr hsome
      simp [tally, taken, dropped, size, Function.comp_def, hall]
    | _ => simp [tally, taken, dropped]

namespace Settled

/-- **Every exit is told by the results** of the event. -/
theorem countP_departures (h : m.Settled) (x : Exit) :
    m.departures.countP (·.1 = x) = m.tally x := by
  have hexits : m.departures.countP (·.1 = x) =
      m.exits.countP fun y => decide (y.1 = x) && (m.cache.find? y.2).isSome := by
    rw [departures, List.countP_filterMap]
    refine List.countP_congr fun y _ => ?_
    cases m.cache.find? y.2 <;> simp
  rw [hexits, tally_eq, exits, List.countP_append, List.countP_map]
  congr 1
  -- what is given up was there
  exact List.countP_congr fun g hg => by simp [h.present hg]

/-- What is there after an event and what left is what was there and what
came in. -/
theorem perm (h : m.Settled) (haligned : m.cache.Aligned) :
    (m.departures.map (·.2) ++ m.next.entries).Perm (m.arrivals ++ m.cache.entries) := by
  have hfound : m.departures.map (·.2) =
      (m.exits.map (·.2)).filterMap fun k => m.cache.entries.find? (·.1 = k) := by
    rw [departures, List.map_filterMap, List.filterMap_map]
    refine List.filterMap_congr fun x _ => ?_
    simp only [Cache.find?, Function.comp_apply, Option.map_map]
    cases hp : m.cache.entries.find? (·.1 = x.2) with
    | none => rfl
    | some p =>
      have hkey : p.1 = x.2 := by simpa using List.find?_some hp
      simp [← hkey]
  rw [hfound, h.entries_eq]
  exact (List.perm_append_comm_assoc _ _ _).trans
    ((Keyed.perm_filterMap_append haligned.nodup h.nodup).append_left _)

end Settled

end Moment

/-! ## Histories -/

theorem moments_cons : c.moments ((now, event) :: events) =
    ⟨c, now, event⟩ :: (c.step now event).moments events := rfl

theorem countP_isGet_moments :
    (c.moments events).countP (·.event.isGet) = events.countP fun e => e.2.isGet := by
  induction events generalizing c with
  | nil => rfl
  | cons e events ih => rw [moments_cons, List.countP_cons, List.countP_cons, ih]

namespace Aligned

theorem insert (h : c.Aligned) (now : Nat) (k : CacheKey) (v : CapabilitySet) :
    (c.insert now k v).1.Aligned := by
  rcases h.insert_cases now k v with hinsert | ⟨evicted, -, hinsert⟩
  · rw [hinsert]
    exact h.erase k
  · have hout : ((c.erase k).evictAll (evicted.map (·.2))).find? k = none := by
      rw [find?_evictAll, find?_erase, if_pos rfl, ite_self]
    rw [hinsert]
    exact ((h.erase k).evictAll _).add hout _ _

/-- **Every event keeps the entries and their order in step**, whatever
the limits are. -/
theorem step (h : c.Aligned) (now : Nat) (event : Event) : (c.step now event).Aligned := by
  cases event with
  | insert k v => exact h.insert now k v
  | get k => exact h.get now k
  | contains k => exact h
  | remove k => exact h.erase k
  | purge => exact h.evictAll (c.expiredKeys now)
  | reduce =>
    obtain ⟨ks, -, hreduce⟩ := h.reduce_eq
    change c.reduce.1.Aligned
    rw [hreduce]
    exact h.evictAll ks
  | clear => exact aligned_clear

theorem of_mem_moments (h : c.Aligned) (hm : m ∈ c.moments events) : m.cache.Aligned := by
  induction events generalizing c with
  | nil => cases hm
  | cons e events ih =>
    rcases List.mem_cons.mp hm with rfl | hm
    · exact h
    · exact ih (h.step e.1 e.2) hm

/-- **What is there after a history and what left is what came in**, with
what was there before. -/
theorem perm_run (h : c.Aligned) (events : List (Nat × Event)) :
    ((departuresOf (c.moments events)).map (·.2) ++ (c.run events).entries).Perm
      ((c.moments events).flatMap (·.arrivals) ++ c.entries) := by
  induction events generalizing c with
  | nil => exact .refl _
  | cons e events ih =>
    obtain ⟨now, event⟩ := e
    let m : Moment := ⟨c, now, event⟩
    let ms := (c.step now event).moments events
    have hfirst : (m.departures.map (·.2) ++ m.next.entries).Perm (m.arrivals ++ c.entries) :=
      (Moment.settled h).perm h
    have hrest : ((departuresOf ms).map (·.2) ++ (c.run ((now, event) :: events)).entries).Perm
        (ms.flatMap (·.arrivals) ++ m.next.entries) := ih (h.step now event)
    calc (m.departures ++ departuresOf ms).map (·.2) ++ (c.run ((now, event) :: events)).entries
      _ = m.departures.map (·.2) ++
          ((departuresOf ms).map (·.2) ++ (c.run ((now, event) :: events)).entries) := by
        rw [List.map_append, List.append_assoc]
      _ ~ m.departures.map (·.2) ++ (ms.flatMap (·.arrivals) ++ m.next.entries) :=
        hrest.append_left _
      _ ~ ms.flatMap (·.arrivals) ++ (m.departures.map (·.2) ++ m.next.entries) :=
        List.perm_append_comm_assoc _ _ _
      _ ~ ms.flatMap (·.arrivals) ++ (m.arrivals ++ c.entries) := hfirst.append_left _
      _ ~ m.arrivals ++ (ms.flatMap (·.arrivals) ++ c.entries) :=
        List.perm_append_comm_assoc _ _ _
      _ = (m.arrivals ++ ms.flatMap (·.arrivals)) ++ c.entries := (List.append_assoc _ _ _).symm

/-- **Everything that is given up is counted**, and nothing else is. -/
theorem evictions_run (h : c.Aligned) (events : List (Nat × Event)) :
    (c.run events).evictions = c.evictions + (givenOf (c.moments events)).length := by
  induction events generalizing c with
  | nil => rfl
  | cons e events ih =>
    obtain ⟨now, event⟩ := e
    have hfirst : (c.step now event).evictions = _ :=
      (Moment.settled (m := ⟨c, now, event⟩) h).evictions_eq
    have hrest := ih (h.step now event)
    rw [hfirst] at hrest
    rw [givenOf, moments_cons, List.flatMap_cons, List.length_append, ← Nat.add_assoc]
    exact hrest

end Aligned

/-! ## Counting along a history -/

theorem countP_eq_sum {α : Type} (p : α → Bool) (l : List α) :
    l.countP p = (l.map fun a => (p a).toNat).sum := by
  induction l with
  | nil => rfl
  | cons a l ih =>
    rw [List.countP_cons, List.map_cons, List.sum_cons, ← ih, Nat.add_comm]
    cases p a <;> rfl

/-- Each thing that is given up has one of the reasons. -/
theorem length_eq_reasons (given : List (Reason × CacheKey)) :
    given.length = (Reason.all.map fun r => given.countP (·.1 = r)).sum := by
  induction given with
  | nil => rfl
  | cons g given ih =>
    obtain ⟨r, k⟩ := g
    cases r <;> simp [ih, Reason.all] <;> omega

/-- Each entry that leaves does so in one of the ways. -/
theorem length_eq_exits (left : List (Exit × CacheKey × Entry)) :
    left.length = (Reason.all.map fun r => left.countP (·.1 = .givenUp r)).sum +
      left.countP (·.1 = .replaced) + left.countP (·.1 = .removed) +
      left.countP (·.1 = .dropped) := by
  induction left with
  | nil => rfl
  | cons x left ih =>
    obtain ⟨exit, k, e⟩ := x
    cases exit with
    | givenUp r => cases r <;> simp [ih, Reason.all] <;> omega
    | _ =>
      simp [ih]
      omega

/-- The reports of a reason are the keys that were given up for it. -/
theorem count_countersOf (ms : List Moment) (r : Reason) :
    (countersOf ms).count (.cacheEvictions r.name) = (givenOf ms).countP (·.1 = r) := by
  rw [countersOf, givenOf, List.count_flatMap, List.countP_flatMap]
  exact congrArg List.sum (List.map_congr_left fun m _ => m.count_counters r)

theorem countP_countersOf (ms : List Moment) :
    (countersOf ms).countP (·.name = "huginn_cache_evictions_total") = (givenOf ms).length := by
  rw [countersOf, givenOf, List.countP_flatMap, List.length_flatMap]
  exact congrArg List.sum (List.map_congr_left fun m _ => m.countP_counters)

theorem length_flatMap_arrivals (ms : List Moment) :
    (ms.flatMap (·.arrivals)).length = ms.countP (·.keeps) := by
  rw [List.length_flatMap, countP_eq_sum]
  exact congrArg List.sum (List.map_congr_left fun m _ => m.length_arrivals)

section Settled

variable {ms : List Moment} (h : ∀ m ∈ ms, m.Settled)

include h

theorem countP_departuresOf (x : Exit) :
    (departuresOf ms).countP (·.1 = x) = (ms.map (·.tally x)).sum := by
  rw [departuresOf, List.countP_flatMap]
  exact congrArg List.sum (List.map_congr_left fun m hm => (h m hm).countP_departures x)

theorem countP_departuresOf_givenUp (r : Reason) :
    (departuresOf ms).countP (·.1 = .givenUp r) = (givenOf ms).countP (·.1 = r) :=
  (countP_departuresOf h _).trans List.countP_flatMap.symm

theorem countP_departuresOf_replaced :
    (departuresOf ms).countP (·.1 = .replaced) = ms.countP (·.meetsKey) :=
  (countP_departuresOf h _).trans (countP_eq_sum _ ms).symm

theorem countP_departuresOf_removed :
    (departuresOf ms).countP (·.1 = .removed) = ms.countP (·.removes) :=
  (countP_departuresOf h _).trans (countP_eq_sum _ ms).symm

theorem countP_departuresOf_dropped :
    (departuresOf ms).countP (·.1 = .dropped) = (ms.map (·.dropped)).sum :=
  countP_departuresOf h _

/-- What leaves is given up, or is taken out in one of the other ways. -/
theorem length_departuresOf : (departuresOf ms).length = (givenOf ms).length +
    ms.countP (·.meetsKey) + ms.countP (·.removes) + (ms.map (·.dropped)).sum := by
  rw [length_eq_exits, length_eq_reasons, countP_departuresOf_replaced h,
    countP_departuresOf_removed h, countP_departuresOf_dropped h,
    List.map_congr_left fun r _ => countP_departuresOf_givenUp h r]

end Settled

/-- **Every entry that comes into a cache is accounted for once.** After
every history of a cache, whatever its limits are, each lookup was counted
as a hit or a miss, what was given up was counted, and reported with its
reason, and the values that were kept are the entries that are there, those
that were given up, those under whose keys something was stored, those that
were removed and those that were dropped with all others. -/
theorem entries_accounted_for (limits : CacheLimits) (events : List (Nat × Event)) :
    Accounted ((new limits).run events) ((new limits).moments events) := by
  have hnew := aligned_new limits
  have hsettled : ∀ m ∈ (new limits).moments events, m.Settled :=
    fun m hm => Moment.settled (hnew.of_mem_moments hm)
  have hperm : _ ~ _ ++ [] := hnew.perm_run events
  have hevictions : ((new limits).run events).evictions =
      0 + (givenOf ((new limits).moments events)).length := hnew.evictions_run events
  have hlookups : ((new limits).run events).hits + ((new limits).run events).misses =
      0 + events.countP fun e => e.2.isGet := hits_add_misses_run (new limits) events
  rw [List.append_nil] at hperm
  rw [Nat.zero_add] at hevictions hlookups
  refine ⟨?_, ?_, ?_, ?_, hperm, fun r => ?_, countP_departuresOf_replaced hsettled,
    countP_departuresOf_removed hsettled, countP_departuresOf_dropped hsettled⟩
  · rw [hlookups, countP_isGet_moments]
  · rw [hevictions, length_eq_reasons, List.map_congr_left fun r _ => count_countersOf _ r]
  · rw [hevictions, countP_countersOf]
  · have hlength := hperm.length_eq
    rw [List.length_append, List.length_map, length_departuresOf hsettled, length_flatMap_arrivals,
      ← hevictions] at hlength
    rw [← hlength, size]
    omega
  · rw [countP_departuresOf_givenUp hsettled, count_countersOf]

end Cache

end CapabilityBroker
