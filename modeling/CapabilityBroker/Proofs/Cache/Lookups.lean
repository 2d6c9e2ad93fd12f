import CapabilityBroker.Cache.History
/-!
# How often a cache was asked

A cache counts the lookups that found something and those that did not. A
lookup adds one to one of the two numbers (`lookups_get`), and nothing else
that is done to a cache changes them, however many entries it gives up. So
after every history they tell how many lookups there were
(`hits_add_misses_run`).
-/

namespace CapabilityBroker

namespace Cache

/-- The lookups of a cache that found something, and those that did not. -/
def lookups (c : Cache) : Nat × Nat := (c.hits, c.misses)

variable {c d : Cache} {k : CacheKey} {v : CapabilitySet} {now : Nat}

/-! ## What leaves the numbers alone -/

@[simp] theorem lookups_erase : (c.erase k).lookups = c.lookups := by
  unfold erase
  split <;> rfl

@[simp] theorem lookups_evict : (c.evict k).lookups = c.lookups := by
  unfold evict
  split
  · exact lookups_erase
  · rfl

theorem lookups_evictOldest? (h : c.evictOldest? = some (k, d)) : d.lookups = c.lookups := by
  obtain ⟨⟨_, recency⟩, -, heq⟩ := Option.map_eq_some_iff.mp h
  obtain ⟨rfl, rfl⟩ := Prod.mk.inj heq
  exact lookups_evict

@[simp] theorem lookups_evictUntil {enough : Cache → Bool} (bound : Nat) :
    (evictUntil enough bound c).1.lookups = c.lookups := by
  induction bound generalizing c with
  | zero => rfl
  | succ bound ih =>
    unfold evictUntil
    split
    · rfl
    · split
      · rfl
      · next h => exact ih.trans (lookups_evictOldest? h)

@[simp] theorem lookups_purge : (c.purge now).1.lookups = c.lookups := by
  have hfold (ks : List CacheKey) : (ks.foldl evict c).lookups = c.lookups := by
    induction ks generalizing c with
    | nil => rfl
    | cons k ks ih => exact ih.trans lookups_evict
  exact hfold _

@[simp] theorem lookups_reduce : c.reduce.1.lookups = c.lookups := by
  unfold reduce
  split
  · rfl
  · exact lookups_evictUntil _

@[simp] theorem lookups_clear : c.clear.lookups = c.lookups := rfl

@[simp] theorem lookups_insert : (c.insert now k v).1.lookups = c.lookups := by
  have hfill (d : Cache) :
      (evictUntil (·.budget.fits v.byteSize) d.recency.order.length d).1.lookups = d.lookups :=
    lookups_evictUntil _
  unfold insert
  by_cases hroom : (c.erase k).limits.maxEntries = 0 ∨ (c.erase k).budget.maxBytes < v.byteSize
  · rw [if_pos hroom]
    exact lookups_erase
  · rw [if_neg hroom]
    by_cases hfull : (c.erase k).limits.maxEntries ≤ (c.erase k).size
    · rw [if_pos hfull]
      cases hold : (c.erase k).evictOldest? with
      | none => exact (hfill _).trans lookups_erase
      | some kd => exact (hfill _).trans ((lookups_evictOldest? hold).trans lookups_erase)
    · rw [if_neg hfull]
      exact (hfill _).trans lookups_erase

/-! ## Lookups -/

/-- Whether a lookup found something. -/
def Lookup.isHit : Lookup → Bool
  | hit _ => true
  | _ => false

/-- **A lookup is counted once.** -/
theorem lookups_get (c : Cache) (now : Nat) (k : CacheKey) : (c.get now k).1.lookups =
    if (c.get now k).2.isHit then (c.hits + 1, c.misses) else (c.hits, c.misses + 1) := by
  unfold get
  split
  · rfl
  · split
    · have hevict : (c.evict k).lookups = c.lookups := lookups_evict
      exact congrArg (fun p : Nat × Nat => (p.1, p.2 + 1)) hevict
    · rfl

/-- Whether an event is a lookup. -/
def Event.isGet : Event → Bool
  | .get _ => true
  | _ => false

theorem hits_add_misses_step (c : Cache) (now : Nat) (event : Event) :
    (c.step now event).hits + (c.step now event).misses =
      c.hits + c.misses + if event.isGet then 1 else 0 := by
  have hsame {d : Cache} (h : d.lookups = c.lookups) : d.hits + d.misses = c.hits + c.misses :=
    congrArg (fun p : Nat × Nat => p.1 + p.2) h
  cases event with
  | get k =>
    have hget := lookups_get c now k
    simp only [step, Event.isGet, if_true]
    split at hget
    · obtain ⟨hhits, hmisses⟩ := Prod.mk.inj hget
      omega
    · obtain ⟨hhits, hmisses⟩ := Prod.mk.inj hget
      omega
  | insert k v => exact hsame lookups_insert
  | contains k => rfl
  | remove k => exact hsame lookups_erase
  | purge => exact hsame lookups_purge
  | reduce => exact hsame lookups_reduce
  | clear => exact hsame lookups_clear

/-- **Every lookup is counted**, and nothing else is. -/
theorem hits_add_misses_run (c : Cache) (events : List (Nat × Event)) :
    (c.run events).hits + (c.run events).misses =
      c.hits + c.misses + events.countP fun e => e.2.isGet := by
  induction events generalizing c with
  | nil => rfl
  | cons e events ih =>
    have hstep := hits_add_misses_step c e.1 e.2
    have hrun := ih (c.step e.1 e.2)
    rw [List.countP_cons]
    change (Cache.run (c.step e.1 e.2) events).hits + (Cache.run (c.step e.1 e.2) events).misses = _
    omega

end Cache

end CapabilityBroker
