import CapabilityBroker.Cache.History
/-!
# Invariants of a cache

All that is done to a cache comes down to a few changes: an entry is taken
out, the tracker forgets its first key or notes a use, an entry is added,
everything is dropped, and something is counted. What each of these
changes keeps (`Invariant`), every history keeps (`Invariant.run`).
-/

namespace CapabilityBroker

namespace Cache

/-- **A property that the changes of a cache keep.** -/
structure Invariant (P : Cache → Prop) : Prop where
  erase {c : Cache} (k : CacheKey) : P c → P (c.erase k)
  pop {c : Cache} {k : CacheKey} {recency : Recency CacheKey} :
    c.recency.pop? = some (k, recency) → P c → P { c with recency }
  touch {c : Cache} (k : CacheKey) : P c → P { c with recency := c.recency.touch k }
  add {c : Cache} (k : CacheKey) (e : Entry) : P c → P { c with
    entries := (k, e) :: c.entries
    recency := c.recency.touch k
    budget := c.budget.add e.size }
  clear {c : Cache} : P c → P c.clear
  count {c : Cache} (hits misses evictions : Nat) : P c → P { c with hits, misses, evictions }

namespace Invariant

variable {P : Cache → Prop} {c d : Cache} {k : CacheKey}

theorem evict (h : Invariant P) (k : CacheKey) (hc : P c) : P (c.evict k) := by
  unfold Cache.evict
  split
  · exact h.count _ _ _ (h.erase k hc)
  · exact hc

theorem evictOldest? (h : Invariant P) (hc : P c) (hd : c.evictOldest? = some (k, d)) : P d := by
  obtain ⟨⟨_, recency⟩, hpop, heq⟩ := Option.map_eq_some_iff.mp hd
  obtain ⟨rfl, rfl⟩ := Prod.mk.inj heq
  exact h.evict _ (h.pop hpop hc)

theorem evictUntil (h : Invariant P) (enough : Cache → Bool) (bound : Nat) (hc : P c) :
    P (evictUntil enough bound c).1 := by
  induction bound generalizing c with
  | zero => exact hc
  | succ bound ih =>
    unfold Cache.evictUntil
    split
    · exact hc
    · split
      · exact hc
      · next hd => exact ih (h.evictOldest? hc hd)

theorem get (h : Invariant P) (now : Nat) (k : CacheKey) (hc : P c) : P (c.get now k).1 := by
  unfold Cache.get
  split
  · exact h.count _ _ _ hc
  · split
    · exact h.count _ _ _ (h.evict k hc)
    · exact h.count _ _ _ (h.touch k hc)

theorem insert (h : Invariant P) (now : Nat) (k : CacheKey) (v : CapabilitySet) (hc : P c) :
    P (c.insert now k v).1 := by
  have herase := h.erase k hc
  have hfill {d : Cache} (hd : P d) := h.add k ⟨k, v, now, v.byteSize⟩
    (h.evictUntil (·.budget.fits v.byteSize) d.recency.order.length hd)
  unfold Cache.insert
  by_cases hrefused : (c.erase k).limits.maxEntries = 0 ∨ (c.erase k).budget.maxBytes < v.byteSize
  · rw [if_pos hrefused]
    exact herase
  · rw [if_neg hrefused]
    by_cases hfull : (c.erase k).limits.maxEntries ≤ (c.erase k).size
    · rw [if_pos hfull]
      cases hd : (c.erase k).evictOldest? with
      | none => exact hfill herase
      | some kd => exact hfill (h.evictOldest? herase hd)
    · rw [if_neg hfull]
      exact hfill herase

theorem purge (h : Invariant P) (now : Nat) (hc : P c) : P (c.purge now).1 := by
  have hfold (ks : List CacheKey) : P (ks.foldl Cache.evict c) := by
    induction ks generalizing c with
    | nil => exact hc
    | cons k ks ih => exact ih (h.evict k hc)
  exact hfold _

theorem reduce (h : Invariant P) (hc : P c) : P c.reduce.1 := by
  unfold Cache.reduce
  split
  · exact hc
  · exact h.evictUntil _ _ hc

theorem step (h : Invariant P) (now : Nat) (event : Event) (hc : P c) : P (c.step now event) := by
  cases event with
  | insert k v => exact h.insert now k v hc
  | get k => exact h.get now k hc
  | contains k => exact hc
  | remove k => exact h.erase k hc
  | purge => exact h.purge now hc
  | reduce => exact h.reduce hc
  | clear => exact h.clear hc

/-- **Histories keep it.** -/
theorem run (h : Invariant P) (events : List (Nat × Event)) (hc : P c) : P (c.run events) := by
  induction events generalizing c with
  | nil => exact hc
  | cons e events ih => exact ih (h.step e.1 e.2 hc)

end Invariant

end Cache

end CapabilityBroker
