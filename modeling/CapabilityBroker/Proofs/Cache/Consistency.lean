import CapabilityBroker.Cache.History
import CapabilityBroker.Proofs.Cache.Alignment
import Mathlib.Algebra.GroupWithZero.Nat
/-!
# A cache whose parts agree

The entries of a cache, the order of their last uses and the bytes in use
are kept apart, and every operation changes each of them for itself.
`Consistent` says that they agree, which is more than `Aligned` says, and
that the limits are kept. Taking an entry out keeps them in step
(`Consistent.erase`), and all that is given up is taken out. What is left
is to see that the loop that makes room ends with enough: giving up
everything is enough, since nothing is in use then.
-/

namespace CapabilityBroker

namespace Cache

/-- **The parts of a cache agree**, and the cache is within its limits. -/
structure Consistent (c : Cache) : Prop where
  /-- No key has two entries. -/
  nodup : (c.entries.map (·.1)).Nodup
  /-- The tables of the tracker agree. -/
  linked : c.recency.Linked
  /-- The keys in order are those of the entries. -/
  mem_keys {k : CacheKey} : k ∈ c.keys ↔ k ∈ c.entries.map (·.1)
  /-- An entry is stored under its own key, and counts for the bytes of
  its JSON text. -/
  entry {k : CacheKey} {e : Entry} : (k, e) ∈ c.entries → e.key = k ∧ e.size = e.value.byteSize
  /-- The bytes in use are those of the entries, -/
  current_eq : c.budget.current = (c.entries.map (·.2.size)).sum
  /-- not more than there may be. -/
  current_le : c.budget.current ≤ c.budget.maxBytes
  maxBytes_eq : c.budget.maxBytes = c.limits.maxBytes
  /-- There are not more entries than there may be. -/
  size_le : c.size ≤ c.limits.maxEntries

variable {c d : Cache} {j k : CacheKey} {e : Entry} {v : CapabilitySet} {now size : Nat}

theorem consistent_new (limits : CacheLimits) : (new limits).Consistent where
  nodup := List.nodup_nil
  linked := Recency.Linked.empty
  mem_keys := Iff.rfl
  entry h := by cases h
  current_eq := rfl
  current_le := Nat.zero_le _
  maxBytes_eq := rfl
  size_le := Nat.zero_le _

namespace Consistent

theorem aligned (h : c.Consistent) : c.Aligned := ⟨h.nodup, h.linked, h.mem_keys⟩

/-- What was counted does not matter. -/
theorem of_eq (h : c.Consistent) (hlimits : d.limits = c.limits) (hentries : d.entries = c.entries)
    (hrecency : d.recency = c.recency) (hbudget : d.budget = c.budget) : d.Consistent where
  nodup := hentries ▸ h.nodup
  linked := hrecency ▸ h.linked
  mem_keys := (h.aligned.of_eq hentries hrecency).mem_keys
  entry he := h.entry (hentries ▸ he)
  current_eq := by
    rw [hbudget, hentries]
    exact h.current_eq
  current_le := hbudget ▸ h.current_le
  maxBytes_eq := by
    rw [hbudget, hlimits]
    exact h.maxBytes_eq
  size_le := by
    rw [Cache.size, hentries, hlimits]
    exact h.size_le

/-! ## Taking entries out -/

/-- Without keys nothing is in use. -/
theorem current_eq_zero (h : c.Consistent) (hkeys : c.keys = []) : c.budget.current = 0 := by
  have hentries : c.entries = [] := List.eq_nil_iff_forall_not_mem.mpr fun p hp => by
    have hmem := h.mem_keys.mpr (List.mem_map.mpr ⟨p, hp, rfl⟩)
    simp [hkeys] at hmem
  rw [h.current_eq, hentries]
  rfl

theorem erase (h : c.Consistent) (k : CacheKey) : (c.erase k).Consistent := by
  cases hk : c.find? k with
  | none => rwa [erase_of_none hk]
  | some e =>
    have hperm := Keyed.perm_cons_filter_ne h.nodup (mem_of_find? hk)
    have hsum : e.size + ((c.entries.filter (·.1 ≠ k)).map (·.2.size)).sum = c.budget.current := by
      rw [h.current_eq, ← (hperm.map (·.2.size)).sum_nat]
      rfl
    have haligned := h.aligned.erase k
    rw [erase_of_some hk] at haligned ⊢
    refine ⟨haligned.nodup, haligned.linked, haligned.mem_keys,
      fun he => h.entry (List.mem_filter.mp he).1, ?_, ?_, h.maxBytes_eq, ?_⟩
    · simp only [ByteBudget.remove]
      omega
    · exact Nat.le_trans (Nat.sub_le _ _) h.current_le
    · exact Nat.le_trans (List.length_filter_le _ _) h.size_le

theorem evict (h : c.Consistent) (k : CacheKey) : (c.evict k).Consistent := by
  rw [evict_eq_erase]
  exact (h.erase k).of_eq rfl rfl rfl rfl

theorem evictAll (h : c.Consistent) (ks : List CacheKey) : (c.evictAll ks).Consistent := by
  induction ks generalizing c with
  | nil => exact h
  | cons k ks ih => exact ih (h.evict k)

theorem purge (h : c.Consistent) (now : Nat) : (c.purge now).1.Consistent := h.evictAll _

theorem reduce (h : c.Consistent) : c.reduce.1.Consistent := by
  obtain ⟨ks, -, hreduce⟩ := h.aligned.reduce_eq
  rw [hreduce]
  exact h.evictAll ks

theorem clear (h : c.Consistent) : c.clear.Consistent where
  nodup := aligned_clear.nodup
  linked := aligned_clear.linked
  mem_keys := aligned_clear.mem_keys
  entry h := by cases h
  current_eq := rfl
  current_le := Nat.zero_le _
  maxBytes_eq := h.maxBytes_eq
  size_le := Nat.zero_le _

/-! ## Looking up and storing -/

theorem get (h : c.Consistent) (now : Nat) (k : CacheKey) : (c.get now k).1.Consistent := by
  unfold Cache.get
  split
  · exact h.of_eq rfl rfl rfl rfl
  · next e he =>
    split
    · exact (h.evict k).of_eq rfl rfl rfl rfl
    · have hk : k ∈ c.keys := h.aligned.find?_isSome_iff.mp (he ▸ rfl)
      have haligned := h.aligned.touch hk
      exact { h with linked := haligned.linked, mem_keys := haligned.mem_keys }

/-- An entry that there is room for is added. -/
theorem add (h : c.Consistent) (hk : c.find? k = none) (hmax : c.limits.maxBytes < byteCountLimit)
    (hsize : c.size < c.limits.maxEntries) (hfits : c.budget.fits v.byteSize = true) :
    Consistent { c with
      entries := (k, ⟨k, v, now, v.byteSize⟩) :: c.entries
      recency := c.recency.touch k
      budget := c.budget.add v.byteSize } := by
  have haligned := h.aligned.add hk ⟨k, v, now, v.byteSize⟩ (c.budget.add v.byteSize)
  -- the sum stays in the range of the counter
  have hafter : min (c.budget.current + v.byteSize) byteCountLimit ≤ c.budget.maxBytes :=
    of_decide_eq_true hfits
  have hsum : min (c.budget.current + v.byteSize) byteCountLimit
      = c.budget.current + v.byteSize := by
    rw [h.maxBytes_eq] at hafter
    omega
  refine ⟨haligned.nodup, haligned.linked, haligned.mem_keys, fun he => ?_, ?_, hafter,
    h.maxBytes_eq, hsize⟩
  · rcases List.mem_cons.mp he with heq | he
    · obtain ⟨rfl, rfl⟩ := Prod.mk.inj heq
      exact ⟨rfl, rfl⟩
    · exact h.entry he
  · change min (c.budget.current + v.byteSize) byteCountLimit = v.byteSize + _
    rw [hsum, h.current_eq, Nat.add_comm]
    rfl

/-- Entries are given up until there is room for a value, and it is added. -/
theorem fill (h : c.Consistent) (hk : c.find? k = none) (hmax : c.limits.maxBytes < byteCountLimit)
    (hsize : c.size < c.limits.maxEntries) (hbytes : v.byteSize ≤ c.limits.maxBytes)
    (hd : (Cache.evictUntil (·.budget.fits v.byteSize) c.recency.order.length c).1 = d) :
    Consistent { d with
      entries := (k, ⟨k, v, now, v.byteSize⟩) :: d.entries
      recency := d.recency.touch k
      budget := d.budget.add v.byteSize } := by
  have hlength : c.size = c.recency.order.length := by
    rw [← h.aligned.length_keys, keys, Recency.toList, List.length_map]
  -- with everything given up the whole budget is free
  have hnone : (c.evictAll c.keys).keys = [] := by
    rw [h.aligned.keys_evictAll]
    simp
  have hroom : (c.evictAll c.keys).budget.fits v.byteSize = true := by
    refine decide_eq_true ?_
    rw [ByteBudget.after, (h.evictAll _).current_eq_zero hnone, (h.evictAll _).maxBytes_eq,
      within_evictAll.limits_eq]
    exact Nat.le_trans (Nat.min_le_left _ _) ((Nat.zero_add _).symm ▸ hbytes)
  obtain ⟨ks, -, heq, hshortest⟩ :=
    h.aligned.evictUntil_eq (·.budget.fits v.byteSize) c.recency.order.length
  have hfits := (hshortest (Nat.le_of_eq hlength) hroom).holds
  obtain rfl : c.evictAll ks = d := by rwa [heq] at hd
  have hwithin : (c.evictAll ks).Within c := within_evictAll
  refine (h.evictAll ks).add (hwithin.find?_eq_none hk) ?_ ?_ hfits
  · rw [hwithin.limits_eq]
    exact hmax
  · rw [hwithin.limits_eq]
    exact Nat.lt_of_le_of_lt size_evictAll_le hsize

/-- **Storing a value** that is not refused makes room for it first. -/
theorem insert (h : c.Consistent) (hmax : c.limits.maxBytes < byteCountLimit) (now : Nat)
    (k : CacheKey) (v : CapabilitySet) : (c.insert now k v).1.Consistent := by
  have herase := h.erase k
  have hout : (c.erase k).find? k = none := by rw [find?_erase, if_pos rfl]
  have hlimits : (c.erase k).limits = c.limits := limits_erase
  unfold Cache.insert
  by_cases hrefused : (c.erase k).limits.maxEntries = 0 ∨ (c.erase k).budget.maxBytes < v.byteSize
  · rw [if_pos hrefused]
    exact herase
  · rw [if_neg hrefused]
    rw [herase.maxBytes_eq, hlimits] at hrefused
    obtain ⟨hsome, hbytes⟩ := not_or.mp hrefused
    by_cases hfull : (c.erase k).limits.maxEntries ≤ (c.erase k).size
    · rw [if_pos hfull, herase.aligned.evictOldest?_eq]
      cases hhead : (c.erase k).keys.head? with
      | none =>
        -- a full cache holds something, since it is to hold something
        have hsize := herase.aligned.length_keys
        rw [List.head?_eq_none_iff.mp hhead, List.length_nil] at hsize
        rw [hlimits] at hfull
        omega
      | some j =>
        have hsize := herase.aligned.size_evict (List.mem_of_head? hhead)
        have hfewer := herase.size_le
        have hwithin : ((c.erase k).evict j).Within (c.erase k) := within_evict
        refine (herase.evict j).fill (hwithin.find?_eq_none hout) ?_ ?_ ?_ rfl
        · rw [hwithin.limits_eq, hlimits]
          exact hmax
        · rw [hwithin.limits_eq]
          omega
        · rw [hwithin.limits_eq, hlimits]
          exact Nat.le_of_not_lt hbytes
    · rw [if_neg hfull]
      exact herase.fill hout (hlimits ▸ hmax) (Nat.lt_of_not_le hfull)
        (hlimits ▸ Nat.le_of_not_lt hbytes) rfl

end Consistent

/-! ## Histories -/

theorem limits_step (c : Cache) (now : Nat) (event : Event) : (c.step now event).limits = c.limits := by
  cases event with
  | insert k v => exact limits_insert
  | get k => exact within_get.limits_eq
  | contains k => rfl
  | remove k => exact limits_erase
  | purge => exact within_purge.limits_eq
  | reduce => exact within_reduce.limits_eq
  | clear => rfl

/-- **Every operation keeps the parts in step.** -/
theorem Consistent.step (h : c.Consistent) (hmax : c.limits.maxBytes < byteCountLimit) (now : Nat)
    (event : Event) : (c.step now event).Consistent := by
  cases event with
  | insert k v => exact h.insert hmax now k v
  | get k => exact h.get now k
  | contains k => exact h
  | remove k => exact h.erase k
  | purge => exact h.purge now
  | reduce => exact h.reduce
  | clear => exact h.clear

/-- **And so does a history.** -/
theorem Consistent.run (h : c.Consistent) (hmax : c.limits.maxBytes < byteCountLimit)
    (events : List (Nat × Event)) :
    (c.run events).Consistent ∧ (c.run events).limits = c.limits := by
  induction events generalizing c with
  | nil => exact ⟨h, rfl⟩
  | cons e events ih =>
    have hlimits := limits_step c e.1 e.2
    have hrun := ih (h.step hmax e.1 e.2) (hlimits ▸ hmax)
    exact ⟨hrun.1, hrun.2.trans hlimits⟩

/-- **The parts of a cache always agree.** After every history of a cache,
whatever its limits are, the entries, the order of their last uses and the
bytes in use are in step and within the limits, as long as the greatest
number of bytes can be counted. -/
theorem consistent_after_history (limits : CacheLimits) (hmax : limits.maxBytes < byteCountLimit)
    (events : List (Nat × Event)) :
    ((new limits).run events).Consistent ∧ ((new limits).run events).limits = limits :=
  (consistent_new limits).run hmax events

/-- Room for three entries, but not for three sets of any size. -/
def narrowLimits : CacheLimits where
  maxEntries := 3
  maxBytes := 150
  ttl := 10

/-- Two sets are stored and the first is used again, so the second goes
when a larger one needs room; then the first is too old. -/
def narrowHistory : List (Nat × Event) :=
  [(0, .insert ⟨"a", false⟩ .empty), (1, .insert ⟨"b", false⟩ .empty), (2, .get ⟨"a", false⟩),
    (3, .insert ⟨"c", true⟩ (CapabilitySet.empty.insert .toolUse)), (10, .get ⟨"a", false⟩)]

theorem narrow_cache_consistent :
    narrowLimits.maxBytes < byteCountLimit ∧
    ((new narrowLimits).run narrowHistory).keys = [⟨"c", true⟩] ∧
    ((new narrowLimits).run narrowHistory).Consistent ∧
    ((new narrowLimits).run narrowHistory).limits = narrowLimits :=
  ⟨by decide, by decide +kernel, consistent_after_history narrowLimits (by decide) narrowHistory⟩

end Cache

end CapabilityBroker
