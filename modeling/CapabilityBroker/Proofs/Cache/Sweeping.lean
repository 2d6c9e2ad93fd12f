import CapabilityBroker.Proofs.Cache.Evictions
import CapabilityBroker.Proofs.Cache.Invariants
import Mathlib.Data.List.Perm.Basic
/-!
# Sweeping a cache

A sweep gives up the entries whose time is over, in any order (`Purges`),
and then, if the bytes of the others are more than the high mark, the
shortest beginning of the order of last uses that brings them down to the
low mark (`Shrinks`). The loop counts the bytes it has freed; it meets its
aim exactly when the low mark is reached, wherever the two marks lie. A
second sweep at the same instant finds nothing to do.
-/

namespace CapabilityBroker

/-- The bytes above which the use is brought down. -/
def CacheLimits.highMark (l : CacheLimits) : Nat := l.maxBytes * min l.reductionThreshold 100 / 100

/-- The bytes it is brought down to. -/
def CacheLimits.lowMark (l : CacheLimits) : Nat := l.maxBytes * min l.reductionRatio 100 / 100

namespace Cache

/-- **The entries whose time is over are given up.** -/
structure Purges (c : Cache) (now : Nat) (p : Cache × List CacheKey) : Prop where
  /-- Their keys are told, -/
  mem_iff {k : CacheKey} : k ∈ p.2 ↔ ∃ e, c.find? k = some e ∧ e.isExpired c.limits.ttl now = true
  /-- each of them once, -/
  nodup : p.2.Nodup
  /-- and in whatever order they are taken, -/
  perm_eq {ks : List CacheKey} : ks.Perm p.2 → c.evictAll ks = p.1
  /-- their entries go and no others. -/
  givenUp : c.GivenUp p.2 p.1

/-- **The use is brought down to a mark.** -/
structure Shrinks (c : Cache) (mark : Nat) (r : Cache × List CacheKey) : Prop where
  /-- The shortest beginning of the order that reaches the mark is told, -/
  shortest : ShortestPrefix (fun ks => c.bytes c.keys - c.bytes ks ≤ mark) c.keys r.2
  /-- its entries are given up one after another, -/
  eq_evictAll : r.1 = c.evictAll r.2
  /-- and no others are. -/
  givenUp : c.GivenUp r.2 r.1
  /-- On the way the bytes in use are fewer by the freed ones, -/
  current_eq {ks : List CacheKey} :
    ks <+: r.2 → (c.evictAll ks).budget.current + c.bytes ks = c.budget.current
  /-- and in the end as many are free as there were too many. -/
  excess_le : c.budget.excess ≤ c.budget.current - r.1.budget.current

/-- **A sweep at an instant**, in its two parts. -/
structure Sweeps (c : Cache) (now : Nat) (p r : Cache × List CacheKey) : Prop where
  purges : c.Purges now p
  /-- What is left stays if it is not more than the high mark, and is
  brought down to the low one otherwise. -/
  shrinks : if p.1.bytes p.1.keys ≤ c.limits.highMark then r = (p.1, [])
    else p.1.Shrinks c.limits.lowMark r
  /-- Another sweep at the instant does nothing. -/
  purge_eq : r.1.purge now = (r.1, [])
  reduce_eq : r.1.reduce = (r.1, [])

variable {c d : Cache} {j k : CacheKey} {ks js : List CacheKey} {now : Nat}

/-! ## In any order -/

theorem evict_comm : (c.evict j).evict k = (c.evict k).evict j := by
  by_cases hjk : j = k
  · rw [hjk]
  · have hj : (c.evict k).find? j = c.find? j := by rw [find?_evict, if_neg hjk]
    have hk : (c.evict j).find? k = c.find? k := by rw [find?_evict, if_neg (Ne.symm hjk)]
    -- a key without an entry gives up nothing, before the other one or after it
    cases hej : c.find? j with
    | none => rw [evict_of_none hej, evict_of_none (hj.trans hej)]
    | some e =>
      cases hek : c.find? k with
      | none => rw [evict_of_none hek, evict_of_none (hk.trans hek)]
      | some f =>
        rw [evict_of_some (hk.trans hek), evict_of_some (hj.trans hej), evict_of_some hej,
          evict_of_some hek]
        simp only [ByteBudget.remove, List.filter_filter, Bool.and_comm, Recency.erase_comm (j := j),
          Nat.sub_right_comm c.budget.current]

/-- Entries are given up in any order. -/
theorem evictAll_perm (h : ks.Perm js) (c : Cache) : c.evictAll ks = c.evictAll js := by
  have : RightCommutative evict := ⟨fun _ _ _ => evict_comm⟩
  exact h.foldl_eq c

/-! ## Entries whose time is over -/

namespace Consistent

theorem mem_expiredKeys (h : c.Consistent) :
    k ∈ c.expiredKeys now ↔ ∃ e, c.find? k = some e ∧ e.isExpired c.limits.ttl now = true := by
  have hmem (e : Entry) : (k, e) ∈ c.entries ↔ c.find? k = some e := by
    refine ⟨fun he => ?_, mem_of_find?⟩
    rw [find?, Keyed.find?_of_mem h.nodup he]
    rfl
  simp only [expiredKeys, List.mem_map, List.mem_filter]
  refine ⟨?_, ?_⟩
  · rintro ⟨⟨j, e⟩, ⟨he, hexpired⟩, rfl⟩
    exact ⟨e, (hmem e).mp he, hexpired⟩
  · rintro ⟨e, he, hexpired⟩
    exact ⟨(k, e), ⟨(hmem e).mpr he, hexpired⟩, rfl⟩

theorem purges (h : c.Consistent) (now : Nat) : c.Purges now (c.purge now) where
  mem_iff := h.mem_expiredKeys
  nodup := h.nodup.sublist (List.filter_sublist.map _)
  perm_eq hperm := evictAll_perm hperm c
  givenUp := by
    refine h.givenUp_evictAll (h.nodup.sublist (List.filter_sublist.map _)) fun k hk => ?_
    obtain ⟨e, he, -⟩ := h.mem_expiredKeys.mp hk
    exact h.aligned.find?_isSome_iff.mp (he ▸ rfl)

end Consistent

/-! ## The marks -/

/-- A cache shrinks at the marks of its limits. -/
structure Marked (c : Cache) : Prop where
  threshold_eq : c.budget.threshold = min c.limits.reductionThreshold 100
  ratio_eq : c.budget.ratio = min c.limits.reductionRatio 100

theorem marked_new (limits : CacheLimits) : (new limits).Marked := ⟨rfl, rfl⟩

theorem invariant_marked : Invariant Marked where
  erase k h := by
    unfold erase
    split <;> exact ⟨h.threshold_eq, h.ratio_eq⟩
  pop _ h := ⟨h.threshold_eq, h.ratio_eq⟩
  touch _ h := ⟨h.threshold_eq, h.ratio_eq⟩
  add _ _ h := ⟨h.threshold_eq, h.ratio_eq⟩
  clear h := ⟨h.threshold_eq, h.ratio_eq⟩
  count _ _ _ h := ⟨h.threshold_eq, h.ratio_eq⟩

namespace Marked

/-- The use is brought down when it is above the high mark, -/
theorem shouldReduce_iff (hm : c.Marked) (h : c.Consistent) :
    c.budget.shouldReduce = true ↔ c.limits.highMark < c.bytes c.keys := by
  rw [ByteBudget.shouldReduce, ByteBudget.share, decide_eq_true_eq, hm.threshold_eq, h.maxBytes_eq,
    h.bytes_keys, CacheLimits.highMark]

/-- and there are as many bytes too many as there are above the low one. -/
theorem excess_eq (hm : c.Marked) (h : c.Consistent) :
    c.budget.excess = c.budget.current - c.limits.lowMark := by
  rw [ByteBudget.excess, ByteBudget.share, hm.ratio_eq, h.maxBytes_eq, CacheLimits.lowMark]

/-! ## Bringing the use down -/

/-- **The use is brought down to the low mark** if it is above the high
one. -/
theorem reduce_cases (hm : c.Marked) (h : c.Consistent) :
    if c.bytes c.keys ≤ c.limits.highMark then c.reduce = (c, [])
    else c.Shrinks c.limits.lowMark c.reduce := by
  split
  · next hlow =>
    have hrest : c.budget.shouldReduce = false :=
      Bool.eq_false_iff.mpr fun hreduce =>
        Nat.not_lt.mpr hlow ((hm.shouldReduce_iff h).mp hreduce)
    rw [reduce, hrest]
    rfl
  · next hhigh =>
    have hreduce := (hm.shouldReduce_iff h).mpr (Nat.lt_of_not_le hhigh)
    have hexcess := hm.excess_eq h
    have hcurrent {t : List CacheKey} (ht : t <+: c.keys) :
        (c.evictAll t).budget.current + c.bytes t = c.budget.current :=
      (h.givenUp_of_isPrefix ht).current_eq
    have hall := hcurrent (List.prefix_refl c.keys)
    have hbytes := h.bytes_keys
    obtain ⟨ks, -, hloop, hshortest⟩ := h.aligned.evictUntil_eq
      (fun d => c.budget.excess ≤ c.budget.current - d.budget.current) c.recency.order.length
    have hks := hshortest h.size_le_order (decide_eq_true (by omega))
    have heq : c.reduce = (c.evictAll ks, ks) := by
      rw [reduce, hreduce]
      exact hloop
    rw [heq]
    refine ⟨hks.congr fun t ht => ?_, rfl, h.givenUp_of_isPrefix hks.starts,
      fun ht => hcurrent (ht.trans hks.starts), of_decide_eq_true hks.holds⟩
    -- what is free is what was given up, so the aim is met where the mark is reached
    have hfreed := hcurrent ht
    rw [decide_eq_true_eq]
    omega

/-- At the low mark there is nothing to do, even if it is above the high
one. -/
theorem reduce_eq (hm : c.Marked) (h : c.Consistent) (hlow : c.budget.current ≤ c.limits.lowMark) :
    c.reduce = (c, []) := by
  have hexcess : c.budget.excess = 0 := by
    rw [hm.excess_eq h]
    omega
  rw [reduce]
  split
  · rfl
  · cases c.recency.order.length with
    | zero => rfl
    | succ bound =>
      rw [hexcess]
      rfl

/-- After it was brought down, the use need not be again. -/
theorem reduce_reduce (hm : c.Marked) (h : c.Consistent) :
    c.reduce.1.reduce = (c.reduce.1, []) := by
  have hcases := hm.reduce_cases h
  split at hcases
  · next hlow => rw [hcases, hcases]
  · refine (invariant_marked.reduce hm).reduce_eq h.reduce ?_
    have hcurrent := hcases.givenUp.current_eq
    have hbytes := h.bytes_keys
    have hmark := hcases.shortest.holds
    rw [hcases.givenUp.limits_eq]
    omega

end Marked

/-! ## Both parts -/

/-- What a sweep left is not too old for a second one. -/
theorem Consistent.purge_reduce_purge (h : c.Consistent) (now : Nat) :
    (c.purge now).1.reduce.1.purge now = ((c.purge now).1.reduce.1, []) := by
  have hpurges := h.purges now
  have hwithin : (c.purge now).1.reduce.1.Within (c.purge now).1 := within_reduce
  have hnone : (c.purge now).1.reduce.1.expiredKeys now = [] := by
    refine List.eq_nil_iff_forall_not_mem.mpr fun k hk => ?_
    obtain ⟨e, he, hexpired⟩ := (h.purge now).reduce.mem_expiredKeys.mp hk
    have he' := hwithin.find? he
    -- an entry that was too old went in the first part, so none is left for another one
    by_cases hkeys : k ∈ (c.purge now).2
    · rw [hpurges.givenUp.gone hkeys] at he'
      cases he'
    · rw [hwithin.limits_eq, hpurges.givenUp.limits_eq] at hexpired
      exact hkeys (hpurges.mem_iff.mpr ⟨e, hpurges.givenUp.stays hkeys ▸ he', hexpired⟩)
  rw [Cache.purge, hnone]
  rfl

/-- **A sweep gives up what is too old, and then as little as it can.** In
every cache that can be reached, whatever the two percentages are, a sweep
gives up all entries whose time is over. If what is left is more than the
high mark, it gives up the shortest beginning of the order of last uses
that leaves no more than the low mark. It tells what it gave up and leaves
the rest as it was, and a second sweep at the same instant does nothing. -/
theorem sweep_gives_up_least (limits : CacheLimits) (hmax : limits.maxBytes < byteCountLimit)
    (events : List (Nat × Event)) (now : Nat) :
    ((new limits).run events).limits = limits ∧
    ((new limits).run events).Sweeps now (((new limits).run events).purge now)
      (((new limits).run events).purge now).1.reduce := by
  obtain ⟨h, hlimits⟩ := (consistent_new limits).run hmax events
  have hm := invariant_marked.purge now (invariant_marked.run events (marked_new limits))
  refine ⟨hlimits, h.purges now, ?_, h.purge_reduce_purge now, hm.reduce_reduce (h.purge now)⟩
  rw [← (h.purges now).givenUp.limits_eq]
  exact hm.reduce_cases (h.purge now)

/-- Room for three sets, of which two are more than the high mark. The low
mark is above the high one. -/
def crowdedLimits : CacheLimits where
  maxBytes := 151
  ttl := 10
  reductionThreshold := 40
  reductionRatio := 50

/-- Three sets are stored, the first of them early, and the second is used
last. -/
def crowdedHistory : List (Nat × Event) :=
  [(0, .insert ⟨"a", false⟩ .empty), (6, .insert ⟨"b", false⟩ .empty),
    (7, .insert ⟨"c", true⟩ .empty), (8, .get ⟨"b", false⟩)]

/-- The first one is too old, and of the others the second stays. -/
theorem crowded_cache_swept :
    crowdedLimits.maxBytes < byteCountLimit ∧
    (((new crowdedLimits).run crowdedHistory).purge 10).2 = [⟨"a", false⟩] ∧
    (((new crowdedLimits).run crowdedHistory).purge 10).1.reduce.2 = [⟨"c", true⟩] ∧
    ((new crowdedLimits).run crowdedHistory).limits = crowdedLimits ∧
    ((new crowdedLimits).run crowdedHistory).Sweeps 10
      (((new crowdedLimits).run crowdedHistory).purge 10)
      (((new crowdedLimits).run crowdedHistory).purge 10).1.reduce :=
  ⟨by decide, by decide +kernel, by decide +kernel,
    sweep_gives_up_least crowdedLimits (by decide) crowdedHistory 10⟩

end Cache

end CapabilityBroker
