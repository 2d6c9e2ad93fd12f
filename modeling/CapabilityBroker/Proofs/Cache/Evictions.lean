import CapabilityBroker.Proofs.Cache.Consistency
/-!
# Giving up entries

A cache gives up the entries of some keys one after another (`evictAll`).
If its parts agree, the entries are gone, their bytes are free and each is
counted, and all else stays as it was (`GivenUp`), whatever the order in
which the keys are taken (`Consistent.givenUp_evictAll`). The first keys in
the order of last uses leave the others in their order, and all of them
leave nothing in use.
-/

namespace CapabilityBroker

namespace Cache

variable {c d : Cache} {j k : CacheKey} {ks : List CacheKey} {e : Entry}

/-- The bytes that the entries of some keys count for. -/
def bytes (c : Cache) (ks : List CacheKey) : Nat := (ks.map fun k => (c.find? k).elim 0 (·.size)).sum

/-- **One cache is another that gave up the entries of some keys.** -/
structure GivenUp (c : Cache) (ks : List CacheKey) (d : Cache) : Prop where
  /-- The entries are gone, -/
  gone {k : CacheKey} : k ∈ ks → d.find? k = none
  /-- and no others are. -/
  stays {k : CacheKey} : k ∉ ks → d.find? k = c.find? k
  /-- The other keys keep their order. -/
  keys_eq : d.keys = c.keys.filter (· ∉ ks)
  /-- The bytes of the entries are free. -/
  current_eq : d.budget.current + c.bytes ks = c.budget.current
  /-- There are as many entries fewer, -/
  size_eq : d.size + ks.length = c.size
  /-- and each of them is counted. -/
  evictions_eq : d.evictions = c.evictions + ks.length
  limits_eq : d.limits = c.limits

/-! ## One entry -/

theorem bytes_cons : c.bytes (k :: ks) = (c.find? k).elim 0 (·.size) + c.bytes ks := rfl

theorem bytes_congr (h : ∀ k ∈ ks, d.find? k = c.find? k) : d.bytes ks = c.bytes ks := by
  rw [bytes, bytes, List.map_congr_left fun k hk => congrArg (·.elim 0 (·.size)) (h k hk)]

namespace Consistent

/-- The bytes of an entry that is taken out are free. -/
theorem current_erase (h : c.Consistent) (k : CacheKey) :
    (c.erase k).budget.current + (c.find? k).elim 0 (·.size) = c.budget.current := by
  cases hk : c.find? k with
  | none => rw [Cache.erase, hk]; rfl
  | some e =>
    have hperm := (Keyed.perm_cons_filter_ne h.nodup (mem_of_find? hk)).map (·.2.size)
    have hle : e.size ≤ c.budget.current := by
      rw [h.current_eq, ← hperm.sum_nat]
      exact Nat.le_add_right _ _
    simp only [Cache.erase, hk, ByteBudget.remove, Option.elim]
    omega

theorem current_evict (h : c.Consistent) (k : CacheKey) :
    (c.evict k).budget.current + (c.find? k).elim 0 (·.size) = c.budget.current := by
  rw [evict_eq_erase]
  exact h.current_erase k

/-- The bytes of all entries that are given up are free. -/
theorem current_evictAll (h : c.Consistent) (hnodup : ks.Nodup) :
    (c.evictAll ks).budget.current + c.bytes ks = c.budget.current := by
  induction ks generalizing c with
  | nil => rfl
  | cons k ks ih =>
    obtain ⟨hk, hnodup⟩ := List.nodup_cons.mp hnodup
    have hbytes : (c.evict k).bytes ks = c.bytes ks := bytes_congr fun j hj => by
      have hne : j ≠ k := fun heq => hk (heq ▸ hj)
      rw [find?_evict, if_neg hne]
    have hfirst := h.current_evict k
    have hrest := ih (h.evict k) hnodup
    rw [hbytes] at hrest
    rw [bytes_cons]
    change ((c.evict k).evictAll ks).budget.current + _ = _
    omega

/-- **Entries are given up one by one**, and the order does not matter. -/
theorem givenUp_evictAll (h : c.Consistent) (hnodup : ks.Nodup) (hks : ∀ k ∈ ks, k ∈ c.keys) :
    c.GivenUp ks (c.evictAll ks) where
  gone hk := find?_evictAll.trans (if_pos hk)
  stays hk := find?_evictAll.trans (if_neg hk)
  keys_eq := h.aligned.keys_evictAll ks
  current_eq := h.current_evictAll hnodup
  size_eq := (h.aligned.counts_evictAll hnodup hks).1
  evictions_eq := (h.aligned.counts_evictAll hnodup hks).2
  limits_eq := within_evictAll.limits_eq

/-- Beginnings of the order of last uses hold each key once. -/
theorem givenUp_of_isPrefix (h : c.Consistent) (hks : ks <+: c.keys) :
    c.GivenUp ks (c.evictAll ks) :=
  h.givenUp_evictAll (h.linked.toList_nodup.sublist hks.sublist) fun _ hk => hks.subset hk

/-- Without the first keys in order, the others are left. -/
theorem keys_eq_drop (h : c.Consistent) (hks : ks <+: c.keys) (hd : c.GivenUp ks d) :
    d.keys = c.keys.drop ks.length := by
  obtain ⟨rest, hrest⟩ := hks
  have hnodup : (ks ++ rest).Nodup := hrest ▸ h.linked.toList_nodup
  rw [hd.keys_eq, ← hrest, List.drop_left, List.filter_append]
  have hnone : ks.filter (· ∉ ks) = [] := List.filter_eq_nil_iff.mpr fun k hk => by simpa using hk
  have hall : rest.filter (· ∉ ks) = rest := List.filter_eq_self.mpr fun k hk => by
    have hout : k ∉ ks := fun hmem => List.nodup_append.mp hnodup |>.2.2 k hmem k hk rfl
    simpa using hout
  rw [hnone, hall, List.nil_append]

/-- All bytes in use are those of the keys. -/
theorem bytes_keys (h : c.Consistent) : c.bytes c.keys = c.budget.current := by
  have hall := h.givenUp_of_isPrefix (List.prefix_refl c.keys)
  have hnone : (c.evictAll c.keys).keys = [] := by
    rw [h.keys_eq_drop (List.prefix_refl _) hall, List.drop_length]
  have hcurrent := hall.current_eq
  rw [(h.evictAll c.keys).current_eq_zero hnone] at hcurrent
  omega

/-- The loops are given as many steps as there are entries. -/
theorem size_le_order (h : c.Consistent) : c.size ≤ c.recency.order.length := by
  rw [← h.aligned.length_keys, keys, Recency.toList, List.length_map]

end Consistent

end Cache

end CapabilityBroker
