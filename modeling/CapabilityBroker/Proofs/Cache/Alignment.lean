import CapabilityBroker.Proofs.Cache.Contents
import CapabilityBroker.Proofs.Cache.Recency
import Mathlib.Data.List.Infix
/-!
# The entries of a cache and their order

The entries of a cache and the order of their last uses are kept apart,
and they agree (`Aligned`). So giving up the least recently used entry is
giving up that of the first key (`Aligned.evictOldest?_eq`), and the loops
of a cache give up the entries of a beginning of the order, one after
another (`evictAll`): of the shortest one that is enough
(`Aligned.evictUntil_eq`). The bytes in use do not matter for that.
-/

namespace CapabilityBroker

/-- The shortest beginning of a list that has a property. -/
structure ShortestPrefix {α : Type} (p : List α → Prop) (l start : List α) : Prop where
  starts : start <+: l
  holds : p start
  length_le {t : List α} : t <+: l → p t → start.length ≤ t.length

namespace ShortestPrefix

variable {α : Type} {p q : List α → Prop} {l start : List α} {a : α}

/-- If nothing is needed, nothing is taken. -/
theorem nil (h : p []) : ShortestPrefix p l [] := ⟨List.nil_prefix, h, fun _ _ => Nat.zero_le _⟩

/-- Where nothing is not enough, the first item is taken. -/
theorem cons (hnil : ¬ p []) (h : ShortestPrefix (fun t => p (a :: t)) l start) :
    ShortestPrefix p (a :: l) (a :: start) where
  starts := List.cons_prefix_cons.mpr ⟨rfl, h.starts⟩
  holds := h.holds
  length_le {t} ht hp := by
    cases t with
    | nil => exact absurd hp hnil
    | cons b t =>
      obtain ⟨rfl, htail⟩ := List.cons_prefix_cons.mp ht
      exact Nat.succ_le_succ (h.length_le htail hp)

/-- It is enough that two properties agree on the beginnings of a list. -/
theorem congr (h : ShortestPrefix p l start) (hpq : ∀ t, t <+: l → (p t ↔ q t)) :
    ShortestPrefix q l start where
  starts := h.starts
  holds := (hpq start h.starts).mp h.holds
  length_le ht hq := h.length_le ht ((hpq _ ht).mpr hq)

end ShortestPrefix

namespace Cache

/-- **The entries of a cache and the order of their last uses agree.** -/
structure Aligned (c : Cache) : Prop where
  /-- No key has two entries. -/
  nodup : (c.entries.map (·.1)).Nodup
  /-- The tables of the tracker agree. -/
  linked : c.recency.Linked
  /-- The keys in order are those of the entries. -/
  mem_keys {k : CacheKey} : k ∈ c.keys ↔ k ∈ c.entries.map (·.1)

/-- The keys but one, in the order of their last uses. -/
def otherKeys (c : Cache) (k : CacheKey) : List CacheKey := c.keys.filter (· ≠ k)

variable {c d : Cache} {j k : CacheKey} {ks : List CacheKey} {e : Entry} {now : Nat}

theorem isSome_find?_iff : (c.find? k).isSome ↔ k ∈ c.entries.map (·.1) := by
  simp [Cache.find?]

theorem mem_of_find? (h : c.find? k = some e) : (k, e) ∈ c.entries := by
  obtain ⟨p, hp, rfl⟩ := Option.map_eq_some_iff.mp h
  have hkey : p.1 = k := by simpa using List.find?_some hp
  exact hkey ▸ List.mem_of_find?_eq_some hp

/-! ## One entry -/

/-- Without an entry nothing is taken out, -/
theorem erase_of_none (h : c.find? k = none) : c.erase k = c := by simp [erase, h]

theorem erase_of_some (h : c.find? k = some e) : c.erase k = { c with
    entries := c.entries.filter (·.1 ≠ k)
    recency := c.recency.erase k
    budget := c.budget.remove e.size } := by
  simp only [erase, h]

/-- and nothing is given up. -/
theorem evict_of_none (h : c.find? k = none) : c.evict k = c := by simp [evict, h]

theorem evict_of_some (h : c.find? k = some e) : c.evict k = { c with
    entries := c.entries.filter (·.1 ≠ k)
    recency := c.recency.erase k
    budget := c.budget.remove e.size
    evictions := c.evictions + 1 } := by
  rw [evict, if_pos (h ▸ rfl), erase_of_some h]

/-- Giving up an entry is taking it out and counting it, if it is there. -/
theorem evict_eq_erase : c.evict k =
    { c.erase k with evictions := c.evictions + if (c.find? k).isSome then 1 else 0 } := by
  cases hk : c.find? k with
  | none =>
    rw [evict_of_none hk, erase_of_none hk]
    rfl
  | some e =>
    rw [evict_of_some hk, erase_of_some hk]
    rfl

theorem find?_evict : (c.evict k).find? j = if j = k then none else c.find? j := by
  rw [evict_eq_erase]
  exact find?_erase

theorem entries_erase : (c.erase k).entries = c.entries.filter (·.1 ≠ k) := by
  cases hk : c.find? k with
  | none =>
    have hall : c.entries.filter (·.1 ≠ k) = c.entries := List.filter_eq_self.mpr fun p hp => by
      have hne : p.1 ≠ k := by
        rintro rfl
        have hsome : (c.find? p.1).isSome := isSome_find?_iff.mpr (List.mem_map.mpr ⟨p, hp, rfl⟩)
        simp [hk] at hsome
      simpa using hne
    rw [erase_of_none hk, hall]
  | some e => rw [erase_of_some hk]

theorem entries_evict : (c.evict k).entries = c.entries.filter (·.1 ≠ k) := by
  rw [evict_eq_erase, ← entries_erase]

theorem mem_otherKeys : j ∈ c.otherKeys k ↔ j ∈ c.keys ∧ j ≠ k := by simp [otherKeys]

namespace Aligned

theorem of_eq (h : c.Aligned) (hentries : d.entries = c.entries)
    (hrecency : d.recency = c.recency) : d.Aligned where
  nodup := hentries ▸ h.nodup
  linked := hrecency ▸ h.linked
  mem_keys := by
    rw [keys, hrecency, hentries]
    exact h.mem_keys

theorem find?_isSome_iff (h : c.Aligned) : (c.find? k).isSome ↔ k ∈ c.keys :=
  isSome_find?_iff.trans h.mem_keys.symm

theorem find?_eq_none_iff (h : c.Aligned) : c.find? k = none ↔ k ∉ c.keys := by
  rw [← h.find?_isSome_iff]
  simp

theorem erase (h : c.Aligned) (k : CacheKey) : (c.erase k).Aligned := by
  unfold Cache.erase
  split
  · exact h
  · refine ⟨h.nodup.sublist (List.filter_sublist.map _), h.linked.erase k, fun {j} => ?_⟩
    have hkeys : j ∈ c.recency.toList ↔ j ∈ c.entries.map (·.1) := h.mem_keys
    simp only [keys, h.linked.toList_erase, List.mem_filter, hkeys]
    simp

theorem evict (h : c.Aligned) (k : CacheKey) : (c.evict k).Aligned := by
  rw [evict_eq_erase]
  exact (h.erase k).of_eq rfl rfl

theorem keys_erase (h : c.Aligned) (k : CacheKey) : (c.erase k).keys = c.otherKeys k := by
  cases hk : c.find? k with
  | none =>
    have hout := h.find?_eq_none_iff.mp hk
    have hall : c.otherKeys k = c.keys := List.filter_eq_self.mpr fun j hj => by
      have hne : j ≠ k := fun heq => hout (heq ▸ hj)
      simpa using hne
    rw [erase_of_none hk, hall]
  | some e => simpa only [Cache.erase, hk, keys, otherKeys] using h.linked.toList_erase

theorem keys_evict (h : c.Aligned) (k : CacheKey) : (c.evict k).keys = c.otherKeys k := by
  rw [evict_eq_erase, ← h.keys_erase k]
  rfl

/-- Without the first key the others are left. -/
theorem keys_evict_head (h : c.Aligned) (hkeys : c.keys = k :: ks) : (c.evict k).keys = ks := by
  have hnodup : (k :: ks).Nodup := hkeys ▸ h.linked.toList_nodup
  have hrest : ks.filter (· ≠ k) = ks := List.filter_eq_self.mpr fun j hj => by
    have hne : j ≠ k := fun heq => (List.nodup_cons.mp hnodup).1 (heq ▸ hj)
    simpa using hne
  rw [h.keys_evict k, otherKeys, hkeys, List.filter_cons_of_neg (by simp), hrest]

/-- **Giving up the least recently used entry** is giving up that of the
first key. -/
theorem evictOldest?_eq (h : c.Aligned) :
    c.evictOldest? = c.keys.head?.map fun k => (k, c.evict k) := by
  unfold evictOldest?
  rw [h.linked.pop?_eq, Option.map_map]
  refine Option.map_congr fun k hk => ?_
  -- the tracker has forgotten the key already, and forgets it once more
  have hmem : k ∈ c.keys := List.mem_of_head? hk
  obtain ⟨e, he⟩ := Option.isSome_iff_exists.mp (h.find?_isSome_iff.mpr hmem)
  have he' : Cache.find? { c with recency := c.recency.erase k } k = some e := he
  simp only [Function.comp_apply, Cache.evict, Cache.erase, he, he', Recency.erase_erase,
    Option.isSome_some, if_true]

/-- There are as many keys as entries. -/
theorem length_keys (h : c.Aligned) : c.keys.length = c.size := by
  have hperm : c.keys.Perm (c.entries.map (·.1)) :=
    (List.perm_ext_iff_of_nodup h.linked.toList_nodup h.nodup).mpr fun _ => h.mem_keys
  rw [hperm.length_eq, List.length_map, Cache.size]

/-- Giving up an entry leaves one entry less. -/
theorem size_evict (h : c.Aligned) (hk : k ∈ c.keys) : (c.evict k).size + 1 = c.size := by
  obtain ⟨e, he⟩ := Option.isSome_iff_exists.mp (h.find?_isSome_iff.mpr hk)
  have hperm := Keyed.perm_cons_filter_ne h.nodup (mem_of_find? he)
  simp only [Cache.evict, Cache.erase, he, Option.isSome_some, if_true]
  exact hperm.length_eq

/-- A key that is used goes to the end of the order, and is in it as
before. -/
theorem touch (h : c.Aligned) (hk : k ∈ c.keys) :
    Aligned { c with recency := c.recency.touch k } := by
  refine ⟨h.nodup, h.linked.touch k, fun {j} => ?_⟩
  have hkeys : j ∈ c.recency.toList ↔ j ∈ c.entries.map (·.1) := h.mem_keys
  simp only [keys, h.linked.toList_touch, List.mem_append, List.mem_filter, hkeys]
  by_cases hj : j = k
  · simpa [hj] using h.mem_keys.mp hk
  · simp [hj]

/-- An entry is added under a key that has none. -/
theorem add (h : c.Aligned) (hk : c.find? k = none) (e : Entry) (budget : ByteBudget) :
    Aligned { c with
      entries := (k, e) :: c.entries
      recency := c.recency.touch k
      budget } := by
  have hout : k ∉ c.entries.map (·.1) := h.mem_keys.not.mp (h.find?_eq_none_iff.mp hk)
  refine ⟨List.nodup_cons.mpr ⟨hout, h.nodup⟩, h.linked.touch k, fun {j} => ?_⟩
  have hkeys : j ∈ c.recency.toList ↔ j ∈ c.entries.map (·.1) := h.mem_keys
  simp only [keys, h.linked.toList_touch, List.mem_append, List.mem_filter, hkeys, List.map_cons,
    List.mem_cons]
  by_cases hj : j = k
  · simp [hj]
  · simp [hj]

theorem get (h : c.Aligned) (now : Nat) (k : CacheKey) : (c.get now k).1.Aligned := by
  unfold Cache.get
  split
  · exact h.of_eq rfl rfl
  · next e he =>
    split
    · exact (h.evict k).of_eq rfl rfl
    · exact (h.touch (h.find?_isSome_iff.mp (he ▸ rfl))).of_eq rfl rfl

end Aligned

theorem aligned_new (limits : CacheLimits) : (new limits).Aligned where
  nodup := List.nodup_nil
  linked := Recency.Linked.empty
  mem_keys := Iff.rfl

theorem aligned_clear : c.clear.Aligned where
  nodup := List.nodup_nil
  linked := Recency.Linked.clear _
  mem_keys := Iff.rfl

/-! ## Several entries -/

/-- What is gone with one key and what is gone with others are gone
together. -/
theorem ite_none_cons {ks : List CacheKey} {found : Option Entry} :
    (if j ∈ ks then none else if j = k then none else found) =
      if j ∈ k :: ks then none else found := by
  by_cases hjk : j = k
  · simp [hjk]
  · simp [hjk]

theorem find?_evictAll {ks : List CacheKey} :
    (c.evictAll ks).find? j = if j ∈ ks then none else c.find? j := by
  induction ks generalizing c with
  | nil => rfl
  | cons k ks ih =>
    change ((c.evict k).evictAll ks).find? j = _
    rw [ih, find?_evict]
    exact ite_none_cons

theorem entries_evictAll : (c.evictAll ks).entries = c.entries.filter (·.1 ∉ ks) := by
  induction ks generalizing c with
  | nil => simp [evictAll]
  | cons k ks ih =>
    have hrest : (c.evictAll (k :: ks)).entries = (c.evict k).entries.filter (·.1 ∉ ks) := ih
    rw [hrest, entries_evict, Keyed.filter_ne_filter]

theorem size_evictAll_le : (c.evictAll ks).size ≤ c.size := by
  rw [size, entries_evictAll]
  exact List.length_filter_le _ _

namespace Aligned

theorem evictAll (h : c.Aligned) (ks : List CacheKey) : (c.evictAll ks).Aligned := by
  induction ks generalizing c with
  | nil => exact h
  | cons k ks ih => exact ih (h.evict k)

theorem keys_evictAll (h : c.Aligned) (ks : List CacheKey) :
    (c.evictAll ks).keys = c.keys.filter (· ∉ ks) := by
  induction ks generalizing c with
  | nil =>
    rw [List.filter_eq_self.mpr (by simp)]
    rfl
  | cons k ks ih =>
    have hrest : (c.evictAll (k :: ks)).keys = (c.evict k).keys.filter (· ∉ ks) := ih (h.evict k)
    rw [hrest, h.keys_evict k, otherKeys, List.filter_filter]
    refine List.filter_congr fun j _ => ?_
    simp [Bool.and_comm]

/-- **Every key that has an entry** is one entry fewer, and is counted once,
when it is given up. -/
theorem counts_evictAll (h : c.Aligned) (hnodup : ks.Nodup) (hks : ∀ k ∈ ks, k ∈ c.keys) :
    (c.evictAll ks).size + ks.length = c.size ∧
      (c.evictAll ks).evictions = c.evictions + ks.length := by
  induction ks generalizing c with
  | nil => exact ⟨rfl, rfl⟩
  | cons k ks ih =>
    obtain ⟨hk, hnodup⟩ := List.nodup_cons.mp hnodup
    have hmem := hks k List.mem_cons_self
    have hsize := h.size_evict hmem
    have hcounted : (c.evict k).evictions = c.evictions + 1 := by
      rw [evict_eq_erase, if_pos (h.find?_isSome_iff.mpr hmem)]
    have hrest := ih (h.evict k) hnodup fun j hj => by
      rw [h.keys_evict k, mem_otherKeys]
      exact ⟨hks j (List.mem_cons_of_mem k hj), fun heq => hk (heq ▸ hj)⟩
    rw [List.length_cons]
    change ((c.evict k).evictAll ks).size + _ = _ ∧ ((c.evict k).evictAll ks).evictions = _
    omega

/-- **The loops of a cache** give up a beginning of the order of last uses:
the shortest one that is enough, if they may take enough steps and giving
up everything is enough. -/
theorem evictUntil_eq (h : c.Aligned) (enough : Cache → Bool) (bound : Nat) :
    ∃ ks, ks <+: c.keys ∧ Cache.evictUntil enough bound c = (c.evictAll ks, ks) ∧
      (c.size ≤ bound → enough (c.evictAll c.keys) = true →
        ShortestPrefix (fun t => enough (c.evictAll t) = true) c.keys ks) := by
  induction bound generalizing c with
  | zero =>
    refine ⟨[], List.nil_prefix, rfl, fun hbound hall => ?_⟩
    have hkeys : c.keys = [] :=
      List.length_eq_zero_iff.mp (h.length_keys.trans (Nat.le_zero.mp hbound))
    rw [hkeys] at hall ⊢
    exact .nil hall
  | succ bound ih =>
    unfold Cache.evictUntil
    by_cases henough : enough c = true
    · exact ⟨[], List.nil_prefix, if_pos henough, fun _ _ => .nil henough⟩
    · rw [if_neg henough, h.evictOldest?_eq]
      cases hkeys : c.keys with
      | nil => exact ⟨[], List.nil_prefix, rfl, fun _ hall => absurd hall henough⟩
      | cons k rest =>
        have hsize := h.size_evict (k := k) (hkeys ▸ List.mem_cons_self)
        obtain ⟨ks, hks, heq, hshortest⟩ := ih (h.evict k)
        rw [h.keys_evict_head hkeys] at hks hshortest
        refine ⟨k :: ks, List.cons_prefix_cons.mpr ⟨rfl, hks⟩, ?_, fun hbound hall =>
          .cons henough (hshortest (by omega) hall)⟩
        simp only [List.head?_cons, Option.map_some, heq]
        rfl

/-- Bringing the use down gives up a beginning of the order of last uses. -/
theorem reduce_eq (h : c.Aligned) :
    ∃ ks, ks <+: c.keys ∧ c.reduce = (c.evictAll ks, ks) := by
  unfold Cache.reduce
  split
  · exact ⟨[], List.nil_prefix, rfl⟩
  · obtain ⟨ks, hks, heq, -⟩ := h.evictUntil_eq
      (fun d => c.budget.excess ≤ c.budget.current - d.budget.current) c.recency.order.length
    exact ⟨ks, hks, heq⟩

end Aligned

end Cache

end CapabilityBroker
