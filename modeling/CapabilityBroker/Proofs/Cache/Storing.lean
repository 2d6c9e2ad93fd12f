import CapabilityBroker.Proofs.Cache.Evictions
/-!
# Making room for a value

A value that is stored takes the place of the entry under its key. Where
it would be one entry too many, or would not fit, the least recently used
entries are given up for it: the shortest beginning of the order of last
uses that makes room (`HasRoom`). The number of entries is looked at
first and at most one entry goes for it; the bytes are looked at in a loop.
Taken together they come to one beginning, since the room only grows with
what is given up.
-/

namespace CapabilityBroker

namespace Cache

/-- There is room for a value of a size under a key once the entries of
some of the other keys are given up. -/
def HasRoom (c : Cache) (k : CacheKey) (size : Nat) (given : List CacheKey) : Prop :=
  (c.otherKeys k).length - given.length + 1 ≤ c.limits.maxEntries ∧
    c.bytes (c.otherKeys k) - c.bytes given + size ≤ c.limits.maxBytes

/-- A cache with one more entry, which is the most recently used one. -/
def store (c : Cache) (now : Nat) (k : CacheKey) (v : CapabilitySet) : Cache :=
  { c with
    entries := (k, ⟨k, v, now, v.byteSize⟩) :: c.entries
    recency := c.recency.touch k
    budget := c.budget.add v.byteSize }

/-- What goes for the bytes of a value, and the cache without it. -/
def makeRoom (c : Cache) (size : Nat) : Cache × List CacheKey :=
  evictUntil (·.budget.fits size) c.recency.order.length c

/-- **Storing a value did nothing** but take out what was under its key. -/
structure Refuses (c : Cache) (k : CacheKey) (r : Cache × Stored) : Prop where
  isKept_eq : r.2.isKept = false
  /-- The key is absent, -/
  absent : r.1.find? k = none
  /-- and every other entry is as it was. -/
  others {j : CacheKey} : j ≠ k → r.1.find? j = c.find? j
  keys_eq : r.1.keys = c.otherKeys k
  evictions_eq : r.1.evictions = c.evictions

/-- **Storing a value gave up the entries of some keys** and kept the
value. -/
structure KeepsFor (c : Cache) (now : Nat) (k : CacheKey) (v : CapabilitySet)
    (given : List CacheKey) (r : Cache × Stored) : Prop where
  /-- The value is kept, and the keys are told. -/
  isKept : ∃ evicted, r.2 = .kept evicted ∧ evicted.map (·.2) = given
  /-- It is under its key since now. -/
  present : r.1.find? k = some ⟨k, v, now, v.byteSize⟩
  /-- What was given up is gone, -/
  gone {j : CacheKey} : j ∈ given → r.1.find? j = none
  /-- and every other entry is as it was. -/
  others {j : CacheKey} : j ≠ k → j ∉ given → r.1.find? j = c.find? j
  /-- The other keys keep their order, before the key. -/
  keys_eq : r.1.keys = (c.otherKeys k).drop given.length ++ [k]
  /-- What was under the key is not counted as given up. -/
  evictions_eq : r.1.evictions = c.evictions + given.length
  /-- When the value was stored, it fitted. -/
  fits : ∃ d : Cache, d.budget.fits v.byteSize = true ∧ r.1 = d.store now k v

variable {c d : Cache} {j k : CacheKey} {ks t : List CacheKey} {v : CapabilitySet} {now size : Nat}

theorem find?_store_ne (hj : j ≠ k) : (c.store now k v).find? j = c.find? j := by
  have hne : ¬ k = j := fun heq => hj heq.symm
  simp [store, find?, hne]

theorem evictions_erase : (c.erase k).evictions = c.evictions := by
  unfold erase
  split <;> rfl

/-! ## What storing comes to -/

/-- Where another entry is not too many, entries go for the bytes only. -/
theorem insert_of_free
    (hkept : ¬ ((c.erase k).limits.maxEntries = 0 ∨ (c.erase k).budget.maxBytes < v.byteSize))
    (hfree : ¬ (c.erase k).limits.maxEntries ≤ (c.erase k).size) :
    c.insert now k v = (((c.erase k).makeRoom v.byteSize).1.store now k v,
      .kept (((c.erase k).makeRoom v.byteSize).2.map (.budget, ·))) := by
  rw [Cache.insert, if_neg hkept, if_neg hfree]
  rfl

namespace Aligned

/-- Where it is, the first entry goes before them. -/
theorem insert_of_full (h : c.Aligned) (now : Nat)
    (hkept : ¬ ((c.erase k).limits.maxEntries = 0 ∨ (c.erase k).budget.maxBytes < v.byteSize))
    (hfull : (c.erase k).limits.maxEntries ≤ (c.erase k).size) :
    ∃ j rest, (c.erase k).keys = j :: rest ∧ c.insert now k v =
      ((((c.erase k).evict j).makeRoom v.byteSize).1.store now k v, .kept
        ((.capacity, j) :: (((c.erase k).evict j).makeRoom v.byteSize).2.map (.budget, ·))) := by
  have herase := h.erase k
  cases hkeys : (c.erase k).keys with
  | nil =>
    -- a full cache holds something, since it is to hold something
    have hlength := herase.length_keys
    rw [hkeys, List.length_nil] at hlength
    omega
  | cons j rest =>
    refine ⟨j, rest, rfl, ?_⟩
    rw [Cache.insert, if_neg hkept, if_pos hfull, herase.evictOldest?_eq, hkeys]
    rfl

theorem makeRoom_eq (h : c.Aligned) (size : Nat) :
    ∃ ks, ks <+: c.keys ∧ c.makeRoom size = (c.evictAll ks, ks) := by
  obtain ⟨ks, hks, heq, -⟩ := h.evictUntil_eq (·.budget.fits size) c.recency.order.length
  exact ⟨ks, hks, heq⟩

/-- **A value is refused**, or entries are given up in the order of their
last uses and it is stored. -/
theorem insert_cases (h : c.Aligned) (now : Nat) (k : CacheKey) (v : CapabilitySet) :
    c.insert now k v = (c.erase k, .refused v.byteSize) ∨
    ∃ evicted, evicted.map (·.2) <+: (c.erase k).keys ∧ c.insert now k v =
      (((c.erase k).evictAll (evicted.map (·.2))).store now k v, .kept evicted) := by
  have hsnd (r : Reason) (ks : List CacheKey) : (ks.map (r, ·)).map (·.2) = ks := by
    simp [Function.comp_def]
  by_cases hkept : (c.erase k).limits.maxEntries = 0 ∨ (c.erase k).budget.maxBytes < v.byteSize
  · exact Or.inl (by rw [Cache.insert, if_pos hkept])
  · refine Or.inr ?_
    by_cases hfull : (c.erase k).limits.maxEntries ≤ (c.erase k).size
    · obtain ⟨j, rest, hkeys, hinsert⟩ := h.insert_of_full now hkept hfull
      obtain ⟨ks, hks, hroom⟩ := ((h.erase k).evict j).makeRoom_eq v.byteSize
      rw [(h.erase k).keys_evict_head hkeys] at hks
      refine ⟨(.capacity, j) :: ks.map (.budget, ·), ?_, ?_⟩
      · rw [List.map_cons, hsnd, hkeys]
        exact List.cons_prefix_cons.mpr ⟨rfl, hks⟩
      · rw [hinsert, hroom, List.map_cons, hsnd]
        rfl
    · obtain ⟨ks, hks, hroom⟩ := (h.erase k).makeRoom_eq v.byteSize
      refine ⟨ks.map (.budget, ·), (hsnd _ ks).symm ▸ hks, ?_⟩
      rw [insert_of_free hkept hfull, hroom, hsnd]

end Aligned

/-! ## The least that makes room -/

namespace Consistent

/-- The bytes of other keys are not changed by taking out one key. -/
theorem bytes_erase (h : c.Consistent) (ht : t <+: (c.erase k).keys) :
    (c.erase k).bytes t = c.bytes t := by
  refine bytes_congr fun j hj => ?_
  have hmem : j ∈ c.otherKeys k := h.aligned.keys_erase k ▸ ht.subset hj
  rw [find?_erase, if_neg (mem_otherKeys.mp hmem).2]

/-- **A value fits** if the bytes of what is left and its own are not too
many. -/
theorem fits_evictAll_iff (h : c.Consistent) (hmax : c.limits.maxBytes < byteCountLimit)
    (ht : t <+: c.keys) :
    (c.evictAll t).budget.fits size = true ↔
      c.bytes c.keys - c.bytes t + size ≤ c.limits.maxBytes := by
  have hgiven := h.givenUp_of_isPrefix ht
  have hcurrent := hgiven.current_eq
  rw [← h.bytes_keys] at hcurrent
  have hmaxBytes := (h.evictAll t).maxBytes_eq
  rw [hgiven.limits_eq] at hmaxBytes
  rw [ByteBudget.fits, ByteBudget.after, hmaxBytes, decide_eq_true_eq]
  omega

/-- With nothing in use there is room for every value that may be kept. -/
theorem fits_evictAll_keys (h : c.Consistent) (hmax : c.limits.maxBytes < byteCountLimit)
    (hsize : size ≤ c.limits.maxBytes) : (c.evictAll c.keys).budget.fits size = true := by
  rw [h.fits_evictAll_iff hmax (List.prefix_refl _)]
  omega

/-- **The loop that makes room for the bytes** of a value. -/
theorem makeRoom_eq (h : c.Consistent) (hmax : c.limits.maxBytes < byteCountLimit)
    (hsize : size ≤ c.limits.maxBytes) :
    ∃ ks, ShortestPrefix (fun t => (c.evictAll t).budget.fits size = true) c.keys ks ∧
      c.makeRoom size = (c.evictAll ks, ks) := by
  obtain ⟨ks, -, hloop, hshortest⟩ :=
    h.aligned.evictUntil_eq (·.budget.fits size) c.recency.order.length
  exact ⟨ks, hshortest h.size_le_order (h.fits_evictAll_keys hmax hsize), hloop⟩

/-- **There is room** if there is in the number of entries and the value
fits. -/
theorem hasRoom_iff (h : c.Consistent) (hmax : c.limits.maxBytes < byteCountLimit)
    (ht : t <+: (c.erase k).keys) :
    c.HasRoom k size t ↔ (c.erase k).size - t.length + 1 ≤ c.limits.maxEntries ∧
      ((c.erase k).evictAll t).budget.fits size = true := by
  have herase := h.erase k
  have hkeys : (c.erase k).keys = c.otherKeys k := h.aligned.keys_erase k
  have hlimits : (c.erase k).limits = c.limits := limits_erase
  rw [herase.fits_evictAll_iff (hlimits ▸ hmax) ht, h.bytes_erase ht,
    h.bytes_erase (List.prefix_refl _), ← herase.aligned.length_keys, hkeys, hlimits]
  rfl

/-- Where another entry is not too many, only the bytes matter. -/
theorem shortest_of_free (h : c.Consistent) (hmax : c.limits.maxBytes < byteCountLimit)
    (hfree : (c.erase k).size < c.limits.maxEntries)
    (hfits : ShortestPrefix (fun t => ((c.erase k).evictAll t).budget.fits size = true)
      (c.erase k).keys ks) :
    ShortestPrefix (c.HasRoom k size) (c.erase k).keys ks := by
  refine hfits.congr fun t ht => ?_
  rw [h.hasRoom_iff hmax ht, iff_and_self]
  omega

/-- Where it is, the first entry goes, which is one entry too few again. -/
theorem shortest_of_full (h : c.Consistent) (hmax : c.limits.maxBytes < byteCountLimit)
    (hfull : c.limits.maxEntries ≤ (c.erase k).size) {rest : List CacheKey}
    (hkeys : (c.erase k).keys = j :: rest)
    (hfits : ShortestPrefix (fun t => (((c.erase k).evict j).evictAll t).budget.fits size = true)
      rest ks) :
    ShortestPrefix (c.HasRoom k size) (j :: rest) (j :: ks) := by
  have hlength := (h.erase k).aligned.length_keys
  have hle := (h.erase k).size_le
  rw [hkeys, List.length_cons] at hlength
  rw [limits_erase] at hle
  refine .cons (fun hnone => ?_) (hfits.congr fun t ht => ?_)
  · have hcount := ((h.hasRoom_iff hmax List.nil_prefix).mp hnone).1
    rw [List.length_nil] at hcount
    omega
  · rw [h.hasRoom_iff hmax (hkeys ▸ List.cons_prefix_cons.mpr ⟨rfl, ht⟩)]
    refine (and_iff_right ?_).symm
    rw [List.length_cons]
    omega

/-- **Storing a value that is not refused** gives up the shortest beginning
of the order that makes room: what goes for the number of entries comes
first, and then what goes for the bytes. -/
theorem insert_eq (h : c.Consistent) (hmax : c.limits.maxBytes < byteCountLimit)
    (hkeeps : c.limits.maxEntries ≠ 0) (hsize : v.byteSize ≤ c.limits.maxBytes) (k : CacheKey)
    (now : Nat) :
    ∃ ks evicted, ShortestPrefix (c.HasRoom k v.byteSize) (c.erase k).keys ks ∧
      evicted.map (·.2) = ks ∧
      c.insert now k v = (((c.erase k).evictAll ks).store now k v, .kept evicted) := by
  have herase := h.erase k
  have hlimits : (c.erase k).limits = c.limits := limits_erase
  have hkept : ¬ ((c.erase k).limits.maxEntries = 0 ∨
      (c.erase k).budget.maxBytes < v.byteSize) := by
    rw [herase.maxBytes_eq, hlimits]
    omega
  by_cases hfull : (c.erase k).limits.maxEntries ≤ (c.erase k).size
  · obtain ⟨j, rest, hkeys, hinsert⟩ := h.aligned.insert_of_full now hkept hfull
    have hlimits' : ((c.erase k).evict j).limits = c.limits :=
      within_evict.limits_eq.trans hlimits
    obtain ⟨ks, hfits, hroom⟩ := (herase.evict j).makeRoom_eq (hlimits' ▸ hmax) (hlimits' ▸ hsize)
    rw [herase.aligned.keys_evict_head hkeys] at hfits
    refine ⟨j :: ks, (.capacity, j) :: ks.map (.budget, ·),
      hkeys ▸ h.shortest_of_full hmax (hlimits ▸ hfull) hkeys hfits,
      by simp [Function.comp_def], ?_⟩
    rw [hinsert, hroom]
    rfl
  · obtain ⟨ks, hfits, hroom⟩ := herase.makeRoom_eq (hlimits ▸ hmax) (hlimits ▸ hsize)
    refine ⟨ks, ks.map (.budget, ·),
      h.shortest_of_free hmax (hlimits ▸ Nat.lt_of_not_le hfull) hfits,
      by simp [Function.comp_def], ?_⟩
    rw [insert_of_free hkept hfull, hroom]

/-- The value that is stored becomes the most recently used one. -/
theorem keepsFor_store (h : c.Consistent) {evicted : List (Reason × CacheKey)}
    (hks : evicted.map (·.2) = ks) (hstarts : ks <+: (c.erase k).keys)
    (hfits : ((c.erase k).evictAll ks).budget.fits v.byteSize = true) :
    c.KeepsFor now k v ks (((c.erase k).evictAll ks).store now k v, .kept evicted) := by
  have herase := h.erase k
  have hgiven := herase.givenUp_of_isPrefix hstarts
  have hout {j : CacheKey} (hj : j ∈ ks) : j ≠ k := by
    have hmem : j ∈ c.otherKeys k := h.aligned.keys_erase k ▸ hstarts.subset hj
    exact (mem_otherKeys.mp hmem).2
  refine ⟨⟨evicted, rfl, hks⟩, by simp [store, find?], fun hj => ?_, fun hj hjs => ?_, ?_, ?_,
    ⟨_, hfits, rfl⟩⟩
  · rw [find?_store_ne (hout hj)]
    exact hgiven.gone hj
  · rw [find?_store_ne hj, hgiven.stays hjs, find?_erase, if_neg hj]
  · have hdrop := herase.keys_eq_drop hstarts hgiven
    have hout' : ((c.erase k).evictAll ks).keys.filter (· ≠ k) = ((c.erase k).evictAll ks).keys := by
      rw [hdrop, h.aligned.keys_erase]
      refine List.filter_eq_self.mpr fun j hj => ?_
      simpa using (mem_otherKeys.mp (List.mem_of_mem_drop hj)).2
    have hkeys : (((c.erase k).evictAll ks).store now k v).keys =
        ((c.erase k).evictAll ks).keys.filter (· ≠ k) ++ [k] :=
      (herase.evictAll ks).linked.toList_touch
    rw [hkeys, hout', hdrop, h.aligned.keys_erase]
  · exact hgiven.evictions_eq.trans (by rw [evictions_erase])

/-- A value is refused where nothing is kept, and where it is too large. -/
theorem refuses_insert (h : c.Consistent)
    (hrefused : c.limits.maxEntries = 0 ∨ c.limits.maxBytes < v.byteSize) (now : Nat) :
    c.Refuses k (c.insert now k v) := by
  have hinsert : c.insert now k v = (c.erase k, .refused v.byteSize) := by
    have hrefused' : (c.erase k).limits.maxEntries = 0 ∨
        (c.erase k).budget.maxBytes < v.byteSize := by
      rwa [(h.erase k).maxBytes_eq, limits_erase]
    rw [Cache.insert, if_pos hrefused']
  rw [hinsert]
  refine ⟨rfl, ?_, fun hj => ?_, h.aligned.keys_erase k, evictions_erase⟩
  · rw [find?_erase, if_pos rfl]
  · rw [find?_erase, if_neg hj]

/-- Every other value is kept, and room is made for it. -/
theorem keepsFor_insert (h : c.Consistent) (hmax : c.limits.maxBytes < byteCountLimit)
    (hkept : ¬ (c.limits.maxEntries = 0 ∨ c.limits.maxBytes < v.byteSize)) (now : Nat) :
    ∃ given, ShortestPrefix (c.HasRoom k v.byteSize) (c.otherKeys k) given ∧
      c.KeepsFor now k v given (c.insert now k v) := by
  obtain ⟨hkeeps, hsize⟩ := not_or.mp hkept
  obtain ⟨ks, evicted, hshortest, hks, hinsert⟩ :=
    h.insert_eq hmax hkeeps (Nat.le_of_not_lt hsize) k now
  have hfits := ((h.hasRoom_iff hmax hshortest.starts).mp hshortest.holds).2
  refine ⟨ks, h.aligned.keys_erase k ▸ hshortest, ?_⟩
  rw [hinsert]
  exact h.keepsFor_store hks hshortest.starts hfits

end Consistent

/-- **Storing a value gives up the shortest beginning that makes room.** In
every cache that can be reached, a value is refused if nothing is to be
kept or if it is larger than all the bytes there may be, and then nothing
but the entry under its key is lost. Otherwise it is kept, and the keys
whose entries are given up for it are the shortest beginning of the other
keys, the least recently used first, that makes room for it in the number
of entries and in the bytes. -/
theorem insert_gives_up_least (limits : CacheLimits) (hmax : limits.maxBytes < byteCountLimit)
    (events : List (Nat × Event)) (now : Nat) (k : CacheKey) (v : CapabilitySet) :
    if limits.maxEntries = 0 ∨ limits.maxBytes < v.byteSize then
      ((new limits).run events).Refuses k (((new limits).run events).insert now k v)
    else
      ∃ given, ShortestPrefix (((new limits).run events).HasRoom k v.byteSize)
          (((new limits).run events).otherKeys k) given ∧
        ((new limits).run events).KeepsFor now k v given
          (((new limits).run events).insert now k v) := by
  obtain ⟨h, hlimits⟩ := (consistent_new limits).run hmax events
  split
  · next hrefused => exact h.refuses_insert (hlimits.symm ▸ hrefused) now
  · next hkept => exact h.keepsFor_insert (hlimits.symm ▸ hmax) (hlimits.symm ▸ hkept) now

/-- Two sets are kept, and the first one was used last. -/
def pairHistory : List (Nat × Event) :=
  [(0, .insert ⟨"a", false⟩ .empty), (1, .insert ⟨"b", false⟩ .empty), (2, .get ⟨"a", false⟩)]

/-- For a larger set the other one goes. -/
theorem larger_set_makes_room :
    narrowLimits.maxBytes < byteCountLimit ∧
    (((new narrowLimits).run pairHistory).insert 3 ⟨"c", true⟩
      (CapabilitySet.empty.insert .toolUse)).2 = .kept [(.budget, ⟨"b", false⟩)] ∧
    ∃ given, ShortestPrefix (((new narrowLimits).run pairHistory).HasRoom ⟨"c", true⟩
          (CapabilitySet.empty.insert .toolUse).byteSize)
        (((new narrowLimits).run pairHistory).otherKeys ⟨"c", true⟩) given ∧
      ((new narrowLimits).run pairHistory).KeepsFor 3 ⟨"c", true⟩
        (CapabilitySet.empty.insert .toolUse) given
        (((new narrowLimits).run pairHistory).insert 3 ⟨"c", true⟩
          (CapabilitySet.empty.insert .toolUse)) := by
  have hkept : ¬ (narrowLimits.maxEntries = 0 ∨
      narrowLimits.maxBytes < (CapabilitySet.empty.insert .toolUse).byteSize) := by
    decide +kernel
  have hinsert := insert_gives_up_least narrowLimits (by decide) pairHistory 3 ⟨"c", true⟩
    (CapabilitySet.empty.insert .toolUse)
  rw [if_neg hkept] at hinsert
  exact ⟨by decide, by decide +kernel, hinsert⟩

end Cache

end CapabilityBroker
