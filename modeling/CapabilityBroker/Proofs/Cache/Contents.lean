import CapabilityBroker.Cache.Basic
import CapabilityBroker.Proofs.Keyed
/-!
# What a cache holds

Every operation but storing only ever takes entries away: whatever the
cache holds after it, it held before (`Within`). Storing adds one entry at
most, under the key it is given, and keeps nothing else under that key
(`find?_insert`). A lookup that succeeds finds an entry whose time is not
over (`hit_get`). A cache that holds nothing goes on so until something is
stored (`IsEmpty`).
-/

namespace CapabilityBroker

namespace Cache

/-- One cache holds nothing that another does not, within the same
limits. -/
structure Within (c d : Cache) : Prop where
  limits_eq : c.limits = d.limits
  find? {k : CacheKey} {e : Entry} : c.find? k = some e → d.find? k = some e

variable {c d : Cache} {j k : CacheKey} {e : Entry} {v : CapabilitySet} {now : Nat}

namespace Within

theorem refl (c : Cache) : c.Within c := ⟨rfl, id⟩

theorem trans {b : Cache} (h : b.Within c) (h' : c.Within d) : b.Within d :=
  ⟨h.limits_eq.trans h'.limits_eq, fun hb => h'.find? (h.find? hb)⟩

theorem find?_eq_none (h : c.Within d) (hk : d.find? k = none) : c.find? k = none := by
  cases he : c.find? k with
  | none => rfl
  | some e => exact (h.find? he).symm.trans hk

end Within

/-- A cache that gives up the entries of some keys, one after another. -/
def evictAll (c : Cache) (ks : List CacheKey) : Cache := ks.foldl evict c

/-! ## Taking entries away -/

/-- An entry that is taken out is gone, and no other is. -/
theorem find?_erase : (c.erase k).find? j = if j = k then none else c.find? j := by
  unfold erase
  split
  · next hk =>
    split
    · next hj => rw [hj, hk]
    · rfl
  · simp only [Cache.find?]
    rw [Keyed.find?_filter_ne]
    split <;> rfl

theorem limits_erase : (c.erase k).limits = c.limits := by
  unfold erase
  split <;> rfl

theorem within_erase : (c.erase k).Within c := by
  refine ⟨limits_erase, fun h => ?_⟩
  rw [find?_erase] at h
  split at h
  · cases h
  · exact h

theorem within_evict : (c.evict k).Within c := by
  unfold evict
  split
  · exact ⟨limits_erase, fun h => within_erase.find? h⟩
  · exact Within.refl c

theorem within_evictOldest? (h : c.evictOldest? = some (k, d)) : d.Within c := by
  obtain ⟨⟨k', recency⟩, -, heq⟩ := Option.map_eq_some_iff.mp h
  obtain ⟨rfl, rfl⟩ := Prod.mk.inj heq
  exact within_evict.trans ⟨rfl, id⟩

theorem within_evictUntil {enough : Cache → Bool} (bound : Nat) :
    (evictUntil enough bound c).1.Within c := by
  induction bound generalizing c with
  | zero => exact Within.refl c
  | succ bound ih =>
    unfold evictUntil
    split
    · exact Within.refl c
    · split
      · exact Within.refl c
      · next h => exact ih.trans (within_evictOldest? h)

theorem within_evictAll {ks : List CacheKey} : (c.evictAll ks).Within c := by
  induction ks generalizing c with
  | nil => exact Within.refl c
  | cons k ks ih => exact ih.trans within_evict

theorem within_purge : (c.purge now).1.Within c := within_evictAll

theorem within_reduce : c.reduce.1.Within c := by
  unfold reduce
  split
  · exact Within.refl c
  · exact within_evictUntil _

theorem within_clear : c.clear.Within c := ⟨rfl, fun h => by simp [clear, Cache.find?] at h⟩

/-- What the upkeep of a cache comes to at an instant: nothing, a sweep, or
the loss of all entries. -/
inductive Tended (now : Nat) (c : Cache) : Cache → Prop
  | untouched : Tended now c c
  | swept : Tended now c (c.purge now).1.reduce.1
  | cleared : Tended now c c.clear

theorem Tended.within (h : c.Tended now d) : d.Within c := by
  cases h with
  | untouched => exact Within.refl c
  | swept => exact within_reduce.trans within_purge
  | cleared => exact within_clear

/-! ## Looking up and storing -/

theorem within_get : (c.get now k).1.Within c := by
  unfold get
  split
  · exact ⟨rfl, id⟩
  · split
    · exact ⟨within_evict.limits_eq, fun h => within_evict.find? h⟩
    · exact ⟨rfl, id⟩

/-- **What a lookup finds** is in the cache, and its time is not over. -/
theorem hit_get (h : (c.get now k).2 = .hit v) :
    ∃ e, c.find? k = some e ∧ e.value = v ∧ now < e.createdAt + c.limits.ttl := by
  unfold get at h
  split at h
  · cases h
  · next e he =>
    split at h
    · cases h
    · next hexp =>
      refine ⟨e, he, by injection h, ?_⟩
      simp only [Entry.isExpired, decide_eq_true_eq] at hexp
      omega

/-- It becomes the most recently used entry, and nothing else changes. -/
theorem get_of_hit (h : (c.get now k).2 = .hit v) :
    (c.get now k).1 = { c with recency := c.recency.touch k, hits := c.hits + 1 } := by
  unfold get at h ⊢
  split at h
  · cases h
  · split at h
    · cases h
    · next hfresh => rw [if_neg hfresh]

/-- **A lookup that fails** is counted. It gives up the entry of its key if
there is one, whose time is over then. -/
theorem get_of_not_hit (h : ∀ v, (c.get now k).2 ≠ .hit v) :
    (c.get now k).1 = { c.erase k with
      misses := c.misses + 1
      evictions := c.evictions + if (c.find? k).isSome then 1 else 0 } ∧
    ∀ e, c.find? k = some e → e.isExpired c.limits.ttl now = true := by
  cases he : c.find? k with
  | none =>
    refine ⟨?_, fun e he' => nomatch he'⟩
    simp only [get, erase, he]
    rfl
  | some e =>
    have hexp : e.isExpired c.limits.ttl now = true := by
      cases hexp : e.isExpired c.limits.ttl now with
      | true => rfl
      | false =>
        refine absurd ?_ (h e.value)
        simp [get, he, hexp]
    refine ⟨?_, fun e' he' => Option.some.inj he' ▸ hexp⟩
    simp only [get, he, if_pos hexp, evict, Option.isSome_some, if_true, erase]

/-- **Storing a value** takes away what is under its key. Then the value is
refused, or entries may have to go and it is kept. -/
theorem insert_cases (c : Cache) (now : Nat) (k : CacheKey) (v : CapabilitySet) :
    c.insert now k v = (c.erase k, .refused v.byteSize) ∨
    ∃ (d : Cache) (evicted : List (Reason × CacheKey)), d.Within (c.erase k) ∧ c.insert now k v =
      ({ d with
          entries := (k, ⟨k, v, now, v.byteSize⟩) :: d.entries
          recency := d.recency.touch k
          budget := d.budget.add v.byteSize }, .kept evicted) := by
  unfold insert
  by_cases hroom : (c.erase k).limits.maxEntries = 0 ∨ (c.erase k).budget.maxBytes < v.byteSize
  · exact Or.inl (if_pos hroom)
  · rw [if_neg hroom]
    -- with the cache full, the least recently used entry goes first
    by_cases hfull : (c.erase k).limits.maxEntries ≤ (c.erase k).size
    · rw [if_pos hfull]
      cases hold : (c.erase k).evictOldest? with
      | none => exact Or.inr ⟨_, _, within_evictUntil _, rfl⟩
      | some kd =>
        exact Or.inr ⟨_, _, (within_evictUntil _).trans (within_evictOldest? hold), rfl⟩
    · rw [if_neg hfull]
      exact Or.inr ⟨_, _, within_evictUntil _, rfl⟩

/-- What is in the cache then is the value under its key, if it is kept,
and otherwise what was there under the other keys. -/
theorem find?_insert (h : (c.insert now k v).1.find? j = some e) :
    (j = k ∧ e.value = v ∧ e.createdAt = now ∧ (c.insert now k v).2.isKept = true) ∨
      (j ≠ k ∧ c.find? j = some e) := by
  have hrest : ∀ {d : Cache}, d.Within (c.erase k) → d.find? j = some e →
      j ≠ k ∧ c.find? j = some e := by
    intro d hd hj
    have := hd.find? hj
    rw [find?_erase] at this
    split at this
    · cases this
    · next hne => exact ⟨hne, this⟩
  rcases insert_cases c now k v with hi | ⟨d, evicted, hd, hi⟩
  · rw [hi] at h
    exact Or.inr (hrest (Within.refl _) h)
  · rw [hi] at h ⊢
    by_cases hjk : j = k
    · subst hjk
      obtain rfl : (⟨j, v, now, v.byteSize⟩ : Entry) = e := by simpa [Cache.find?] using h
      exact Or.inl ⟨rfl, rfl, rfl, rfl⟩
    · have hne : ¬ k = j := fun h' => hjk h'.symm
      exact Or.inr (hrest hd (by simpa [Cache.find?, hne] using h))

theorem limits_insert : (c.insert now k v).1.limits = c.limits := by
  rcases insert_cases c now k v with hi | ⟨d, evicted, hd, hi⟩
  · rw [hi]
    exact limits_erase
  · rw [hi]
    exact hd.limits_eq.trans limits_erase

/-! ## Empty caches -/

/-- A cache holds nothing: emptying it changes nothing. -/
def IsEmpty (c : Cache) : Prop := c.clear = c

/-- A cache keeps no answer, however small. -/
def KeepsNothing (c : Cache) : Prop :=
  c.limits.maxEntries = 0 ∨ ∀ v : CapabilitySet, c.budget.maxBytes < v.byteSize

namespace IsEmpty

theorem clear (c : Cache) : c.clear.IsEmpty := rfl

theorem entries_eq (h : c.IsEmpty) : c.entries = [] := (congrArg Cache.entries h).symm

theorem current_eq (h : c.IsEmpty) : c.budget.current = 0 :=
  (congrArg (·.budget.current) h).symm

theorem find?_eq_none (h : c.IsEmpty) (k : CacheKey) : c.find? k = none := by
  rw [Cache.find?, h.entries_eq]
  rfl

theorem erase_eq (h : c.IsEmpty) (k : CacheKey) : c.erase k = c := by
  simp only [erase, h.find?_eq_none k]

/-- There is nothing to be swept. -/
theorem tended_eq (h : c.IsEmpty) (hd : c.Tended now d) : d = c := by
  cases hd with
  | untouched => rfl
  | cleared => exact h
  | swept =>
    have hpurge : (c.purge now).1 = c := by
      simp only [purge, expiredKeys, h.entries_eq]
      rfl
    have horder : c.recency.order = [] := (congrArg (·.recency.order) h).symm
    rw [hpurge, reduce]
    split
    · rfl
    · rw [horder]
      rfl

/-- Nothing can be stored where nothing is kept. -/
theorem insert_eq (h : c.IsEmpty) (hnothing : c.KeepsNothing) (now : Nat) (k : CacheKey)
    (v : CapabilitySet) : (c.insert now k v).1 = c := by
  have hrefused : c.limits.maxEntries = 0 ∨ c.budget.maxBytes < v.byteSize := hnothing.imp id (· v)
  simp only [insert, h.erase_eq, if_pos hrefused]

/-- Otherwise something is. -/
theorem exists_insert (h : c.IsEmpty) (hkeeps : ¬ c.KeepsNothing) :
    ∃ v, ∀ now k, (c.insert now k v).1.entries ≠ [] := by
  obtain ⟨hsome, hroom⟩ := not_or.mp hkeeps
  obtain ⟨v, hv⟩ := Classical.not_forall.mp hroom
  refine ⟨v, fun now k => ?_⟩
  have hkept : ¬ (c.limits.maxEntries = 0 ∨ c.budget.maxBytes < v.byteSize) :=
    not_or.mpr ⟨hsome, hv⟩
  simp only [insert, h.erase_eq, if_neg hkept]
  exact List.cons_ne_nil _ _

end IsEmpty

end Cache

end CapabilityBroker
