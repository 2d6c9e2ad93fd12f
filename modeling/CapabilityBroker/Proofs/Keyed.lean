import Mathlib.Data.List.Basic
/-!
# Lists with keys

Stakes, calls and cache entries are kept as lists of pairs and looked up
by the first part of the pair. Taking out the pairs of one key loses that
key and no other.
-/

namespace CapabilityBroker

namespace Keyed

variable {κ α : Type} [DecidableEq κ] {l : List (κ × α)} {i j : κ}

/-- Without the pairs of a key, the key is not found, and any other is
found as before. -/
theorem find?_filter_ne :
    (l.filter (·.1 ≠ i)).find? (·.1 = j) = if j = i then none else l.find? (·.1 = j) := by
  rw [List.find?_filter]
  by_cases h : j = i
  · rw [if_pos h, List.find?_eq_none]
    intro p _
    by_cases hp : p.1 = j
    · simp [hp, h]
    · simp [hp]
  · rw [if_neg h]
    congr 1
    funext p
    by_cases hp : p.1 = j
    · simp [hp, h]
    · simp [hp]

/-- A pair put in front of such a list is what is found under its key. -/
theorem find?_cons_filter_ne {a : α} :
    ((i, a) :: l.filter (·.1 ≠ i)).find? (·.1 = j)
      = if j = i then some (i, a) else l.find? (·.1 = j) := by
  rw [List.find?_cons, find?_filter_ne]
  by_cases h : j = i
  · simp [h]
  · have hne : ¬ i = j := fun h' => h h'.symm
    simp [h, hne]

/-- Where no key stands twice, every pair is what is found under its key. -/
theorem find?_of_mem {a : α} (hnodup : (l.map (·.1)).Nodup) (h : (i, a) ∈ l) :
    l.find? (·.1 = i) = some (i, a) := by
  induction l with
  | nil => cases h
  | cons p l ih =>
    obtain ⟨hp, hnodup⟩ := List.nodup_cons.mp hnodup
    rcases List.mem_cons.mp h with rfl | h
    · simp
    · have hne : ¬ p.1 = i := by
        rintro rfl
        exact hp (List.mem_map.mpr ⟨_, h, rfl⟩)
      simp [hne, ih hnodup h]

/-- A key stands at most once in front of a list that it is taken out of. -/
theorem nodup_cons_filter_ne {a : α} (h : (l.map (·.1)).Nodup) :
    (((i, a) :: l.filter (·.1 ≠ i)).map (·.1)).Nodup := by
  refine List.nodup_cons.mpr ⟨by simp, ?_⟩
  exact h.sublist (List.filter_sublist.map _)

/-- Taking out a key that stands once takes out its pair. -/
theorem perm_cons_filter_ne {a : α} (hnodup : (l.map (·.1)).Nodup) (h : (i, a) ∈ l) :
    ((i, a) :: l.filter (·.1 ≠ i)).Perm l := by
  induction l with
  | nil => cases h
  | cons p l ih =>
    obtain ⟨hp, hnodup⟩ := List.nodup_cons.mp hnodup
    rcases List.mem_cons.mp h with rfl | h
    · have hrest : l.filter (·.1 ≠ i) = l := List.filter_eq_self.mpr fun q hq => by
        have hne : q.1 ≠ i := fun heq => hp (List.mem_map.mpr ⟨q, hq, heq⟩)
        simpa using hne
      rw [List.filter_cons_of_neg (by simp), hrest]
    · have hne : p.1 ≠ i := by
        rintro rfl
        exact hp (List.mem_map.mpr ⟨_, h, rfl⟩)
      rw [List.filter_cons_of_pos (by simpa using hne)]
      exact (List.Perm.swap _ _ _).trans ((ih hnodup h).cons p)

/-- Taking out one key and then some others is taking them all out. -/
theorem filter_ne_filter {ks : List κ} :
    (l.filter (·.1 ≠ i)).filter (·.1 ∉ ks) = l.filter (·.1 ∉ i :: ks) := by
  rw [List.filter_filter]
  refine List.filter_congr fun p _ => ?_
  simp [Bool.and_comm]

/-- What is found under some keys, and the pairs of the others, are the
whole list. -/
theorem perm_filterMap_append {ks : List κ} (hnodup : (l.map (·.1)).Nodup) (hks : ks.Nodup) :
    ((ks.filterMap fun k => l.find? (·.1 = k)) ++ l.filter (·.1 ∉ ks)).Perm l := by
  induction ks generalizing l with
  | nil =>
    rw [List.filter_eq_self.mpr (by simp)]
    exact .refl l
  | cons k ks ih =>
    obtain ⟨hk, hks⟩ := List.nodup_cons.mp hks
    have hrest := ih (hnodup.sublist (List.filter_sublist.map _)) hks (l := l.filter (·.1 ≠ k))
    have hfound : (ks.filterMap fun j => (l.filter (·.1 ≠ k)).find? (·.1 = j)) =
        ks.filterMap fun j => l.find? (·.1 = j) := List.filterMap_congr fun j hj => by
      have hne : j ≠ k := fun heq => hk (heq ▸ hj)
      rw [find?_filter_ne, if_neg hne]
    rw [hfound, filter_ne_filter] at hrest
    cases hp : l.find? (·.1 = k) with
    | none =>
      have hall : l.filter (·.1 ≠ k) = l := List.filter_eq_self.mpr fun p hp' => by
        simpa using List.find?_eq_none.mp hp p hp'
      rw [hall] at hrest
      rwa [List.filterMap_cons, hp]
    | some p =>
      obtain ⟨i, a⟩ := p
      obtain rfl : i = k := by simpa using List.find?_some hp
      rw [List.filterMap_cons, hp, List.cons_append]
      exact (hrest.cons _).trans (perm_cons_filter_ne hnodup (List.mem_of_find?_eq_some hp))

theorem countP_filter_ne {l : List (κ × Bool)} {b : Bool} (hnodup : (l.map (·.1)).Nodup)
    (h : (i, b) ∈ l) : (l.filter (·.1 ≠ i)).countP (·.2) + b.toNat = l.countP (·.2) := by
  rw [← (perm_cons_filter_ne hnodup h).countP_eq, List.countP_cons]
  cases b <;> rfl

end Keyed

end CapabilityBroker
