import CapabilityBroker.Cache.Recency
import CapabilityBroker.Proofs.Keyed
/-!
# The order of last uses

The two tables of a recency tracker hold the same pairs (`Linked`), and
every operation keeps them so. Seen as the list of its keys, a use moves
its key to the end, erasing a key takes it out, and the key that is popped
is the first one.
-/

namespace CapabilityBroker

namespace Recency

theorem mem_toList {κ : Type} {r : Recency κ} {k : κ} : k ∈ r.toList ↔ ∃ s, (s, k) ∈ r.order := by
  simp [toList]

variable {κ : Type} [DecidableEq κ]

/-- **The tables of a tracker agree.** -/
structure Linked (r : Recency κ) : Prop where
  /-- No key has two stamps. -/
  stamps_nodup : (r.stamps.map (·.1)).Nodup
  /-- The stamps go up along the order. -/
  ascending : r.order.Pairwise (·.1 < ·.1)
  /-- No key is in the order twice. -/
  toList_nodup : r.toList.Nodup
  /-- A key stands in the order at its stamp. -/
  stamp?_iff {k : κ} {s : Nat} : r.stamp? k = some s ↔ (s, k) ∈ r.order
  /-- The next stamp is a new one. -/
  lt_next {k : κ} {s : Nat} : (s, k) ∈ r.order → s < r.next

variable {r : Recency κ} {j k : κ} {s t : Nat}

theorem stamp?_erase : (r.erase k).stamp? j = if j = k then none else r.stamp? j := by
  unfold erase
  split
  · next hk =>
    split
    · next hj => rw [hj, hk]
    · rfl
  · unfold stamp?
    rw [Keyed.find?_filter_ne]
    split <;> rfl

/-- A key that is out cannot be taken out. -/
theorem erase_of_stamp?_eq_none (h : r.stamp? k = none) : r.erase k = r := by
  rw [erase, h]

theorem erase_erase : (r.erase k).erase k = r.erase k :=
  erase_of_stamp?_eq_none (by rw [stamp?_erase, if_pos rfl])

/-- Keys are taken out in any order. -/
theorem erase_comm : (r.erase j).erase k = (r.erase k).erase j := by
  by_cases hjk : j = k
  · rw [hjk]
  · have hj : (r.erase k).stamp? j = r.stamp? j := by rw [stamp?_erase, if_neg hjk]
    have hk : (r.erase j).stamp? k = r.stamp? k := by rw [stamp?_erase, if_neg (Ne.symm hjk)]
    cases hsj : r.stamp? j with
    | none =>
      rw [erase_of_stamp?_eq_none hsj, erase_of_stamp?_eq_none (hj.trans hsj)]
    | some s =>
      cases hsk : r.stamp? k with
      | none => rw [erase_of_stamp?_eq_none hsk, erase_of_stamp?_eq_none (hk.trans hsk)]
      | some t =>
        rw [hsj] at hj
        rw [hsk] at hk
        rw [erase, hk, erase.eq_def (r.erase k), hj]
        simp only [erase, hsj, hsk, List.filter_filter, Bool.and_comm]

theorem next_erase : (r.erase k).next = r.next := by
  unfold erase
  split <;> rfl

namespace Linked

theorem empty : (Recency.empty : Recency κ).Linked where
  stamps_nodup := List.nodup_nil
  ascending := List.Pairwise.nil
  toList_nodup := List.nodup_nil
  stamp?_iff := by simp [Recency.empty, stamp?]
  lt_next h := by cases h

/-- Without keys the next stamp is a new one all the same. -/
theorem clear (r : Recency κ) : r.clear.Linked where
  stamps_nodup := List.nodup_nil
  ascending := List.Pairwise.nil
  toList_nodup := List.nodup_nil
  stamp?_iff := by simp [Recency.clear, stamp?]
  lt_next h := by cases h

theorem stamp?_eq_none (h : r.Linked) (hk : k ∉ r.toList) : r.stamp? k = none := by
  cases hs : r.stamp? k with
  | none => rfl
  | some s => exact absurd (mem_toList.mpr ⟨s, h.stamp?_iff.mp hs⟩) hk

/-- A stamp belongs to one key. -/
theorem stamp_inj (h : r.Linked) (hj : (s, j) ∈ r.order) (hk : (s, k) ∈ r.order) : j = k := by
  have hnodup : (r.order.map (·.1)).Nodup :=
    List.pairwise_map.mpr (h.ascending.imp fun hlt => Nat.ne_of_lt hlt)
  have hfound := (Keyed.find?_of_mem hnodup hj).symm.trans (Keyed.find?_of_mem hnodup hk)
  exact congrArg (·.2) (Option.some.inj hfound)

/-- Taking a stamp out of the order is taking out its key. -/
theorem stamp_eq_iff (h : r.Linked) (hk : r.stamp? k = some s) (hj : (t, j) ∈ r.order) :
    t = s ↔ j = k := by
  have hk' := h.stamp?_iff.mp hk
  refine ⟨?_, ?_⟩
  · rintro rfl
    exact h.stamp_inj hj hk'
  · rintro rfl
    exact Option.some.inj ((h.stamp?_iff.mpr hj).symm.trans hk)

theorem toList_erase (h : r.Linked) : (r.erase k).toList = r.toList.filter (· ≠ k) := by
  cases hk : r.stamp? k with
  | none =>
    rw [erase_of_stamp?_eq_none hk, List.filter_eq_self.mpr]
    intro j hj
    obtain ⟨s, hs⟩ := mem_toList.mp hj
    have hne : j ≠ k := by
      rintro rfl
      rw [h.stamp?_iff.mpr hs] at hk
      cases hk
    simpa using hne
  | some s =>
    simp only [Recency.erase, hk, toList, List.filter_map]
    congr 1
    refine List.filter_congr fun p hp => ?_
    simpa using h.stamp_eq_iff hk hp

theorem erase (h : r.Linked) (k : κ) : (r.erase k).Linked := by
  cases hk : r.stamp? k with
  | none => rwa [erase_of_stamp?_eq_none hk]
  | some s =>
    have horder : (r.erase k).order = r.order.filter (·.1 ≠ s) := by
      simp only [Recency.erase, hk]
    refine ⟨?_, ?_, ?_, fun {j t} => ?_, fun {j t} hj => ?_⟩
    · simp only [Recency.erase, hk]
      exact h.stamps_nodup.sublist (List.filter_sublist.map _)
    · rw [horder]
      exact h.ascending.sublist List.filter_sublist
    · rw [h.toList_erase]
      exact h.toList_nodup.sublist List.filter_sublist
    · rw [stamp?_erase, horder, List.mem_filter]
      by_cases hjk : j = k
      · subst hjk
        have hout : (t, j) ∈ r.order → t = s := fun hj => (h.stamp_eq_iff hk hj).mpr rfl
        simpa using hout
      · have hother : (t, j) ∈ r.order → t ≠ s := fun hj =>
          mt (h.stamp_eq_iff hk hj).mp hjk
        simpa [hjk, h.stamp?_iff] using hother
    · rw [horder] at hj
      rw [next_erase]
      exact h.lt_next (List.mem_filter.mp hj).1

/-- A key that is out is put at the end. -/
theorem append (h : r.Linked) (hk : k ∉ r.toList) :
    (⟨(k, r.next) :: r.stamps, r.order ++ [(r.next, k)], r.next + 1⟩ : Recency κ).Linked := by
  refine ⟨?_, ?_, ?_, fun {j t} => ?_, fun {j t} hj => ?_⟩
  · refine List.nodup_cons.mpr ⟨fun hmem => ?_, h.stamps_nodup⟩
    obtain ⟨p, hp, rfl⟩ := List.mem_map.mp hmem
    have hnone := h.stamp?_eq_none hk
    rw [stamp?, Keyed.find?_of_mem h.stamps_nodup hp] at hnone
    cases hnone
  · refine List.pairwise_append.mpr ⟨h.ascending, List.pairwise_singleton _ _, fun p hp q hq => ?_⟩
    rw [List.mem_singleton.mp hq]
    exact h.lt_next hp
  · simp only [toList, List.map_append, List.map_cons, List.map_nil]
    refine List.nodup_append.mpr ⟨h.toList_nodup, by simp, fun j hj i hi => ?_⟩
    rw [List.mem_singleton.mp hi]
    rintro rfl
    exact hk hj
  · rw [List.mem_append, List.mem_singleton, ← h.stamp?_iff]
    by_cases hjk : j = k
    · subst hjk
      rw [h.stamp?_eq_none hk]
      simp [stamp?, eq_comm]
    · have hkj : ¬ k = j := fun heq => hjk heq.symm
      simp [stamp?, hjk, hkj]
  · rcases List.mem_append.mp hj with hj | hj
    · exact Nat.lt_succ_of_lt (h.lt_next hj)
    · obtain ⟨rfl, -⟩ := Prod.mk.inj (List.mem_singleton.mp hj)
      exact Nat.lt_succ_self _

theorem touch (h : r.Linked) (k : κ) : (r.touch k).Linked := by
  have hout : k ∉ (r.erase k).toList := by simp [h.toList_erase]
  have happend := (h.erase k).append hout
  rwa [next_erase] at happend

theorem toList_touch (h : r.Linked) : (r.touch k).toList = r.toList.filter (· ≠ k) ++ [k] := by
  rw [← h.toList_erase]
  simp [Recency.touch, toList]

/-- What is popped is the first key, and popping takes out no other. -/
theorem pop?_eq (h : r.Linked) : r.pop? = r.toList.head?.map fun k => (k, r.erase k) := by
  cases horder : r.order with
  | nil => simp [pop?, toList, horder]
  | cons p rest =>
    obtain ⟨s, k⟩ := p
    have hk : r.stamp? k = some s := h.stamp?_iff.mpr (by simp [horder])
    have hrest : rest.filter (·.1 ≠ s) = rest := List.filter_eq_self.mpr fun q hq => by
      have hlt := (List.pairwise_cons.mp (horder ▸ h.ascending)).1 q hq
      simpa using (Nat.ne_of_lt hlt).symm
    have herase : r.erase k = { r with stamps := r.stamps.filter (·.1 ≠ k), order := rest } := by
      simp only [Recency.erase, hk]
      rw [horder, List.filter_cons_of_neg (by simp), hrest]
    simp [pop?, toList, horder, herase]

end Linked

end Recency

end CapabilityBroker
