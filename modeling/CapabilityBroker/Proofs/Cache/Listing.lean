import CapabilityBroker.Cache.Recency.History
import CapabilityBroker.Proofs.Cache.Recency
import Mathlib.Data.List.Nodup
/-!
# A tracker is a list of keys

One event does to a tracker whose tables agree (`Recency.Linked`) what it
does to the list of its keys: it answers the same, leaves the keys of the
list after the event, and keeps the tables in agreement (`Linked.step`).
A use is given the next stamp, and no other event moves the counter
(`stampOf_eq`), so the stamps are given in order, and none is given twice,
whatever is cleared in between (`stampsGiven_eq`).
-/

namespace CapabilityBroker

namespace Recency

variable {κ : Type} [DecidableEq κ] {r : Recency κ} {k : κ}

/-! ## One event -/

theorem Linked.toList_erase_eq (h : r.Linked) (k : κ) : (r.erase k).toList = r.toList.erase k := by
  rw [h.toList_erase, h.toList_nodup.erase_eq_filter]
  refine List.filter_congr fun j _ => ?_
  by_cases hj : j = k <;> simp [hj]

theorem Linked.toList_touch_eq (h : r.Linked) (k : κ) :
    (r.touch k).toList = r.toList.erase k ++ [k] := by
  rw [h.toList_touch, ← h.toList_erase, h.toList_erase_eq]

/-- **One event**, on the tracker and on the list of its keys. -/
theorem Linked.step (h : r.Linked) (event : Event κ) :
    (r.step event).1.Linked ∧
      (r.step event).1.toList = (Listing.step r.toList event).1 ∧
      (r.step event).2 = (Listing.step r.toList event).2 := by
  cases event with
  | touch k => exact ⟨h.touch k, h.toList_touch_eq k, rfl⟩
  | erase k => exact ⟨h.erase k, h.toList_erase_eq k, rfl⟩
  | pop =>
    have hpop := h.pop?_eq
    cases hkeys : r.toList with
    | nil =>
      rw [hkeys] at hpop
      have hnone : r.pop? = none := hpop
      have hstep : r.step .pop = (r, .popped none) := by rw [Recency.step, hnone]
      rw [hstep]
      exact ⟨h, hkeys, rfl⟩
    | cons k rest =>
      rw [hkeys] at hpop
      have hsome : r.pop? = some (k, r.erase k) := hpop
      have hstep : r.step .pop = (r.erase k, .popped (some k)) := by rw [Recency.step, hsome]
      rw [hstep]
      refine ⟨h.erase k, ?_, rfl⟩
      rw [h.toList_erase_eq, hkeys]
      exact List.erase_cons_head k rest
  | oldest n => exact ⟨h, rfl, rfl⟩
  | clear => exact ⟨.clear r, rfl, rfl⟩

theorem stamp?_touch (r : Recency κ) (k : κ) : (r.touch k).stamp? k = some r.next := by
  simp [touch, stamp?]

/-- **A use is given the next stamp.** -/
theorem stampOf_eq (r : Recency κ) (event : Event κ) :
    r.stampOf event = if event.isTouch then some r.next else none := by
  cases event with
  | touch k => exact r.stamp?_touch k
  | erase _ | pop | oldest _ | clear => rfl

/-- The counter moves with every use, and with nothing else. -/
theorem next_step (r : Recency κ) (event : Event κ) :
    (r.step event).1.next = r.next + if event.isTouch then 1 else 0 := by
  cases event with
  | touch k => rfl
  | erase k => exact next_erase
  | pop =>
    rw [step]
    cases hpop : r.pop? with
    | none => rfl
    | some popped =>
      obtain ⟨k, rest⟩ := popped
      cases horder : r.order with
      | nil => simp [pop?, horder] at hpop
      | cons p later =>
        simp only [pop?, horder, Option.some.injEq, Prod.mk.injEq] at hpop
        rw [← hpop.2]
        rfl
  | oldest n => rfl
  | clear => rfl

/-! ## Histories -/

/-- **A tracker does what its list does.** -/
theorem Linked.run (h : r.Linked) (history : List (Event κ)) :
    (r.run history).Linked ∧
      (r.run history).toList = Listing.run r.toList history ∧
      r.answers history = Listing.answers r.toList history := by
  induction history generalizing r with
  | nil => exact ⟨h, rfl, rfl⟩
  | cons event later ih =>
    obtain ⟨hlinked, hkeys, hanswer⟩ := h.step event
    obtain ⟨hafter, hlist, hanswers⟩ := ih hlinked
    rw [hkeys] at hlist hanswers
    refine ⟨hafter, hlist, ?_⟩
    rw [answers, Listing.answers, hanswer, hanswers]

theorem uses_cons {κ : Type} (event : Event κ) (later : List (Event κ)) :
    uses (event :: later) = (if event.isTouch then 1 else 0) + uses later := by
  rw [uses, uses, List.countP_cons, Nat.add_comm]

theorem next_run (r : Recency κ) (history : List (Event κ)) :
    (r.run history).next = r.next + uses history := by
  induction history generalizing r with
  | nil => rfl
  | cons event later ih =>
    have hrest := ih (r.step event).1
    rw [next_step] at hrest
    rw [uses_cons, ← Nat.add_assoc]
    exact hrest

/-- **The stamps are given in order.** -/
theorem stampsGiven_eq (r : Recency κ) (history : List (Event κ)) :
    r.stampsGiven history = List.range' r.next (uses history) := by
  induction history generalizing r with
  | nil => rfl
  | cons event later ih =>
    rw [stampsGiven, ih, stampOf_eq, next_step, uses_cons]
    cases event.isTouch with
    | true => rw [if_pos rfl, if_pos rfl, Nat.add_comm 1, List.range'_succ]; rfl
    | false => simp

/-- **Over every history from a new tracker on** it answers as the list of
keys does that nothing is in at first, and its keys are those of the list,
none of them twice. Its tables agree: a key has a stamp exactly if it
stands in the order at that stamp, and every stamp is below the counter.
The uses are given the stamps 0, 1, 2 and so on, so none is given twice,
also not after everything was cleared, and the counter is the number of
uses: as long as it is below `2 ^ 64`, it fits a word. -/
theorem behaves_as_list (history : List (Event κ)) :
    (empty : Recency κ).answers history = Listing.answers [] history ∧
      ((empty : Recency κ).run history).toList = Listing.run [] history ∧
      (Listing.run ([] : List κ) history).Nodup ∧
      ((empty : Recency κ).run history).Linked ∧
      (empty : Recency κ).stampsGiven history = List.range (uses history) ∧
      ((empty : Recency κ).run history).next = uses history := by
  obtain ⟨hlinked, hkeys, hanswers⟩ := (Linked.empty : (empty : Recency κ).Linked).run history
  have hgiven := stampsGiven_eq (empty : Recency κ) history
  have hnext := next_run (empty : Recency κ) history
  rw [List.range_eq_range']
  exact ⟨hanswers, hkeys, hkeys ▸ hlinked.toList_nodup, hlinked, hgiven,
    hnext.trans (Nat.zero_add _)⟩

/-- Two keys are used, everything is cleared, and the stamps go on. -/
example : (empty : Recency Nat).stampsGiven
      [.touch 1, .touch 2, .touch 1, .pop, .clear, .touch 2] = [0, 1, 2, 3] ∧
    (empty : Recency Nat).answers [.touch 1, .touch 2, .touch 1, .pop, .oldest 5] =
      [.done, .done, .done, .popped (some 2), .keys [1]] := by
  decide

end Recency

end CapabilityBroker
