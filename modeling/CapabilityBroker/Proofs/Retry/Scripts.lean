import CapabilityBroker.Retry.Basic
/-!
# Scripts of attempts

A script says how every attempt at an operation would end, the first one
being number one. An operation with a limit on its attempts comes to an end
with one of them (`Concludes`): those before it failed in a transient way,
and it did not, or it is the last that there may be. So the operation
succeeds exactly if some attempt within the limit does, after transient
failures only (`Concludes.isOk_iff`).
-/

namespace CapabilityBroker

namespace RetryPolicy

variable {β : Type}

/-- Whether a result is a failure that another attempt may mend. -/
def isTransient : Except Error β → Bool
  | .ok _ => false
  | .error e => e.isRetryable

variable {p : RetryPolicy} {draw : Backoff.Draw} {attempt delay n : Nat} {e : Error}
  {result : Except Error β}

/-- Another attempt follows only on a transient failure, while there are
any left. -/
theorem of_verdict_again (h : p.verdict draw attempt result = .again delay) :
    isTransient result = true ∧ attempt < p.maxAttempts := by
  cases result with
  | ok v => cases h
  | error e =>
    simp only [verdict] at h
    split at h
    · next hagain => simpa [isTransient] using hagain
    · cases h

/-- A transient failure is the end only when there are no more. -/
theorem of_verdict_final (h : p.verdict draw attempt result = .final)
    (htransient : isTransient result = true) : p.maxAttempts ≤ attempt := by
  cases result with
  | ok v => cases htransient
  | error e =>
    simp only [isTransient] at htransient
    simpa [verdict, htransient] using h

/-- Wrapping an error leaves its root as it is. -/
theorem root_exhausted : (exhausted n e).root = e.root := by
  unfold exhausted
  split <;> rfl

/-- The results of the first attempts are those that a script says. -/
def Follows (script : Nat → Except Error β) (results : List (Except Error β)) : Prop :=
  results = (List.range' 1 results.length).map script

/-- **An operation ends with an attempt** if there is a limit on their
number and a script of their results. -/
structure Concludes (limit : Nat) (script : Nat → Except Error β) (last : Nat) : Prop where
  pos : 1 ≤ last
  le : last ≤ limit
  transient : ∀ i, 1 ≤ i → i < last → isTransient (script i) = true
  final : isTransient (script last) = true → last = limit

namespace Concludes

variable {limit last last' : Nat} {script : Nat → Except Error β}

theorem not_lt (h : Concludes limit script last) (h' : Concludes limit script last') :
    ¬last < last' := fun hlt => by
  have hlimit := h.final (h'.transient last h.pos hlt)
  have hle := h'.le
  omega

/-- It ends with one attempt only. -/
theorem unique (h : Concludes limit script last) (h' : Concludes limit script last') :
    last = last' :=
  Nat.le_antisymm (Nat.le_of_not_lt (h'.not_lt h)) (Nat.le_of_not_lt (h.not_lt h'))

/-- An attempt that succeeds after transient failures is the one. -/
theorem of_isOk {i : Nat} (hpos : 1 ≤ i) (hle : i ≤ limit) (hok : (script i).isOk = true)
    (htransient : ∀ j, 1 ≤ j → j < i → isTransient (script j) = true) :
    Concludes limit script i where
  pos := hpos
  le := hle
  transient := htransient
  final hfailed := by
    cases hi : script i with
    | ok v => simp [hi, isTransient] at hfailed
    | error e => simp [hi, Except.isOk, Except.toBool] at hok

/-- **When an operation succeeds.** -/
theorem isOk_iff (h : Concludes limit script last) :
    (script last).isOk = true ↔ ∃ i, 1 ≤ i ∧ i ≤ limit ∧ (script i).isOk = true ∧
      ∀ j, 1 ≤ j → j < i → isTransient (script j) = true := by
  constructor
  · intro hok
    exact ⟨last, h.pos, h.le, hok, h.transient⟩
  · rintro ⟨i, hpos, hle, hok, htransient⟩
    rw [h.unique (of_isOk hpos hle hok htransient)]
    exact hok

/-- Transient failures and then a result, by a script: the operation ends
with that result, if it wants no other. -/
theorem of_follows {earlier : List (Except Error β)}
    (hfollows : Follows script (earlier ++ [result])) (hle : earlier.length < limit)
    (htransient : ∀ r ∈ earlier, isTransient r = true)
    (hfinal : isTransient result = true → earlier.length + 1 = limit) :
    Concludes limit script (earlier.length + 1) ∧ script (earlier.length + 1) = result := by
  rw [Follows, List.length_append, List.length_singleton, List.range'_concat, List.map_append,
    List.map_singleton] at hfollows
  obtain ⟨hearlier, hlast⟩ := List.append_inj' hfollows rfl
  obtain rfl : result = script (earlier.length + 1) := by
    simpa [Nat.add_comm] using hlast
  refine ⟨⟨Nat.le_add_left 1 _, hle, fun i hpos hi => ?_, hfinal⟩, rfl⟩
  apply htransient
  rw [hearlier]
  exact List.mem_map_of_mem (List.mem_range'_1.mpr ⟨hpos, by omega⟩)

end Concludes

end RetryPolicy

end CapabilityBroker
