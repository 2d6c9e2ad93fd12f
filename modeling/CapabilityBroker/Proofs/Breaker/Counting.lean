import CapabilityBroker.CircuitBreaker.History
import CapabilityBroker.Proofs.Breaker.Trials
import Mathlib.Algebra.Group.Nat.Defs
import Mathlib.Data.List.Induction
/-!
# The failures that count

A breaker keeps one number, and it is the state of its circuit as well:
the circuit is closed exactly as long as fewer failures are counted than
open it (`Tallied.closed_iff`). What the number is after a history of
inputs can be read off the history: the failures reported since the latest
input that forgets them, those left out that an open circuit met
(`failuresSince`). Nothing is asked of the callers.
-/

namespace CapabilityBroker

namespace CircuitBreaker

variable {b : CircuitBreaker} {now : Nat} {i : Input}

/-! ## The place of the trial -/

/-- The place of the trial is taken in a half-open circuit only. -/
def InStep (b : CircuitBreaker) : Prop := b.trialTaken = true → b.circuit = .halfOpen

namespace InStep

theorem turn (h : b.InStep) (next : Circuit) : (b.turn now next).InStep := by
  unfold CircuitBreaker.turn
  split
  · exact h
  · exact fun htaken => nomatch htaken

theorem receive (h : b.InStep) : (b.receive now).1.InStep := by
  unfold CircuitBreaker.receive
  split
  · exact h
  · split
    · exact h
    · exact fun _ => turn_circuit _
  · next hcircuit =>
    split
    · exact h
    · exact fun _ => hcircuit

theorem record (h : b.InStep) (succeeded : Bool) : (b.record now succeeded).InStep := by
  cases succeeded with
  | true =>
    change (b.recordSuccess now).InStep
    unfold recordSuccess
    split
    · exact h.turn _
    · exact h
    · exact h
  | false =>
    have hcount : b.countFailure.InStep := h
    change (b.recordFailure now).InStep
    unfold recordFailure
    split
    · dsimp only
      split
      · exact hcount.turn _
      · exact hcount
    · exact hcount.turn _
    · exact h

theorem releaseTrial (h : b.InStep) : b.releaseTrial.InStep := by
  unfold CircuitBreaker.releaseTrial
  split
  · exact fun htaken => nomatch htaken
  · exact h

theorem apply (h : b.InStep) (i : Input) : (b.apply now i).InStep := by
  cases i with
  | call => exact h.receive
  | success => exact h.record true
  | failure => exact h.record false
  | release => exact h.releaseTrial
  | reset => exact h.turn .closed

/-- A place that is taken is that of a trial that is expected. -/
theorem expectsTrial_eq (h : b.InStep) : b.expectsTrial = b.trialTaken := by
  unfold expectsTrial
  cases htaken : b.trialTaken with
  | true => simp [h htaken]
  | false => simp

end InStep

/-! ## What an input does to the number -/

/-- Whether an input makes the failures forgotten that were counted before
it: a reset, or a success that does not meet an open circuit. -/
def Input.forgets (met : Circuit) : Input → Bool
  | .reset => true
  | .success => met ≠ .open
  | _ => false

/-- Whether an input is a failure that is counted: an open circuit counts
none. -/
def Input.counts (met : Circuit) : Input → Bool
  | .failure => met ≠ .open
  | _ => false

theorem turn_failures (next : Circuit) (h : next ≠ .closed) :
    (b.turn now next).failures = b.failures := by
  simp only [turn, if_neg h]
  split <;> rfl

/-- Receiving a call changes no number. -/
theorem receive_failures : (b.receive now).1.failures = b.failures := by
  unfold receive
  split
  · rfl
  · split
    · rfl
    · exact turn_failures .halfOpen (by decide)
  · split <;> rfl

theorem recordSuccess_failures :
    (b.recordSuccess now).failures = if b.circuit = .open then b.failures else 0 := by
  unfold recordSuccess
  cases hcircuit : b.circuit <;> simp [turn, hcircuit]

theorem recordFailure_failures :
    (b.recordFailure now).failures =
      if b.circuit = .open then b.failures else min (b.failures + 1) failureCountLimit := by
  unfold recordFailure
  cases hcircuit : b.circuit with
  | closed =>
    dsimp only
    split
    · exact turn_failures .open (by decide)
    · rfl
  | «open» => rfl
  | halfOpen => exact turn_failures .open (by decide)

/-- Giving up a trial forgets no failure. -/
theorem releaseTrial_failures (b : CircuitBreaker) : b.releaseTrial.failures = b.failures := by
  unfold releaseTrial
  split <;> rfl

/-- **The number after an input.** -/
theorem apply_failures (i : Input) : (b.apply now i).failures =
    if i.forgets b.circuit then 0
    else if i.counts b.circuit then min (b.failures + 1) failureCountLimit
    else b.failures := by
  cases i with
  | call => exact receive_failures
  | success =>
    rw [apply, recordSuccess_failures]
    by_cases h : b.circuit = .open <;> simp [h, Input.forgets, Input.counts]
  | failure =>
    rw [apply, recordFailure_failures]
    by_cases h : b.circuit = .open <;> simp [h, Input.forgets, Input.counts]
  | release => exact releaseTrial_failures b
  | reset => rfl

/-! ## What an input does to the circuit -/

theorem apply_limits (i : Input) : (b.apply now i).limits = b.limits := by
  cases i with
  | call =>
    rcases receive_cases b now with h | ⟨-, h⟩ | ⟨b', h, hlimits, -⟩
    · simp only [apply, h]
    · simp only [apply, h]
    · simpa only [apply, h] using hlimits
  | success => exact record_limits b now true
  | failure => exact record_limits b now false
  | release => exact releaseTrial_limits b
  | reset => exact turn_limits .closed

/-- Receiving a call closes no circuit, and opens none. -/
theorem receive_closed_iff : (b.receive now).1.circuit = .closed ↔ b.circuit = .closed := by
  unfold receive
  split
  · exact Iff.rfl
  · next h =>
    split
    · exact Iff.rfl
    · simp [h]
  · split <;> exact Iff.rfl

/-- **When the circuit is closed after an input**: if the input makes the
failures forgotten, or if it was closed and the input is not the failure
that is one too many. -/
theorem apply_closed_iff (i : Input) : (b.apply now i).circuit = .closed ↔
    i.forgets b.circuit = true ∨ b.circuit = .closed ∧ (i.counts b.circuit = true →
      min (b.failures + 1) failureCountLimit < b.limits.failureThreshold) := by
  cases i with
  | call => simp [apply, receive_closed_iff, Input.forgets, Input.counts]
  | success =>
    rw [apply, recordSuccess]
    cases hcircuit : b.circuit <;> simp [hcircuit, Input.forgets, Input.counts]
  | failure =>
    rw [apply, recordFailure]
    cases hcircuit : b.circuit with
    | closed =>
      dsimp only
      split
      · next hopens =>
        refine iff_of_false (by simp) ?_
        rintro (hforgets | ⟨-, hbelow⟩)
        · cases hforgets
        · exact absurd (hbelow rfl) (Nat.not_lt_of_le hopens)
      · next hbelow =>
        exact iff_of_true hcircuit (.inr ⟨rfl, fun _ => Nat.lt_of_not_le hbelow⟩)
    | «open» => simp [hcircuit, Input.forgets]
    | halfOpen => simp [Input.forgets]
  | release => simp [apply, releaseTrial_circuit, Input.forgets, Input.counts]
  | reset => simp [apply, reset, Input.forgets]

/-! ## After a history -/

/-- **The number and the state of a circuit say the same.** The circuit is
closed exactly while fewer failures are counted than open it. -/
structure Tallied (b : CircuitBreaker) : Prop where
  closed_iff : b.circuit = .closed ↔ b.failures < b.limits.failureThreshold
  failures_le : b.failures ≤ failureCountLimit
  inStep : b.InStep

namespace Tallied

theorem new {limits : BreakerLimits} (hthreshold : 1 ≤ limits.failureThreshold) (now : Nat) :
    (new limits now).Tallied where
  closed_iff := ⟨fun _ => hthreshold, fun _ => rfl⟩
  failures_le := Nat.zero_le _
  inStep htaken := nomatch htaken

/-- **An input keeps the number and the state together.** -/
theorem apply (h : b.Tallied) (hthreshold : 1 ≤ b.limits.failureThreshold) (i : Input) :
    (b.apply now i).Tallied where
  closed_iff := by
    have hle := h.failures_le
    rw [apply_closed_iff, apply_failures, apply_limits, h.closed_iff]
    cases hforgets : i.forgets b.circuit with
    | true =>
      simp only [if_true, true_or, true_iff]
      exact hthreshold
    | false =>
      cases hcounts : i.counts b.circuit with
      | true =>
        simp only [Bool.false_eq_true, if_false, if_true, false_or, forall_const]
        omega
      | false => simp
  failures_le := by
    have hle := h.failures_le
    rw [apply_failures]
    split
    · exact Nat.zero_le _
    · split
      · exact Nat.min_le_right _ _
      · exact hle
  inStep := h.inStep.apply i

end Tallied

/-- The failures that count after inputs that met these states of the
circuit: those since the latest input that makes them forgotten. -/
def failuresSince (met : List (Circuit × Input)) : Nat :=
  (met.reverse.takeWhile fun m => !m.2.forgets m.1).countP fun m => m.2.counts m.1

theorem failuresSince_append_singleton (met : List (Circuit × Input)) (m : Circuit × Input) :
    failuresSince (met ++ [m]) =
      if m.2.forgets m.1 then 0
      else if m.2.counts m.1 then failuresSince met + 1 else failuresSince met := by
  rw [failuresSince, List.reverse_append, List.reverse_singleton, List.singleton_append,
    List.takeWhile_cons]
  cases m.2.forgets m.1 with
  | true => rfl
  | false =>
    rw [if_pos (by rfl), List.countP_cons]
    cases m.2.counts m.1 <;> rfl

/-- **The number after a history** is that of the failures that count, as
far as it goes. -/
theorem failures_run (limits : BreakerLimits) (start : Nat) (inputs : List (Nat × Input)) :
    ((new limits start).run inputs).failures =
      min (failuresSince ((new limits start).met inputs)) failureCountLimit := by
  induction inputs using List.reverseRecOn with
  | nil => rfl
  | append_singleton inputs e ih =>
    rw [run_append, met_append]
    change (((new limits start).run inputs).apply e.1 e.2).failures =
      min (failuresSince (_ ++ [(((new limits start).run inputs).circuit, e.2)])) failureCountLimit
    rw [apply_failures, failuresSince_append_singleton, ih]
    split
    · rfl
    · split
      · omega
      · rfl

theorem limits_run (inputs : List (Nat × Input)) : (b.run inputs).limits = b.limits := by
  induction inputs generalizing b with
  | nil => rfl
  | cons e inputs ih => exact ih.trans (apply_limits e.2)

/-- A history keeps the number and the state of the circuit together. -/
theorem Tallied.run (h : b.Tallied) (hthreshold : 1 ≤ b.limits.failureThreshold)
    (inputs : List (Nat × Input)) : (b.run inputs).Tallied := by
  induction inputs generalizing b with
  | nil => exact h
  | cons e inputs ih =>
    refine ih (h.apply hthreshold e.2) ?_
    rwa [apply_limits]

/-- **What is counted.** After every history of a breaker that takes at
least one failure to open, the circuit is closed exactly if fewer failures
are counted than open it, and the place of the trial is taken in a
half-open circuit only. Counted are the failures that were reported while
the circuit was not open since it was made or reset, or a success was
reported while it was not open, and no more than can be counted. -/
theorem counts_recent_failures (limits : BreakerLimits)
    (hthreshold : 1 ≤ limits.failureThreshold) (start : Nat) (inputs : List (Nat × Input)) :
    let b := (new limits start).run inputs
    (b.circuit = .closed ↔ b.failures < limits.failureThreshold) ∧
      (b.trialTaken = true → b.circuit = .halfOpen) ∧
      b.failures = min (failuresSince ((new limits start).met inputs)) (2 ^ 32 - 1) := by
  intro b
  have h : b.Tallied := (Tallied.new hthreshold start).run hthreshold inputs
  have hlimits : b.limits = limits := limits_run inputs
  refine ⟨?_, h.inStep, failures_run limits start inputs⟩
  rw [h.closed_iff, hlimits]

/-- A failure is forgotten, two more open the circuit, one meets it open,
and the trial fails. -/
def troubles : List (Nat × Input) :=
  [(0, .failure), (0, .success), (0, .failure), (0, .failure), (0, .failure), (100, .call),
    (100, .failure)]

/-- Three of the five failures count. -/
theorem late_failure_does_not_count :
    1 ≤ (⟨2, 100⟩ : BreakerLimits).failureThreshold ∧
      failuresSince ((new ⟨2, 100⟩ 0).met troubles) = 3 ∧
      ((new ⟨2, 100⟩ 0).run troubles).failures = 3 ∧
      ((new ⟨2, 100⟩ 0).run troubles).circuit ≠ .closed := by
  have hcount : failuresSince ((new ⟨2, 100⟩ 0).met troubles) = 3 := by decide
  obtain ⟨hclosed, -, hnumber⟩ := counts_recent_failures ⟨2, 100⟩ (by decide) 0 troubles
  rw [hcount] at hnumber
  refine ⟨by decide, hcount, hnumber, ?_⟩
  rw [Ne, hclosed, hnumber]
  decide

end CircuitBreaker

end CapabilityBroker
