import CapabilityBroker.Proofs.Breaker.Trials
/-!
# Who decides about a half-open circuit

A report has no sender. A half-open circuit is closed or opened by
whichever pending call reports first, the trial or one that the breaker let
pass long before, and the place of the trial is free after it
(`circuit_report`). So the trial alone decides exactly as long as nobody
else is to report (`any_report_decides`). Here the circuit may be closed by
hand at any time, and calls may report in any order.
-/

namespace CapabilityBroker

namespace CircuitBreaker

namespace Traffic

/-- What happens to a breaker: a call does something, or the circuit is
closed by hand. -/
inductive Act where
  | done (event : Event)
  | reset

/-- The state after an act. -/
def act (now : Nat) (t : Traffic) : Act → Traffic
  | .done e => t.step now e
  | .reset => { t with breaker := t.breaker.reset now }

/-- The state after a course of acts, each with its instant. -/
def course (t : Traffic) (acts : List (Nat × Act)) : Traffic :=
  acts.foldl (fun t a => t.act a.1 a.2) t

/-- The call that has the place of the trial: the latest one that passed as
a trial and has not reported, while the breaker expects one. -/
def trial? (t : Traffic) : Option Nat :=
  if t.breaker.expectsTrial then (t.pending.find? (·.2)).map (·.1) else none

variable {t : Traffic} {now id : Nat} {e : Event} {a : Act}

/-! ## The place of the trial -/

theorem Numbered.step (h : t.Numbered) (now : Nat) (e : Event) : (t.step now e).Numbered := by
  cases e with
  | call =>
    rcases receive_cases t.breaker now with hr | ⟨-, hr⟩ | ⟨b', hr, -⟩
    · simpa only [Traffic.step, hr] using h
    · simpa only [Traffic.step, hr] using h.pass _ _
    · simpa only [Traffic.step, hr] using h.pass _ _
  | report id succeeded =>
    simp only [Traffic.step]
    split
    · exact h.settle id _
    · exact h
  | release id =>
    simp only [Traffic.step]
    split
    · exact h.settle id _
    · exact h

/-- **Whenever a trial is expected, one is pending.** -/
structure Placed (t : Traffic) : Prop extends Numbered t where
  pending : t.breaker.expectsTrial = true → ∃ p ∈ t.pending, p.2 = true

namespace Placed

theorem new (limits : BreakerLimits) (now : Nat) : (new limits now).Placed where
  toNumbered := (Counted.new limits now).toNumbered
  pending hexpects := by cases hexpects

/-- A step that leaves a trial expected either lets one pass, or leaves the
pending calls alone. -/
theorem step (h : t.Placed) (now : Nat) (e : Event) : (t.step now e).Placed := by
  refine ⟨h.toNumbered.step now e, fun hexpects => ?_⟩
  cases e with
  | call =>
    rcases receive_cases t.breaker now with hr | ⟨hclosed, hr⟩ | ⟨b', hr, -⟩
    · simp only [Traffic.step, hr] at hexpects ⊢
      exact h.pending hexpects
    · simp only [Traffic.step, hr, pass] at hexpects
      simp [expectsTrial, hclosed] at hexpects
    · simp only [Traffic.step, hr, pass]
      exact ⟨_, List.mem_cons_self, rfl⟩
  | report id succeeded =>
    simp only [Traffic.step] at hexpects ⊢
    split at hexpects
    · simp [settle, expectsTrial, record_circuit] at hexpects
    · next hnobody =>
      rw [if_neg hnobody]
      exact h.pending hexpects
  | release id =>
    simp only [Traffic.step] at hexpects ⊢
    split at hexpects
    · simp [settle, releaseTrial_expectsTrial] at hexpects
    · next hnobody =>
      rw [if_neg hnobody]
      exact h.pending hexpects

/-- Closing the circuit by hand ends the wait for a trial. -/
theorem reset (h : t.Placed) (now : Nat) : (t.act now .reset).Placed where
  toNumbered := ⟨h.lt_admitted, h.nodup⟩
  pending hexpects := by simp [Traffic.act, CircuitBreaker.reset, expectsTrial] at hexpects

theorem act (h : t.Placed) (now : Nat) (a : Act) : (t.act now a).Placed := by
  cases a with
  | done e => exact h.step now e
  | reset => exact h.reset now

theorem course (h : t.Placed) (acts : List (Nat × Act)) : (t.course acts).Placed := by
  induction acts generalizing t with
  | nil => exact h
  | cons a acts ih => exact ih (h.act a.1 a.2)

/-- Somebody has the place exactly if the breaker expects a trial, -/
theorem isSome_trial? (h : t.Placed) : t.trial?.isSome = t.breaker.expectsTrial := by
  unfold trial?
  split
  · next hexpects =>
    obtain ⟨p, hp, htrial⟩ := h.pending hexpects
    have hfound : (t.pending.find? (·.2)).isSome = true :=
      List.find?_isSome.mpr ⟨p, hp, htrial⟩
    rw [Option.isSome_map, hfound, hexpects]
  · next hnone => simpa using hnone

/-- and that is a trial which has not reported. -/
theorem pending?_of_trial? (h : t.Placed) (hid : t.trial? = some id) :
    t.pending? id = some true := by
  unfold trial? at hid
  split at hid
  · obtain ⟨p, hp, rfl⟩ := Option.map_eq_some_iff.mp hid
    have htrial : p.2 = true := List.find?_some hp
    have hmem : (p.1, true) ∈ t.pending := htrial ▸ List.mem_of_find?_eq_some hp
    rw [pending?, Keyed.find?_of_mem h.nodup hmem]
    rfl
  · cases hid

end Placed

/-! ## Leaving the half-open state -/

/-- **A report decides, whichever call it comes from.** -/
theorem circuit_report (hhalf : t.breaker.circuit = .halfOpen)
    (hid : (t.pending? id).isSome = true) (now : Nat) (succeeded : Bool) :
    (t.step now (.report id succeeded)).breaker.circuit = (if succeeded then .closed else .open) ∧
      (t.step now (.report id succeeded)).breaker.trialTaken = false := by
  simp only [step, if_pos hid, settle]
  cases succeeded with
  | true => simp [record, recordSuccess, turn, hhalf]
  | false => simp [record, recordFailure, countFailure, turn, hhalf]

/-- A call that comes leaves the circuit half open. -/
theorem circuit_call (hhalf : t.breaker.circuit = .halfOpen) (now : Nat) :
    (t.step now .call).breaker.circuit = .halfOpen := by
  cases htaken : t.breaker.trialTaken with
  | true => simp only [step, receive, hhalf, htaken, if_true]
  | false => simp [step, receive, hhalf, htaken, pass]

/-- **How a circuit ceases to be half open**: it is closed by hand, or some
pending call reports. -/
theorem leaves_halfOpen_iff (hhalf : t.breaker.circuit = .halfOpen) :
    (t.act now a).breaker.circuit ≠ .halfOpen ↔
      a = .reset ∨ ∃ id succeeded, (t.pending? id).isSome = true ∧
        a = .done (.report id succeeded) := by
  constructor
  · intro hleft
    cases a with
    | reset => exact Or.inl rfl
    | done e =>
      cases e with
      | call => exact absurd (circuit_call hhalf now) hleft
      | report id succeeded =>
        simp only [act, step] at hleft
        split at hleft
        · next hid => exact Or.inr ⟨id, succeeded, hid, rfl⟩
        · exact absurd hhalf hleft
      | release id =>
        -- a trial that is given up leaves its place and no more
        simp only [act, step] at hleft
        split at hleft
        · exact absurd ((releaseTrial_circuit _).trans hhalf) hleft
        · exact absurd hhalf hleft
  · rintro (rfl | ⟨id, succeeded, hid, rfl⟩)
    · simp [act, CircuitBreaker.reset]
    · have hturned := (circuit_report hhalf hid now succeeded).1
      change (t.step now (.report id succeeded)).breaker.circuit ≠ .halfOpen
      rw [hturned]
      cases succeeded <;> simp

/-- **Any report decides about a half-open circuit.** After every course of
calls, reports and resets that leaves the circuit half open, its place is
held by a pending trial or free. The report of any pending call closes or
opens the circuit and makes the place free; nothing else but a reset turns
it. So the trial alone decides exactly if no other call is to report. -/
theorem any_report_decides (limits : BreakerLimits) (start : Nat) (acts : List (Nat × Act))
    (hhalf : ((new limits start).course acts).breaker.circuit = .halfOpen) :
    let t := (new limits start).course acts
    (t.trial?.isSome = t.breaker.trialTaken ∧
      ∀ id, t.trial? = some id → t.pending? id = some true) ∧
    (∀ now id succeeded, (t.pending? id).isSome = true →
      (t.act now (.done (.report id succeeded))).breaker.circuit =
          (if succeeded then .closed else .open) ∧
        (t.act now (.done (.report id succeeded))).breaker.trialTaken = false) ∧
    (∀ now a, (t.act now a).breaker.circuit ≠ .halfOpen ↔
      a = .reset ∨ ∃ id succeeded, (t.pending? id).isSome = true ∧
        a = .done (.report id succeeded)) ∧
    ((∀ now a, (t.act now a).breaker.circuit ≠ .halfOpen →
        a = .reset ∨ ∃ id succeeded, t.trial? = some id ∧ a = .done (.report id succeeded)) ↔
      ∀ id, (t.pending? id).isSome = true → t.trial? = some id) := by
  intro t
  have h : t.Placed := (Placed.new limits start).course acts
  have htaken : t.trial?.isSome = t.breaker.trialTaken := by
    rw [h.isSome_trial?]
    simp [expectsTrial, t, hhalf]
  refine ⟨⟨htaken, fun id => h.pending?_of_trial?⟩, fun now id succeeded hid => ?_,
    fun now a => leaves_halfOpen_iff hhalf, fun hlaw id hid => ?_, fun hnobody now a hleft => ?_⟩
  · exact circuit_report hhalf hid now succeeded
  · have hleft : (t.act start (.done (.report id true))).breaker.circuit ≠ .halfOpen :=
      (leaves_halfOpen_iff hhalf).mpr (Or.inr ⟨id, true, hid, rfl⟩)
    rcases hlaw start _ hleft with hreset | ⟨id', succeeded, htrial, hreport⟩
    · cases hreset
    · cases hreport
      exact htrial
  · rcases (leaves_halfOpen_iff hhalf).mp hleft with hreset | ⟨id, succeeded, hid, hreport⟩
    · exact Or.inl hreset
    · exact Or.inr ⟨id, succeeded, hnobody id hid, hreport⟩

/-- Two calls pass, and one fails and opens the circuit. After the pause a
third one is the trial. -/
def trialUnderway : List (Nat × Act) :=
  [(0, .done .call), (0, .done .call), (0, .done (.report 0 false)), (100, .done .call)]

/-- The second call has not reported, so it is not the trial alone that
decides. -/
theorem early_call_may_decide :
    ((new ⟨1, 100⟩ 0).course trialUnderway).breaker.circuit = .halfOpen ∧
      ((new ⟨1, 100⟩ 0).course trialUnderway).trial? = some 2 ∧
      ¬ ∀ now a,
        (((new ⟨1, 100⟩ 0).course trialUnderway).act now a).breaker.circuit ≠ .halfOpen →
          a = .reset ∨ ∃ id succeeded,
            ((new ⟨1, 100⟩ 0).course trialUnderway).trial? = some id ∧
              a = .done (.report id succeeded) := by
  have hhalf : ((new ⟨1, 100⟩ 0).course trialUnderway).breaker.circuit = .halfOpen := by decide
  obtain ⟨-, -, -, hlaw⟩ := any_report_decides ⟨1, 100⟩ 0 trialUnderway hhalf
  refine ⟨hhalf, by decide, fun h => ?_⟩
  have hsecond := hlaw.mp h 1 (by decide)
  revert hsecond
  decide

/-- Its late success closes the circuit and forgets the failure, and the
place of the trial, which is still on its way, is free. -/
theorem late_success_closes :
    ((new ⟨1, 100⟩ 0).course trialUnderway).breaker = ⟨⟨1, 100⟩, .halfOpen, 1, 100, true⟩ ∧
      ((new ⟨1, 100⟩ 0).course trialUnderway).pending? 1 = some false ∧
      ((new ⟨1, 100⟩ 0).course trialUnderway).pending? 2 = some true ∧
      (((new ⟨1, 100⟩ 0).course trialUnderway).act 100
        (.done (.report 1 true))).breaker = ⟨⟨1, 100⟩, .closed, 0, 100, false⟩ := by
  decide

end Traffic

end CircuitBreaker

end CapabilityBroker
