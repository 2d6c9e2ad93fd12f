import CapabilityBroker.CircuitBreaker
import CapabilityBroker.Proofs.Keyed
/-!
# Calls and trials

Every call that a breaker lets pass reports once at most: that it
succeeded, that it failed or, if it is a trial, that it is given up. The
breaker does not know from which call a report comes. A call that it let
pass while the circuit was closed may report when a trial is on its way,
and the breaker takes that for the report of the trial (`isStray`).

Stray reports decide whether there is ever more than one trial.
Without them there is not, since a trial that is on its way keeps the
circuit half open and its place taken (`Counted`). After one the circuit
is closed or open, and from there a second trial can pass while the first
one has not reported (`two_trials_of_stray`).
-/

namespace CapabilityBroker

namespace CircuitBreaker

/-- A breaker, the calls that it let pass and that have not reported, each
with its number and whether it is a trial, and how many it let pass. -/
structure Traffic where
  breaker : CircuitBreaker
  pending : List (Nat × Bool)
  admitted : Nat
  deriving DecidableEq

/-- Whether a trial is on its way, as far as a breaker knows. -/
def expectsTrial (b : CircuitBreaker) : Bool := decide (b.circuit = .halfOpen) && b.trialTaken

/-- A breaker learns how a call went. -/
def record (b : CircuitBreaker) (now : Nat) (succeeded : Bool) : CircuitBreaker :=
  if succeeded then b.recordSuccess now else b.recordFailure now

section

variable {b : CircuitBreaker} {now : Nat}

@[simp] theorem turn_circuit (next : Circuit) : (b.turn now next).circuit = next := by
  unfold turn
  split
  · next h => exact h
  · rfl

@[simp] theorem turn_limits (next : Circuit) : (b.turn now next).limits = b.limits := by
  unfold turn
  split <;> rfl

/-- **Receiving a call.** It is refused, or it passes a closed circuit, or
it is the trial, and there was none. -/
theorem receive_cases (b : CircuitBreaker) (now : Nat) :
    b.receive now = (b, .refused) ∨
    (b.circuit = .closed ∧ b.receive now = (b, .passed)) ∨
    ∃ b', b.receive now = (b', .trial) ∧ b'.limits = b.limits ∧ b.expectsTrial = false ∧
      b'.expectsTrial = true := by
  unfold receive
  split
  · next h => exact Or.inr (Or.inl ⟨h, rfl⟩)
  · next h =>
    split
    · exact Or.inl rfl
    · exact Or.inr (Or.inr
        ⟨_, rfl, turn_limits _, by simp [expectsTrial, h], by simp [expectsTrial]⟩)
  · next h =>
    split
    · exact Or.inl rfl
    · next htaken =>
      exact Or.inr (Or.inr ⟨_, rfl, rfl, by simp [expectsTrial, htaken], by simp [expectsTrial, h]⟩)

/-- A refused call leaves a breaker as it is. -/
theorem receive_of_refused (h : (b.receive now).2 = .refused) : (b.receive now).1 = b := by
  rcases receive_cases b now with heq | ⟨-, heq⟩ | ⟨b', heq, -⟩ <;> simp [heq] at h ⊢

/-- After a report the circuit is not half open. -/
theorem record_circuit (b : CircuitBreaker) (now : Nat) (succeeded : Bool) :
    (b.record now succeeded).circuit ≠ .halfOpen := by
  cases succeeded with
  | true =>
    change (b.recordSuccess now).circuit ≠ .halfOpen
    unfold recordSuccess
    split
    · simp
    · next h => simp [h]
    · next h => simp [h]
  | false =>
    change (b.recordFailure now).circuit ≠ .halfOpen
    unfold recordFailure
    split
    · next h =>
      dsimp only
      split
      · simp
      · simp [countFailure, h]
    · simp
    · next h => simp [h]

theorem record_limits (b : CircuitBreaker) (now : Nat) (succeeded : Bool) :
    (b.record now succeeded).limits = b.limits := by
  cases succeeded with
  | true =>
    change (b.recordSuccess now).limits = b.limits
    unfold recordSuccess
    split <;> simp
  | false =>
    change (b.recordFailure now).limits = b.limits
    unfold recordFailure
    split
    · dsimp only
      split <;> simp [countFailure]
    · simp [countFailure]
    · rfl

/-- A failure opens a closed circuit, or is counted. -/
theorem recordFailure_cases (now : Nat) (h : b.circuit = .closed) :
    ((b.recordFailure now).circuit = .open ∧ (b.recordFailure now).changedAt = now) ∨
      (b.recordFailure now = b.countFailure ∧
        min (b.failures + 1) failureCountLimit < b.limits.failureThreshold) := by
  have hopen : b.countFailure.circuit ≠ .open := by simp [countFailure, h]
  simp only [recordFailure, h]
  split
  · simp [turn, hopen]
  · next hbelow => exact Or.inr ⟨rfl, Nat.lt_of_not_le hbelow⟩

/-- A success closes a half-open circuit, -/
theorem recordSuccess_of_halfOpen (now : Nat) (h : b.circuit = .halfOpen) :
    (b.recordSuccess now).circuit = .closed ∧ (b.recordSuccess now).failures = 0 ∧
      (b.recordSuccess now).limits = b.limits := by
  simp [recordSuccess, turn, h]

/-- and a failure opens it. -/
theorem recordFailure_of_halfOpen (now : Nat) (h : b.circuit = .halfOpen) :
    (b.recordFailure now).circuit = .open ∧ (b.recordFailure now).changedAt = now := by
  simp [recordFailure, turn, countFailure, h]

theorem releaseTrial_limits (b : CircuitBreaker) : b.releaseTrial.limits = b.limits := by
  unfold releaseTrial
  split <;> rfl

/-- Giving up a trial does not turn the circuit. -/
theorem releaseTrial_circuit (b : CircuitBreaker) : b.releaseTrial.circuit = b.circuit := by
  unfold releaseTrial
  split <;> rfl

/-- A trial that is given up is not on its way. -/
theorem releaseTrial_expectsTrial (b : CircuitBreaker) : b.releaseTrial.expectsTrial = false := by
  unfold releaseTrial
  split
  · simp [expectsTrial]
  · next h => simp [expectsTrial, h]

end

namespace Traffic

/-- What calls do. -/
inductive Event where
  /-- A call comes to the breaker. -/
  | call
  /-- A call reports how it went. -/
  | report (call : Nat) (succeeded : Bool)
  /-- A trial is given up. -/
  | release (call : Nat)

/-- A new breaker, to which nobody has come. -/
def new (limits : BreakerLimits) (now : Nat) : Traffic := ⟨.new limits now, [], 0⟩

/-- Whether a call is a trial, if it has not reported. -/
def pending? (t : Traffic) (id : Nat) : Option Bool := (t.pending.find? (·.1 = id)).map (·.2)

/-- A call passes. -/
def pass (t : Traffic) (b : CircuitBreaker) (isTrial : Bool) : Traffic :=
  ⟨b, (t.admitted, isTrial) :: t.pending, t.admitted + 1⟩

/-- A call has reported. -/
def settle (t : Traffic) (id : Nat) (b : CircuitBreaker) : Traffic :=
  { t with breaker := b, pending := t.pending.filter (·.1 ≠ id) }

/-- The state after an event. Whoever has not passed, or has reported,
does not report. -/
def step (now : Nat) (t : Traffic) : Event → Traffic
  | .call =>
    match t.breaker.receive now with
    | (b, .refused) => { t with breaker := b }
    | (b, .passed) => t.pass b false
    | (b, .trial) => t.pass b true
  | .report id succeeded =>
    if (t.pending? id).isSome then t.settle id (t.breaker.record now succeeded) else t
  | .release id =>
    if t.pending? id = some true then t.settle id t.breaker.releaseTrial else t

/-- The state after a history of events, each with its instant. -/
def run (t : Traffic) (events : List (Nat × Event)) : Traffic :=
  events.foldl (fun t e => t.step e.1 e.2) t

/-- How many trials have not reported. -/
def trials (t : Traffic) : Nat := t.pending.countP (·.2)

/-- Whether an event is a report that the breaker takes for that of a
trial, although it is not. -/
def isStray (t : Traffic) : Event → Bool
  | .report id _ => decide (t.pending? id = some false) && t.breaker.expectsTrial
  | _ => false

/-- Whether no event of a history is a stray report. -/
def orderly (t : Traffic) : List (Nat × Event) → Bool
  | [] => true
  | e :: events => !t.isStray e.2 && (t.step e.1 e.2).orderly events

variable {t : Traffic} {now id : Nat} {b : CircuitBreaker} {e : Event}
  {past : List (Nat × Event)}

/-! ## What is pending -/

/-- Calls have different numbers, below that of the next one. -/
structure Numbered (t : Traffic) : Prop where
  lt_admitted {p : Nat × Bool} : p ∈ t.pending → p.1 < t.admitted
  nodup : (t.pending.map (·.1)).Nodup

theorem Numbered.pass (h : t.Numbered) (b : CircuitBreaker) (isTrial : Bool) :
    (t.pass b isTrial).Numbered where
  lt_admitted hp := by
    rcases List.mem_cons.mp hp with rfl | hp
    · exact Nat.lt_succ_self _
    · exact Nat.lt_succ_of_lt (h.lt_admitted hp)
  nodup := by
    refine List.nodup_cons.mpr ⟨fun hmem => ?_, h.nodup⟩
    obtain ⟨p, hp, heq⟩ := List.mem_map.mp hmem
    exact Nat.ne_of_lt (h.lt_admitted hp) heq

theorem Numbered.settle (h : t.Numbered) (id : Nat) (b : CircuitBreaker) :
    (t.settle id b).Numbered where
  lt_admitted hp := h.lt_admitted (List.mem_filter.mp hp).1
  nodup := h.nodup.sublist (List.filter_sublist.map _)

theorem trials_pass (isTrial : Bool) : (t.pass b isTrial).trials = t.trials + isTrial.toNat := by
  cases isTrial <;> simp [pass, trials]

/-- A call that has reported is not pending, and every other one is. -/
theorem trials_settle {isTrial : Bool} (h : t.Numbered) (hid : t.pending? id = some isTrial) :
    (t.settle id b).trials + isTrial.toNat = t.trials := by
  obtain ⟨p, hp, rfl⟩ := Option.map_eq_some_iff.mp hid
  have hkey : p.1 = id := by simpa using List.find?_some hp
  subst hkey
  exact Keyed.countP_filter_ne h.nodup (List.mem_of_find?_eq_some hp)

theorem limits_step (t : Traffic) (now : Nat) (e : Event) :
    (t.step now e).breaker.limits = t.breaker.limits := by
  cases e with
  | call =>
    rcases receive_cases t.breaker now with h | ⟨-, h⟩ | ⟨b', h, hlimits, -⟩
    · simp only [step, h]
    · simp only [step, h, pass]
    · simp only [step, h, pass, hlimits]
  | report id succeeded =>
    simp only [step]
    split
    · exact record_limits _ _ _
    · rfl
  | release id =>
    simp only [step]
    split
    · exact releaseTrial_limits _
    · rfl

theorem limits_run : (t.run past).breaker.limits = t.breaker.limits := by
  induction past generalizing t with
  | nil => rfl
  | cons e past ih => exact ih.trans (limits_step t e.1 e.2)

/-! ## One trial -/

/-- **The invariant of orderly traffic**: the breaker expects a trial
exactly if there is one, and there is only one. -/
structure Counted (t : Traffic) : Prop extends Numbered t where
  trials_eq : t.trials = t.breaker.expectsTrial.toNat

namespace Counted

theorem new (limits : BreakerLimits) (now : Nat) : (new limits now).Counted where
  lt_admitted hp := by cases hp
  nodup := List.nodup_nil
  trials_eq := rfl

theorem trials_le_one (h : t.Counted) : t.trials ≤ 1 := h.trials_eq ▸ Bool.toNat_le _

/-- A report that is not stray leaves no trial, and none is expected. -/
theorem settle {isTrial : Bool} (h : t.Counted) (hid : t.pending? id = some isTrial)
    (hstray : isTrial = false → t.breaker.expectsTrial = false) (hb : b.expectsTrial = false) :
    (t.settle id b).Counted := by
  refine ⟨h.toNumbered.settle id b, ?_⟩
  have hcount := trials_settle (b := b) h.toNumbered hid
  have hle := h.trials_le_one
  rw [show (t.settle id b).breaker = b from rfl, hb]
  cases isTrial with
  -- the trial that reports was the only one
  | true =>
    rw [Bool.toNat_true] at hcount
    rw [Bool.toNat_false]
    omega
  | false => rwa [h.trials_eq, hstray rfl] at hcount

/-- **A step that is no stray report** keeps trials and breaker together. -/
theorem step (h : t.Counted) (now : Nat) (hstray : t.isStray e = false) :
    (t.step now e).Counted := by
  cases e with
  | call =>
    rcases receive_cases t.breaker now with hr | ⟨-, hr⟩ | ⟨b', hr, -, hnone, hsome⟩
    · simpa only [Traffic.step, hr] using h
    · simp only [Traffic.step, hr]
      exact ⟨h.toNumbered.pass _ _, by rw [trials_pass, h.trials_eq]; rfl⟩
    · simp only [Traffic.step, hr]
      refine ⟨h.toNumbered.pass _ _, ?_⟩
      rw [trials_pass, h.trials_eq, hnone, show (t.pass b' true).breaker = b' from rfl, hsome]
      rfl
  | report id succeeded =>
    simp only [Traffic.step]
    split
    · next hid =>
      obtain ⟨isTrial, hid⟩ := Option.isSome_iff_exists.mp hid
      refine h.settle hid (fun hordinary => ?_) ?_
      · subst hordinary
        simpa [isStray, hid] using hstray
      · simp [expectsTrial, record_circuit]
    · exact h
  | release id =>
    simp only [Traffic.step]
    split
    · next hid =>
      exact h.settle hid (fun hordinary => nomatch hordinary) (releaseTrial_expectsTrial _)
    · exact h

/-- **And so does orderly traffic.** -/
theorem run {events : List (Nat × Event)} (h : t.Counted) (horderly : t.orderly events = true) :
    (t.run events).Counted := by
  induction events generalizing t with
  | nil => exact h
  | cons e events ih =>
    simp only [orderly, Bool.and_eq_true, Bool.not_eq_true'] at horderly
    exact ih (h.step e.1 horderly.1) horderly.2

end Counted

/-! ## Two trials -/

/-- Whether events come one after the other, and none before an instant. -/
def InOrder (now : Nat) : List (Nat × Event) → Prop
  | [] => True
  | e :: later => now ≤ e.1 ∧ InOrder e.1 later

/-- From an instant on, one more trial can pass without any of the pending
calls reporting. -/
def AnotherTrial (t : Traffic) (now : Nat) : Prop :=
  ∃ later, InOrder now later ∧ t.orderly later = true ∧ (t.run later).trials = t.trials + 1

/-- It passes an open circuit after its pause, -/
theorem anotherTrial_of_open (hcircuit : t.breaker.circuit = .open)
    (hchanged : t.breaker.changedAt = now) : t.AnotherTrial now := by
  refine ⟨[(now + t.breaker.limits.resetTimeout, .call)], ⟨Nat.le_add_right _ _, trivial⟩, rfl, ?_⟩
  have hnow : ¬ now + t.breaker.limits.resetTimeout - t.breaker.changedAt
      < t.breaker.limits.resetTimeout := by omega
  simp only [run, List.foldl_cons, List.foldl_nil, step, receive, hcircuit, if_neg hnow]
  exact trials_pass true

/-- A call passes a closed circuit, and fails. -/
def failOnce (t : Traffic) (now : Nat) : Traffic :=
  (t.pass t.breaker false).settle t.admitted (t.breaker.recordFailure now)

theorem numbered_failOnce (h : t.Numbered) : (t.failOnce now).Numbered :=
  (h.pass _ _).settle _ _

theorem pending?_pass {isTrial : Bool} : (t.pass b isTrial).pending? t.admitted = some isTrial := by
  simp [pending?, pass]

/-- Nobody else notices. -/
theorem anotherTrial_of_failOnce (h : t.Numbered) (hcircuit : t.breaker.circuit = .closed)
    (hnext : (t.failOnce now).AnotherTrial now) : t.AnotherTrial now := by
  obtain ⟨later, hin, horderly, htrials⟩ := hnext
  have hcall : t.step now .call = t.pass t.breaker false := by simp only [step, receive, hcircuit]
  have hfail : (t.pass t.breaker false).step now (.report t.admitted false) = t.failOnce now := by
    simp only [step, pending?_pass, Option.isSome_some, if_true]
    rfl
  have hstray : (t.pass t.breaker false).isStray (.report t.admitted false) = false := by
    simp [isStray, pass, expectsTrial, hcircuit]
  have hcount := trials_settle (b := t.breaker.recordFailure now) (h.pass t.breaker false)
    pending?_pass
  rw [trials_pass] at hcount
  refine ⟨(now, .call) :: (now, .report t.admitted false) :: later,
    ⟨Nat.le_refl _, Nat.le_refl _, hin⟩, ?_, ?_⟩
  · simp only [orderly, hcall, hfail, hstray, horderly]
    rfl
  · simp only [run, List.foldl_cons, hcall, hfail]
    exact htrials.trans (congrArg (· + 1) hcount)

/-- and a closed circuit can be opened by calls that fail. -/
theorem anotherTrial_of_closed (left : Nat) (h : t.Numbered)
    (hcircuit : t.breaker.circuit = .closed)
    (hlimit : t.breaker.limits.failureThreshold ≤ failureCountLimit)
    (hleft : t.breaker.limits.failureThreshold ≤ t.breaker.failures + left + 1) :
    t.AnotherTrial now := by
  -- on the failures that are left until the circuit opens
  induction left generalizing t with
  | zero =>
    refine anotherTrial_of_failOnce h hcircuit ?_
    rcases recordFailure_cases now hcircuit with ⟨hopen, hchanged⟩ | ⟨-, hbelow⟩
    · exact anotherTrial_of_open hopen hchanged
    · omega
  | succ left ih =>
    refine anotherTrial_of_failOnce h hcircuit ?_
    rcases recordFailure_cases now hcircuit with ⟨hopen, hchanged⟩ | ⟨hcounted, hbelow⟩
    · exact anotherTrial_of_open hopen hchanged
    · have hbreaker : (t.failOnce now).breaker = t.breaker.countFailure := hcounted
      refine ih (numbered_failOnce h) ?_ ?_ ?_
      · rw [hbreaker]
        exact hcircuit
      · rw [hbreaker]
        exact hlimit
      · rw [hbreaker]
        change t.breaker.limits.failureThreshold ≤
          min (t.breaker.failures + 1) failureCountLimit + left + 1
        omega

/-- **A stray report makes room for a second trial.** It closes the circuit
or opens it, while the trial that it was taken for has not reported. -/
theorem two_trials_of_stray (h : t.Counted)
    (hlimit : t.breaker.limits.failureThreshold ≤ failureCountLimit) (hstray : t.isStray e = true) :
    ∃ later, InOrder now later ∧ (t.step now e).orderly later = true ∧
      ((t.step now e).run later).trials = 2 := by
  obtain ⟨id, succeeded, rfl⟩ : ∃ id succeeded, e = .report id succeeded := by
    cases e with
    | report id succeeded => exact ⟨id, succeeded, rfl⟩
    | call => cases hstray
    | release => cases hstray
  simp only [isStray, Bool.and_eq_true, decide_eq_true_eq] at hstray
  obtain ⟨hid, hexpects⟩ := hstray
  have hhalf : t.breaker.circuit = .halfOpen := by
    simp only [expectsTrial, Bool.and_eq_true, decide_eq_true_eq] at hexpects
    exact hexpects.1
  have hstep : t.step now (.report id succeeded) =
      t.settle id (t.breaker.record now succeeded) := by
    simp [step, hid]
  have hone : (t.settle id (t.breaker.record now succeeded)).trials = 1 := by
    have hcount := trials_settle (b := t.breaker.record now succeeded) h.toNumbered hid
    rw [h.trials_eq, hexpects] at hcount
    exact hcount
  have hnumbered := h.toNumbered.settle id (t.breaker.record now succeeded)
  have hanother : (t.settle id (t.breaker.record now succeeded)).AnotherTrial now := by
    -- a success closes the circuit, which has to be opened again first
    cases succeeded with
    | true =>
      obtain ⟨hclosed, hnone, hlimits⟩ := recordSuccess_of_halfOpen now hhalf
      refine anotherTrial_of_closed t.breaker.limits.failureThreshold hnumbered hclosed ?_ ?_
      · exact hlimits ▸ hlimit
      · change (t.breaker.recordSuccess now).limits.failureThreshold ≤
          (t.breaker.recordSuccess now).failures + _ + 1
        rw [hlimits, hnone]
        omega
    | false =>
      obtain ⟨hopen, hchanged⟩ := recordFailure_of_halfOpen now hhalf
      exact anotherTrial_of_open hopen hchanged
  rw [hstep]
  obtain ⟨later, hin, horderly, htrials⟩ := hanother
  exact ⟨later, hin, horderly, by rw [htrials, hone]⟩

/-- **When two trials are on their way.** Up to the first stray report there
is one trial at most. A report is stray exactly if it can be followed, with
no other stray report, by a second trial before the first one has reported. -/
theorem second_trial_iff_stray (limits : BreakerLimits)
    (hlimit : limits.failureThreshold ≤ failureCountLimit) (start : Nat)
    (past : List (Nat × Event)) (horderly : (new limits start).orderly past = true) :
    ((new limits start).run past).trials ≤ 1 ∧
    ∀ now e, ((new limits start).run past).isStray e = true ↔
      ∃ later, InOrder now later ∧
        (((new limits start).run past).step now e).orderly later = true ∧
        2 ≤ ((((new limits start).run past).step now e).run later).trials := by
  have h := (Counted.new limits start).run horderly
  refine ⟨h.trials_le_one, fun now e => ⟨fun hstray => ?_, ?_⟩⟩
  · have hlimits : ((new limits start).run past).breaker.limits = limits := limits_run
    rw [← hlimits] at hlimit
    obtain ⟨later, hin, hlater, htrials⟩ := two_trials_of_stray h hlimit hstray
    exact ⟨later, hin, hlater, htrials ▸ Nat.le_refl _⟩
  · rintro ⟨later, -, hlater, htrials⟩
    cases hstray : ((new limits start).run past).isStray e with
    | true => rfl
    | false =>
      have := ((h.step now hstray).run hlater).trials_le_one
      omega

/-- Two calls pass, one fails, and the trial comes. The other one fails only
then, and is taken for the trial. -/
theorem late_failure_makes_room :
    ((new ⟨1, 100⟩ 0).run [(0, .call), (0, .call), (0, .report 0 false), (100, .call)]).isStray
      (.report 1 false) = true ∧
    ∃ later, InOrder 100 later ∧
      (((new ⟨1, 100⟩ 0).run [(0, .call), (0, .call), (0, .report 0 false),
        (100, .call)]).step 100 (.report 1 false)).orderly later = true ∧
      2 ≤ ((((new ⟨1, 100⟩ 0).run [(0, .call), (0, .call), (0, .report 0 false),
        (100, .call)]).step 100 (.report 1 false)).run later).trials :=
  have hstray : ((new ⟨1, 100⟩ 0).run [(0, .call), (0, .call), (0, .report 0 false),
      (100, .call)]).isStray (.report 1 false) = true := by decide
  ⟨hstray, ((second_trial_iff_stray ⟨1, 100⟩ (by decide) 0 _ (by decide)).2 100 _).mp hstray⟩

/-- A second trial passes before the first one has reported. -/
theorem two_trials_at_once :
    ((new ⟨1, 100⟩ 0).run [(0, .call), (0, .call), (0, .report 0 false), (100, .call),
      (100, .report 1 false), (200, .call)]).trials = 2 := by
  decide

end Traffic

end CircuitBreaker

end CapabilityBroker
