import CapabilityBroker.Memory.History
import CapabilityBroker.Proofs.Memory.Handlers
import Mathlib.Data.List.Chain
/-!
# How often memory is reclaimed

From what a check can do (`Checked`) follows what one check adds to the
course of a monitor (`step_counters`, `step_entries`, `step_reclaims`), and
what every event keeps (`Spaced`): the monitor remembers the instant at
which memory was reclaimed last, so the next time is not too early, and
since a suppressed entry leaves that instant alone, it is not put off
either.
-/

namespace CapabilityBroker

namespace PressureMonitor

variable {m : PressureMonitor} {now : Nat} {reading : Except Error MemoryUsage}

/-! ## One check -/

theorem check_canReclaim : (m.check now reading).1.canReclaim = m.canReclaim := by
  have h := checked m now reading
  generalize m.check now reading = after at h
  cases h <;> rfl

/-- The monitor remembers when memory was reclaimed last. -/
theorem check_lastReclaim : (m.check now reading).1.lastReclaim =
    if (m.check now reading).2.reclaims then some now else m.lastReclaim := by
  have h := checked m now reading
  generalize m.check now reading = after at h
  cases h <;> rfl

/-- A check finds whether the level has become critical. -/
theorem check_entersCritical : (m.check now reading).2.entersCritical =
    decide (m.level ≠ .critical ∧ m.limits.levelAfter m.level reading = .critical) := by
  have h := checked m now reading
  generalize m.check now reading = after at h
  cases h with
  | failed e => simp [Finding.entersCritical, PressureLimits.levelAfter]
  | unchanged same => simp [Finding.entersCritical, PressureLimits.levelAfter, same]
  | @changed usage level level_eq other reclaims reclaims_eq =>
    have hafter : m.limits.levelAfter m.level (.ok usage) = level := level_eq
    rw [hafter]
    cases level with
    | critical => simp [Finding.entersCritical, Ne.symm other]
    | normal | elevated => simp [Finding.entersCritical]

/-- **Memory is reclaimed** when the level has become critical and it is
due. -/
theorem check_reclaims : (m.check now reading).2.reclaims =
    ((m.check now reading).2.entersCritical && m.reclaimDue now) := by
  have h := checked m now reading
  generalize m.check now reading = after at h
  cases h with
  | failed e => rfl
  | unchanged same => rfl
  | @changed usage level level_eq other reclaims reclaims_eq =>
    subst reclaims_eq
    cases level <;> simp [Finding.reclaims, Finding.entersCritical]

/-- A check counts a change of the level, under the level that it leads
to. -/
theorem check_counters : Signal.counters (m.check now reading).2.report =
    if m.limits.levelAfter m.level reading = m.level then []
    else [.memoryPressure (m.limits.levelAfter m.level reading).name] := by
  have h := checked m now reading
  generalize m.check now reading = after at h
  cases h with
  | failed e =>
    have hafter : m.limits.levelAfter m.level (.error e) = m.level := rfl
    rw [if_pos hafter]
    rfl
  | @unchanged usage same =>
    have hafter : m.limits.levelAfter m.level (.ok usage) = m.level := same
    rw [if_pos hafter]
    rfl
  | @changed usage level level_eq other reclaims reclaims_eq =>
    have hafter : m.limits.levelAfter m.level (.ok usage) = level := level_eq
    rw [hafter, if_neg other]
    cases reclaims <;> rfl

/-- **When it is due**: at once the first time, and then after the time
between two. -/
theorem reclaimDue_iff : m.reclaimDue now = true ↔ m.canReclaim = true ∧
    (m.lastReclaim = none ∨ ∃ last, m.lastReclaim = some last ∧
      m.limits.minReclaimInterval ≤ now - last) := by
  rw [reclaimDue, Bool.and_eq_true]
  cases m.lastReclaim <;> simp

/-! ## What one event adds -/

namespace Course

variable {c : Course} {event : Event} {p : Finding → Bool}

theorem step_limits (c : Course) (event : Event) :
    (c.step event).monitor.limits = c.monitor.limits := by
  cases event with
  | advance span => rfl
  | check reading => exact check_limits

theorem step_canReclaim (c : Course) (event : Event) :
    (c.step event).monitor.canReclaim = c.monitor.canReclaim := by
  cases event with
  | advance span => rfl
  | check reading => exact check_canReclaim

theorem instants_step (c : Course) (p : Finding → Bool) (reading : Except Error MemoryUsage) :
    (c.step (.check reading)).instants p =
      c.instants p ++ if p (c.monitor.check c.now reading).2 then [c.now] else [] := by
  rw [instants, instants, step, List.filter_append, List.map_append]
  congr 1
  cases h : p (c.monitor.check c.now reading).2 <;> simp [h]

theorem step_reclaims (c : Course) (reading : Except Error MemoryUsage) :
    (c.step (.check reading)).reclaims =
      c.reclaims ++ if (c.monitor.check c.now reading).2.reclaims then [c.now] else [] :=
  c.instants_step _ reading

theorem step_entries (c : Course) (reading : Except Error MemoryUsage) :
    (c.step (.check reading)).entries =
      c.entries ++ if (c.monitor.check c.now reading).2.entersCritical then [c.now] else [] :=
  c.instants_step _ reading

theorem step_counters (c : Course) (reading : Except Error MemoryUsage) :
    (c.step (.check reading)).counters = c.counters ++
      if c.monitor.limits.levelAfter c.monitor.level reading = c.monitor.level then []
      else [.memoryPressure (c.monitor.limits.levelAfter c.monitor.level reading).name] := by
  have hadded := @check_counters c.monitor c.now reading
  rw [← hadded, counters, counters, step, List.flatMap_append]
  congr 1
  exact List.flatMap_singleton _ _

/-! ## What every event keeps -/

/-- The times at which memory is reclaimed are apart: the monitor remembers
the last of them, and the first time that the level became critical is one
if memory can be reclaimed at all. -/
structure Spaced (c : Course) : Prop where
  last_eq : c.monitor.lastReclaim = c.reclaims.getLast?
  past : ∀ t ∈ c.reclaims, t ≤ c.now
  apart : c.reclaims.IsChain fun earlier later =>
    earlier + c.monitor.limits.minReclaimInterval ≤ later
  first_iff : c.monitor.canReclaim = true → (c.reclaims = [] ↔ c.entries = [])

theorem spaced_start (now : Nat) (limits : PressureLimits) (canReclaim : Bool) :
    Spaced (start now limits canReclaim) where
  last_eq := rfl
  past := fun _ h => nomatch h
  apart := .nil
  first_iff := fun _ => Iff.rfl

namespace Spaced

/-- **When memory is due to be reclaimed**, by the times at which it was. -/
theorem due_iff (h : Spaced c) : c.monitor.reclaimDue c.now = true ↔
    c.monitor.canReclaim = true ∧ ∀ last ∈ c.reclaims.getLast?,
      last + c.monitor.limits.minReclaimInterval ≤ c.now := by
  rw [reclaimDue_iff, h.last_eq]
  refine and_congr_right fun _ => ?_
  cases hlast : c.reclaims.getLast? with
  | none => simp
  | some last =>
    have hpast : last ≤ c.now := h.past last (List.mem_of_getLast? hlast)
    simp only [reduceCtorEq, false_or, Option.some.injEq, exists_eq_left', Option.mem_def,
      forall_eq']
    omega

/-- The same by the entries: it is due on the first one, and then after the
time between two. -/
theorem due_iff_first (h : Spaced c) : c.monitor.reclaimDue c.now = true ↔
    c.monitor.canReclaim = true ∧ (c.entries = [] ∨ ∃ last ∈ c.reclaims.getLast?,
      last + c.monitor.limits.minReclaimInterval ≤ c.now) := by
  rw [h.due_iff]
  refine and_congr_right fun hcan => ?_
  rw [← h.first_iff hcan, ← List.getLast?_eq_none_iff]
  cases c.reclaims.getLast? <;> simp

/-- The clock advances. -/
theorem advance (h : Spaced c) (span : Nat) : Spaced (c.step (.advance span)) where
  last_eq := h.last_eq
  past := fun t ht => (h.past t ht).trans (Nat.le_add_right c.now span)
  apart := h.apart
  first_iff := h.first_iff

/-- The memory is checked. -/
theorem check (h : Spaced c) (reading : Except Error MemoryUsage) :
    Spaced (c.step (.check reading)) := by
  have hreclaims := c.step_reclaims reading
  have hentries := c.step_entries reading
  have hlast : (c.step (.check reading)).monitor.lastReclaim =
      if (c.monitor.check c.now reading).2.reclaims then some c.now else c.monitor.lastReclaim :=
    check_lastReclaim
  have hdecided := @check_reclaims c.monitor c.now reading
  cases hdoes : (c.monitor.check c.now reading).2.reclaims with
  | true =>
    -- one more time, which was due and is not too early
    rw [hdoes] at hreclaims hlast hdecided
    obtain ⟨henters, hdue⟩ := Bool.and_eq_true_iff.mp hdecided.symm
    rw [henters] at hentries
    refine ⟨?_, ?_, ?_, fun _ => by simp [hreclaims, hentries]⟩
    · simp [hlast, hreclaims]
    · intro t ht
      rw [hreclaims] at ht
      rcases List.mem_append.mp ht with ht | ht
      · exact h.past t ht
      · exact (List.mem_singleton.mp ht).le
    · rw [hreclaims, step_limits]
      refine List.isChain_append.mpr ⟨h.apart, .singleton _, fun last hlast next hnext => ?_⟩
      obtain rfl : c.now = next := by simpa using hnext
      exact (h.due_iff.mp hdue).2 last hlast
  | false =>
    -- the times are as they were, and so is what the monitor remembers
    rw [hdoes, if_neg Bool.false_ne_true, List.append_nil] at hreclaims
    rw [hdoes, if_neg Bool.false_ne_true] at hlast
    refine ⟨by rw [hlast, hreclaims, h.last_eq], by rw [hreclaims]; exact h.past, ?_, ?_⟩
    · rw [hreclaims, step_limits]
      exact h.apart
    · rw [step_canReclaim, hreclaims, hentries]
      intro hcan
      cases henters : (c.monitor.check c.now reading).2.entersCritical with
      | false => simpa using h.first_iff hcan
      | true =>
        -- a suppressed entry is not the first one
        rw [hdoes, henters, Bool.true_and] at hdecided
        have hsome : c.reclaims ≠ [] := by
          intro hnone
          have hdue := h.due_iff.mpr ⟨hcan, by simp [hnone]⟩
          rw [hdue] at hdecided
          cases hdecided
        simp [hsome]

theorem step (h : Spaced c) (event : Event) : Spaced (c.step event) := by
  cases event with
  | advance span => exact h.advance span
  | check reading => exact h.check reading

theorem run (h : Spaced c) (history : List Event) : Spaced (c.run history) := by
  induction history generalizing c with
  | nil => exact h
  | cons event history ih => exact ih (h.step event)

end Spaced

/-! ## The level -/

theorem run_limits (c : Course) (history : List Event) :
    (c.run history).monitor.limits = c.monitor.limits := by
  induction history generalizing c with
  | nil => rfl
  | cons event history ih => exact (ih _).trans (c.step_limits event)

theorem run_canReclaim (c : Course) (history : List Event) :
    (c.run history).monitor.canReclaim = c.monitor.canReclaim := by
  induction history generalizing c with
  | nil => rfl
  | cons event history ih => exact (ih _).trans (c.step_canReclaim event)

theorem levelBy_append_singleton (limits : PressureLimits) (history : List Event)
    (event : Event) : limits.levelBy (history ++ [event]) =
      match event.usage? with
      | none => limits.levelBy history
      | some usage => limits.classify usage.utilization := by
  unfold PressureLimits.levelBy
  rw [List.filterMap_append]
  cases husage : event.usage? <;> simp [husage]

/-- **The level is that of the last reading.** -/
theorem run_level (now : Nat) (limits : PressureLimits) (canReclaim : Bool)
    (history : List Event) :
    ((start now limits canReclaim).run history).monitor.level = limits.levelBy history := by
  induction history using List.reverseRecOn with
  | nil => rfl
  | append_singleton history event ih =>
    rw [levelBy_append_singleton, run, List.foldl_append]
    change (((start now limits canReclaim).run history).step event).monitor.level = _
    cases event with
    | advance span => exact ih
    | check reading =>
      refine check_level.trans ?_
      rw [run_limits, ih]
      cases reading <;> rfl

end Course

/-! ## Every history -/

/-- **The level is tracked, and memory is reclaimed when it should be.**
After every history, the level is that of the last reading. A check counts
one change, under the level that it leads to, exactly if it changes the
level. Memory is reclaimed exactly on the checks that find the level to have
become critical, if it can be reclaimed, and if this is the first such check
or the time between two has passed since memory was reclaimed last; so that
time is between any two in a row. A check without a reading changes
nothing. -/
theorem level_tracked_and_reclaims_spaced (limits : PressureLimits) (canReclaim : Bool)
    (start : Nat) (history : List Event) :
    let c := (Course.start start limits canReclaim).run history
    c.monitor.level = limits.levelBy history
      ∧ (c.reclaims.IsChain fun earlier later => earlier + limits.minReclaimInterval ≤ later)
      ∧ (∀ reading : Except Error MemoryUsage,
          let d := c.step (.check reading)
          let enters := c.monitor.level ≠ .critical ∧ d.monitor.level = .critical
          d.monitor.level = limits.levelAfter c.monitor.level reading
          ∧ d.counters = c.counters ++
              (if d.monitor.level ≠ c.monitor.level then [.memoryPressure d.monitor.level.name]
                else [])
          ∧ d.entries = c.entries ++ (if enters then [c.now] else [])
          ∧ d.reclaims = c.reclaims ++
              (if enters ∧ canReclaim = true ∧ (c.entries = [] ∨ ∃ last ∈ c.reclaims.getLast?,
                  last + limits.minReclaimInterval ≤ c.now) then [c.now] else []))
      ∧ ∀ (e : Error) (η : Type) (handlers : List η),
          let d := c.step (.check (.error e))
          d.monitor = c.monitor ∧ d.counters = c.counters ∧ d.entries = c.entries
            ∧ d.reclaims = c.reclaims ∧ d.calls handlers = c.calls handlers := by
  intro c
  have hspaced : c.Spaced := (Course.spaced_start start limits canReclaim).run history
  have hlimits : c.monitor.limits = limits := Course.run_limits _ _
  have hcan : c.monitor.canReclaim = canReclaim := Course.run_canReclaim _ _
  refine ⟨Course.run_level start limits canReclaim history, hlimits ▸ hspaced.apart,
    fun reading => ?_, fun e η handlers => ?_⟩
  · intro d enters
    have hlevel : d.monitor.level = limits.levelAfter c.monitor.level reading :=
      hlimits ▸ check_level
    have henters : (c.monitor.check c.now reading).2.entersCritical = true ↔ enters := by
      rw [check_entersCritical, decide_eq_true_iff, hlimits, ← hlevel]
    refine ⟨hlevel, ?_, ?_, ?_⟩
    · rw [c.step_counters, hlimits, ← hlevel, ite_not]
    · rw [c.step_entries]
      simp only [henters]
    · rw [c.step_reclaims, check_reclaims]
      simp only [Bool.and_eq_true, henters, hspaced.due_iff_first, hcan, hlimits]
  · intro d
    have hcounters := c.step_counters (.error e)
    refine ⟨rfl, hcounters.trans ?_, (c.step_entries (.error e)).trans (List.append_nil _),
      (c.step_reclaims (.error e)).trans (List.append_nil _), ?_⟩
    · simp [PressureLimits.levelAfter]
    · simp [d, Course.calls, Course.step, check, Finding.calls, Finding.handled?]

/-- A check that comes too early does not put the next time off. -/
example :
    let high : Event := .check (.ok ⟨100, 5⟩)
    let low : Event := .check (.ok ⟨100, 50⟩)
    let wait : Event := .advance (Duration.ofSecs 30)
    let c := (Course.start 0 {} true).run [high, low, wait, high, low, wait, high]
    c.entries = [0, Duration.ofSecs 30, Duration.ofSecs 60]
      ∧ c.reclaims = [0, Duration.ofSecs 60] := by
  decide +kernel

end PressureMonitor

end CapabilityBroker
