import CapabilityBroker.Service.Upkeep
/-!
# When the handlers are called

A check calls its handlers when the level of the pressure changes, unless
it becomes normal (`check_calls`). That is on every rise, as it should be,
and on one fall: from critical to elevated (`isTold_iff`). So the handlers
of a monitor are called when they should be for exactly as long as the
level never falls between the two (`handlers_called_iff`). A service that
is told of that fall gives up its cache as on a rise.
-/

namespace CapabilityBroker

/-! ## Levels -/

/-- The level after a reading: the one that it is classified by, or the
level before if there is none. -/
def PressureLimits.levelAfter (limits : PressureLimits) (before : PressureLevel) :
    Except Error MemoryUsage → PressureLevel
  | .ok usage => limits.classify usage.utilization
  | .error _ => before

/-- The levels before and after each of a sequence of readings. -/
def PressureLimits.levels (limits : PressureLimits) (before : PressureLevel) :
    List (Except Error MemoryUsage) → List (PressureLevel × PressureLevel)
  | [] => []
  | reading :: later =>
    (before, limits.levelAfter before reading) ::
      limits.levels (limits.levelAfter before reading) later

namespace PressureLevel

/-- Whether the pressure rises from one level to another. -/
def Rises (levels : PressureLevel × PressureLevel) : Prop := levels.1.rank < levels.2.rank

/-- Whether the level changes and is not normal then. -/
def IsTold (levels : PressureLevel × PressureLevel) : Prop :=
  levels.1 ≠ levels.2 ∧ levels.2 ≠ .normal

variable {η : Type} {handlers : List η} {levels : PressureLevel × PressureLevel}

instance : Decidable (Rises levels) := inferInstanceAs (Decidable (_ < _))

instance : Decidable (IsTold levels) := inferInstanceAs (Decidable (_ ∧ _))

/-- **The one fall that is told of.** -/
theorem isTold_iff : IsTold levels ↔ Rises levels ∨ levels = (.critical, .elevated) := by
  obtain ⟨before, after⟩ := levels
  cases before <;> cases after <;> decide

/-- The calls that are due from one level to another: of each handler, once
and in their order, if the pressure rises. -/
def dueCalls (handlers : List η) (levels : PressureLevel × PressureLevel) :
    List (η × PressureLevel) :=
  if Rises levels then handlers.map fun h => (h, levels.2) else []

/-- The calls that are made. -/
def madeCalls (handlers : List η) (levels : PressureLevel × PressureLevel) :
    List (η × PressureLevel) :=
  if IsTold levels then handlers.map fun h => (h, levels.2) else []

/-- With any handler at all, the calls that are made are those that are due
except on the one fall. -/
theorem madeCalls_eq_dueCalls_iff (hhandlers : handlers ≠ []) :
    madeCalls handlers levels = dueCalls handlers levels ↔ levels ≠ (.critical, .elevated) := by
  unfold madeCalls dueCalls
  by_cases hfall : levels = (.critical, .elevated)
  · rw [if_pos (isTold_iff.2 (.inr hfall)), if_neg (by rw [hfall]; decide)]
    simp [hfall, hhandlers]
  · simp [isTold_iff, hfall]

end PressureLevel

/-! ## One check -/

namespace PressureMonitor

variable {m : PressureMonitor} {now : Nat} {reading : Except Error MemoryUsage} {η : Type}

/-- **What a check does**, by its reading. -/
inductive Checked (m : PressureMonitor) (now : Nat) :
    Except Error MemoryUsage → PressureMonitor × Finding → Prop
  | failed (e : Error) : Checked m now (.error e) (m, .failed e)
  | unchanged {usage : MemoryUsage} (same : m.limits.classify usage.utilization = m.level) :
      Checked m now (.ok usage) (m, .unchanged)
  | changed {usage : MemoryUsage} {level : PressureLevel}
      (level_eq : m.limits.classify usage.utilization = level) (other : level ≠ m.level)
      {reclaims : Bool}
      (reclaims_eq : reclaims = (decide (level = .critical) && m.reclaimDue now)) :
      Checked m now (.ok usage)
        ({ m with level, lastReclaim := if reclaims then some now else m.lastReclaim },
          .changed m.level level usage.utilization reclaims)

theorem checked (m : PressureMonitor) (now : Nat) (reading : Except Error MemoryUsage) :
    Checked m now reading (m.check now reading) := by
  cases reading with
  | error e => exact .failed e
  | ok usage =>
    by_cases hsame : m.limits.classify usage.utilization = m.level
    · rw [check, if_pos hsame]
      exact .unchanged hsame
    · rw [check, if_neg hsame]
      exact .changed rfl hsame rfl

theorem check_limits : (m.check now reading).1.limits = m.limits := by
  have h := checked m now reading
  generalize m.check now reading = after at h
  cases h <;> rfl

/-- A check brings the level to where its reading puts it. -/
theorem check_level : (m.check now reading).1.level = m.limits.levelAfter m.level reading := by
  have h := checked m now reading
  generalize m.check now reading = after at h
  cases h with
  | failed e => rfl
  | unchanged same => exact same.symm
  | changed level_eq other => exact level_eq.symm

/-- A check calls the handlers if the level changes and is not normal
then. -/
theorem check_handled? : (m.check now reading).2.handled? =
    if PressureLevel.IsTold (m.level, m.limits.levelAfter m.level reading)
      then some (m.limits.levelAfter m.level reading) else none := by
  have h := checked m now reading
  generalize m.check now reading = after at h
  cases h with
  | failed e => simp [Finding.handled?, PressureLimits.levelAfter, PressureLevel.IsTold]
  | unchanged same =>
    simp [Finding.handled?, PressureLimits.levelAfter, PressureLevel.IsTold, same]
  | @changed usage level level_eq other reclaims reclaims_eq =>
    have hafter : m.limits.levelAfter m.level (.ok usage) = level := level_eq
    rw [hafter]
    simp only [Finding.handled?, PressureLevel.IsTold, ne_eq, Ne.symm other, not_false_eq_true,
      true_and, ite_not]

/-- **The calls of a check**, by the levels before and after it. -/
theorem check_calls (handlers : List η) : (m.check now reading).2.calls handlers =
    PressureLevel.madeCalls handlers (m.level, m.limits.levelAfter m.level reading) := by
  rw [Finding.calls, check_handled?, PressureLevel.madeCalls]
  split
  · next hnone => rw [if_neg fun h => by simp [h] at hnone]
  · next level hsome =>
    obtain ⟨htold, rfl⟩ : _ ∧ _ = level := by simpa using hsome
    rw [if_pos htold]

/-! ## Every check -/

/-- **The calls of a history of checks**, by the levels that its readings
go through. -/
theorem findings_calls (handlers : List η) (readings : List (Nat × Except Error MemoryUsage)) :
    (m.findings readings).map (·.calls handlers) =
      (m.limits.levels m.level (readings.map (·.2))).map (PressureLevel.madeCalls handlers) := by
  induction readings generalizing m with
  | nil => rfl
  | cons r later ih =>
    simp only [findings, PressureLimits.levels, List.map_cons, check_calls, ih, check_limits,
      check_level]

end PressureMonitor

/-! ## The service -/

namespace Service

variable {α : Type} {host : Host} {s : Service α} {now : Nat} {reading : Except Error MemoryUsage}
  {f : PressureMonitor.Finding}

theorem follow_monitor : (s.follow host now f).monitor = s.monitor := by
  unfold follow
  cases f.handled? <;> cases f.reclaims <;> rfl

theorem follow_cache :
    (s.follow host now f).cache = if f.handled?.isSome then s.cache.clear else s.cache := by
  unfold follow
  cases f.handled? <;> cases f.reclaims <;> rfl

theorem checkMemory_level : (s.checkMemory host now reading).monitor.level =
    s.monitor.limits.levelAfter s.monitor.level reading := by
  rw [checkMemory, follow_monitor, ← PressureMonitor.check_level]

/-- **The service gives up its cache** on a check that it is told of, and
on no other. -/
theorem checkMemory_cache : (s.checkMemory host now reading).cache =
    if PressureLevel.IsTold (s.monitor.level, s.monitor.limits.levelAfter s.monitor.level reading)
      then s.cache.clear else s.cache := by
  rw [checkMemory, follow_cache, PressureMonitor.check_handled?]
  split <;> rfl

end Service

/-! ## When the calls are due -/

/-- **The handlers are called when they should be exactly if the level
never falls from critical to elevated.** On every check of every history,
each handler is called once, in order and with the new level, if the
pressure rises or falls that way, and none is called otherwise; so the
calls are the due ones, check by check, unless there are handlers and such
a fall. A service takes the level of each reading, and gives up its cache on
the same checks. -/
theorem PressureMonitor.handlers_called_iff {η : Type} (m : PressureMonitor) (handlers : List η)
    (readings : List (Nat × Except Error MemoryUsage)) :
    let fall := (PressureLevel.critical, PressureLevel.elevated)
    let levels := m.limits.levels m.level (readings.map (·.2))
    let calls := (m.findings readings).map (·.calls handlers)
    calls = levels.map (fun l =>
        if PressureLevel.Rises l ∨ l = fall then handlers.map fun h => (h, l.2) else [])
      ∧ (calls = levels.map (PressureLevel.dueCalls handlers) ↔ handlers = [] ∨ fall ∉ levels)
      ∧ ∀ (α : Type) (s : Service α) (host : Host) (now : Nat)
          (reading : Except Error MemoryUsage),
        let after := s.monitor.limits.levelAfter s.monitor.level reading
        (s.checkMemory host now reading).monitor.level = after
          ∧ (s.checkMemory host now reading).cache =
            if PressureLevel.Rises (s.monitor.level, after) ∨ (s.monitor.level, after) = fall
              then s.cache.clear else s.cache := by
  intro fall levels calls
  have hcalls : calls = levels.map (PressureLevel.madeCalls handlers) :=
    findings_calls handlers readings
  refine ⟨?_, ?_, ?_⟩
  · rw [hcalls]
    exact List.map_congr_left fun l _ => by
      simp only [PressureLevel.madeCalls, PressureLevel.isTold_iff, fall]
  · rw [hcalls, List.map_inj_left]
    by_cases hhandlers : handlers = []
    · simp [hhandlers, PressureLevel.madeCalls, PressureLevel.dueCalls]
    · simp only [PressureLevel.madeCalls_eq_dueCalls_iff hhandlers, hhandlers, false_or]
      constructor
      · intro hnot hfall
        exact hnot fall hfall rfl
      · rintro hnot l hl rfl
        exact hnot hl
  · intro α s host now reading after
    refine ⟨Service.checkMemory_level, ?_⟩
    rw [Service.checkMemory_cache]
    simp only [PressureLevel.isTold_iff, after, fall]

/-- **The handlers hear of a fall.** The use goes from 95 to 75 per cent,
and the handler that was called with the critical level is called with the
elevated one, which it should not be. -/
theorem PressureMonitor.handlers_hear_of_fall :
    let m := PressureMonitor.new {} false
    let readings : List (Nat × Except Error MemoryUsage) :=
      [(0, .ok ⟨100, 5⟩), (1, .ok ⟨100, 25⟩)]
    let levels := m.limits.levels m.level (readings.map (·.2))
    let calls := (m.findings readings).map (·.calls ["listener"])
    levels = [(.normal, .critical), (.critical, .elevated)]
      ∧ calls = [[("listener", .critical)], [("listener", .elevated)]]
      ∧ levels.map (PressureLevel.dueCalls ["listener"]) = [[("listener", .critical)], []] := by
  decide +kernel

end CapabilityBroker
