import CapabilityBroker.Time.Timeline
/-!
# Two timelines in step

Two timelines go in step if a relation between their states holds of what
their tasks do, and related states have as many tasks, the same timers and
the same notion of being finished (`InStep`). Then they come to the same
instants, and their states stay related (`InStep.run`).
-/

namespace CapabilityBroker

namespace Timeline

variable {σ τ : Type}

/-- **Two timelines go in step**, as far as a relation of their states can
tell. -/
structure InStep (t : Timeline σ) (u : Timeline τ) (related : σ → τ → Prop) : Prop where
  tasks_eq {s : σ} {s' : τ} : related s s' → u.tasks s' = t.tasks s
  proceed {s : σ} {s' : τ} (now task : Nat) : related s s' →
    Option.Rel related (t.proceed now task s) (u.proceed now task s')
  timers_eq {s : σ} {s' : τ} : related s s' → u.timers s' = t.timers s
  finished_eq {s : σ} {s' : τ} (now : Nat) : related s s' → u.finished now s' = t.finished now s

namespace InStep

variable {t : Timeline σ} {u : Timeline τ} {related : σ → τ → Prop} {s : σ} {s' : τ}

theorem turn (h : InStep t u related) (now task bound : Nat) (hs : related s s') :
    related (t.turn now task bound s).1 (u.turn now task bound s').1 ∧
      (u.turn now task bound s').2 = (t.turn now task bound s).2 := by
  induction bound generalizing s s' with
  | zero => exact ⟨hs, rfl⟩
  | succ bound ih =>
    have hproceed := h.proceed now task hs
    rw [Timeline.turn, Timeline.turn]
    cases ht : t.proceed now task s <;> cases hu : u.proceed now task s' <;>
      rw [ht, hu] at hproceed
    · exact ⟨hs, rfl⟩
    · cases hproceed
    · cases hproceed
    · cases hproceed with
      | some hnext => exact ⟨(ih hnext).1, rfl⟩

theorem pass (h : InStep t u related) (steps now left task : Nat) (hs : related s s') :
    related (t.pass steps now left task s).1 (u.pass steps now left task s').1 ∧
      (u.pass steps now left task s').2 = (t.pass steps now left task s).2 := by
  induction left generalizing task s s' with
  | zero => exact ⟨hs, rfl⟩
  | succ left ih =>
    rw [Timeline.pass, Timeline.pass, h.finished_eq now hs]
    split
    · exact ⟨hs, rfl⟩
    · obtain ⟨hturn, hmoved⟩ := h.turn now task steps hs
      obtain ⟨hpass, hothers⟩ := ih (task + 1) hturn
      exact ⟨hpass, by simp only [hmoved, hothers]⟩

theorem settle (h : InStep t u related) (steps now bound : Nat) (hs : related s s') :
    related (t.settle steps now bound s) (u.settle steps now bound s') := by
  induction bound generalizing s s' with
  | zero => exact hs
  | succ bound ih =>
    obtain ⟨hpass, hmoved⟩ := h.pass steps now (t.tasks s) 0 hs
    rw [Timeline.settle, Timeline.settle, h.tasks_eq hs]
    cases ht : t.pass steps now (t.tasks s) 0 s with
    | mk next moved =>
      cases hu : u.pass steps now (t.tasks s) 0 s' with
      | mk next' moved' =>
        rw [ht, hu] at hpass hmoved
        obtain rfl : moved' = moved := hmoved
        cases moved' with
        | true => exact ih hpass
        | false => exact hpass

theorem nextTimer?_eq (h : InStep t u related) (now : Nat) (hs : related s s') :
    u.nextTimer? now s' = t.nextTimer? now s := by
  rw [nextTimer?, nextTimer?, h.timers_eq hs]

/-- **Timelines in step** end at the same instant, in related states. -/
theorem run (h : InStep t u related) (steps instants now : Nat) (hs : related s s') :
    (u.run steps instants now s').1 = (t.run steps instants now s).1 ∧
      related (t.run steps instants now s).2 (u.run steps instants now s').2 := by
  induction instants generalizing now s s' with
  | zero => exact ⟨rfl, hs⟩
  | succ instants ih =>
    have hsettled := h.settle steps now steps hs
    simp only [Timeline.run, h.finished_eq now hs, h.finished_eq now hsettled,
      h.nextTimer?_eq now hsettled]
    split
    · exact ⟨rfl, hs⟩
    · split
      · exact ⟨rfl, hsettled⟩
      · cases t.nextTimer? now (t.settle steps now steps s) with
        | none => exact ⟨rfl, hsettled⟩
        | some next => exact ih next hsettled

end InStep

end Timeline

end CapabilityBroker
