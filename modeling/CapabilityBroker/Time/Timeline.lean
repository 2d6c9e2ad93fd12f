import CapabilityBroker.Time.Duration
/-!
# Timelines

How several tasks go on together on one clock. At each instant every task
that can proceed does, in the order of the tasks and over and over, until
none can. Then nothing is left but to wait, and the clock moves to the
earliest instant for which a timer is set. Work itself takes no time.
-/

namespace CapabilityBroker

/-- A state with tasks that go on by themselves. -/
structure Timeline (σ : Type) where
  /-- The number of tasks. -/
  tasks : σ → Nat
  /-- What a task does at an instant; nothing if it cannot proceed. -/
  proceed : (now task : Nat) → σ → Option σ
  /-- The instants for which timers are set. -/
  timers : σ → List Nat
  /-- Whether everything that is waited for has happened. -/
  finished : (now : Nat) → σ → Bool

namespace Timeline

variable {σ : Type} (t : Timeline σ)

/-- A task proceeds for as long as it can, and it is told whether it did
at all. -/
def turn (now task : Nat) : Nat → σ → σ × Bool
  | 0, s => (s, false)
  | bound + 1, s =>
    match t.proceed now task s with
    | none => (s, false)
    | some s => ((turn now task bound s).1, true)

/-- So many tasks, from the given one on, have their turns, unless
everything that is waited for has happened, and it is told whether one of
them proceeded. -/
def pass (steps now : Nat) : Nat → Nat → σ → σ × Bool
  | 0, _, s => (s, false)
  | left + 1, task, s =>
    if t.finished now s then (s, false)
    else
      let (s, moved) := t.turn now task steps s
      let (s, others) := pass steps now left (task + 1) s
      (s, moved || others)

/-- All tasks proceed until none can, or everything that is waited for has
happened. -/
def settle (steps now : Nat) : Nat → σ → σ
  | 0, s => s
  | bound + 1, s =>
    match t.pass steps now (t.tasks s) 0 s with
    | (s, true) => settle steps now bound s
    | (s, false) => s

/-- The earliest instant after the present for which a timer is set. -/
def nextTimer? (now : Nat) (s : σ) : Option Nat :=
  ((t.timers s).filter (now < ·)).min?

/-- Goes on until everything that is waited for has happened, or nothing
more can happen, and tells the instant of it. The bounds limit the steps
at one instant and the number of instants. -/
def run (steps : Nat) : Nat → Nat → σ → Nat × σ
  | 0, now, s => (now, s)
  | instants + 1, now, s =>
    if t.finished now s then (now, s)
    else
      let s := t.settle steps now steps s
      if t.finished now s then (now, s)
      else match t.nextTimer? now s with
        | none => (now, s)
        | some next => run steps instants next s

end Timeline

end CapabilityBroker
