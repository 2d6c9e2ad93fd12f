import CapabilityBroker.Time.Duration
/-!
# The lock

Mutual exclusion with a queue. A party that asks for a free lock has it at
once; otherwise it waits in line, for as long as it likes or up to a
deadline. A lock that is given back goes straight to the first in line and
is not free in between, so nobody who comes later can be faster.

A party that has been handed the lock learns of it when it next looks.
Until then it holds a grant, and if it goes away instead, the lock passes
on. Every way of going away (giving the lock back, giving up the wait,
running out of time) therefore leaves the lock with exactly one owner or
free.

Parties are told apart by their names, of any type.
-/

namespace CapabilityBroker

/-- The limit of a wait: its length and the instant it is over. -/
structure WaitLimit where
  after : Nat
  deadline : Nat
  deriving DecidableEq, Repr

/-- The limit of a wait of a given length that begins now. Its end is
moved up to where timers ring. -/
def WaitLimit.of (now after : Nat) : WaitLimit := ⟨after, Instant.deadline now after⟩

/-- What a party has of a lock. -/
inductive Stake where
  /-- A place in line. -/
  | waiting (limit : Option WaitLimit)
  /-- The lock, of which it does not know yet. -/
  | granted (limit : Option WaitLimit)
  /-- The lock. -/
  | holding
  deriving DecidableEq, Repr

/-- A lock: whether it is taken, the parties in line, and what each party
has. -/
structure Lock (ι : Type) where
  held : Bool
  queue : List ι
  stakes : List (ι × Stake)
  deriving Repr

namespace Lock

variable {ι : Type} [DecidableEq ι]

/-- A free lock. -/
def free : Lock ι := ⟨false, [], []⟩

/-- What a party has. -/
def stake? (l : Lock ι) (i : ι) : Option Stake := (l.stakes.find? (·.1 = i)).map (·.2)

/-- A party gets a stake in the place of the one it has. -/
def setStake (l : Lock ι) (i : ι) (s : Stake) : Lock ι :=
  { l with stakes := (i, s) :: l.stakes.filter (·.1 ≠ i) }

/-- A party has nothing more. -/
def dropStake (l : Lock ι) (i : ι) : Lock ι :=
  { l with stakes := l.stakes.filter (·.1 ≠ i) }

/-- The limit of the wait of a party that is still waiting. -/
def waitOf? (l : Lock ι) (i : ι) : Option (Option WaitLimit) :=
  match l.stake? i with
  | some (.waiting limit) => some limit
  | _ => none

/-- The lock goes to the first in line that is still waiting; if nobody
is, it is free. -/
def handOver (l : Lock ι) : List ι → Lock ι
  | [] => { l with held := false, queue := [] }
  | i :: rest =>
    match l.waitOf? i with
    | some limit => { l with queue := rest }.setStake i (.granted limit)
    | none => handOver l rest

/-- The lock is given back. -/
def release (l : Lock ι) : Lock ι := l.handOver l.queue

/-- A party asks for the lock, and is told whether it has it at once. -/
def enter (l : Lock ι) (now : Nat) (timeout : Option Nat) (i : ι) : Lock ι × Bool :=
  if l.held then
    ({ l with queue := l.queue ++ [i] }.setStake i (.waiting (timeout.map (WaitLimit.of now))),
      false)
  else ({ l with held := true }.setStake i .holding, true)

/-- A party that is in line leaves it, and is told whether it was. -/
def withdraw (l : Lock ι) (i : ι) : Lock ι × Bool :=
  ({ l with queue := l.queue.erase i }, l.queue.contains i)

/-- What a party learns by looking. -/
inductive Look where
  /-- It has nothing to do with the lock. -/
  | absent
  /-- It has the lock, and knew it. -/
  | held
  /-- It has the lock from now on. -/
  | acquired
  /-- It still waits. -/
  | pending
  /-- It has waited for as long as it may. -/
  | timedOut (after : Nat)
  deriving DecidableEq, Repr

/-- A party looks how it stands. First it looks whether it has been handed
the lock, so a grant is good even after the deadline; then whether the
deadline has come, and leaves the line if so. -/
def look (l : Lock ι) (now : Nat) (i : ι) : Lock ι × Look :=
  match l.stake? i with
  | none => (l, .absent)
  | some .holding => (l, .held)
  | some (.granted _) => (l.setStake i .holding, .acquired)
  | some (.waiting none) => (l, .pending)
  | some (.waiting (some limit)) =>
    if now < limit.deadline then (l, .pending)
    else match l.withdraw i with
      | (l, true) => (l.dropStake i, .timedOut limit.after)
      | (l, false) => (l.setStake i .holding, .acquired)

/-- A party goes away, whatever it has: it gives the lock back, passes a
grant on, or leaves the line. -/
def leave (l : Lock ι) (i : ι) : Lock ι :=
  match l.stake? i with
  | none => l
  | some .holding => (l.dropStake i).release
  | some _ =>
    match l.withdraw i with
    | (l, true) => l.dropStake i
    | (l, false) => (l.dropStake i).release

/-- The parties in line. -/
def waiting (l : Lock ι) : Nat := l.queue.length

end Lock

end CapabilityBroker
