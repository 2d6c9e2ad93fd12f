import CapabilityBroker.Lock.Basic
import CapabilityBroker.Proofs.Keyed
/-!
# Histories of a lock

Everything that can happen to a lock, as events, and the state after a
history of them. A party asks once, looks as often as it likes, and goes
away once; when it does so, and in which order the parties do, is up to
the surroundings.

The proofs about histories see the stakes through `stake?` alone. What
each operation does to that view is said here, and so is the one thing
that happens when a lock is given back (`release_nil`, `release_cons`).
-/

namespace CapabilityBroker

namespace Lock

/-- What happens to a lock. -/
inductive Event (ι : Type) where
  /-- A party asks for the lock, and waits for so long at most. -/
  | ask (party : ι) (timeout : Option Nat)
  /-- A party that has asked looks how it stands. -/
  | look (party : ι)
  /-- A party goes away. It gives the lock back, whatever came of its work,
  or it gives up a wait or a grant. -/
  | leave (party : ι)

variable {ι : Type} [DecidableEq ι]

/-- The state after an event. Whoever has a stake already is not a new
party, and cannot ask again. -/
def step (now : Nat) (l : Lock ι) : Event ι → Lock ι
  | .ask i timeout => if (l.stake? i).isSome then l else (l.enter now timeout i).1
  | .look i => (l.look now i).1
  | .leave i => l.leave i

/-- The state after a history of events, each with its instant. -/
def run (l : Lock ι) (events : List (Nat × Event ι)) : Lock ι :=
  events.foldl (fun l e => l.step e.1 e.2) l

/-! ## Stakes -/

variable {l : Lock ι} {i j : ι} {s : Stake}

/-- A new stake is the stake of its party, and no other party's. -/
theorem stake?_setStake : (l.setStake i s).stake? j = if j = i then some s else l.stake? j := by
  unfold stake? setStake
  rw [Keyed.find?_cons_filter_ne]
  split <;> rfl

/-- A stake that is dropped is gone, and no other is. -/
theorem stake?_dropStake : (l.dropStake i).stake? j = if j = i then none else l.stake? j := by
  unfold stake? dropStake
  rw [Keyed.find?_filter_ne]
  split <;> rfl

@[simp] theorem stake?_setStake_self : (l.setStake i s).stake? i = some s := by
  simp [stake?_setStake]

@[simp] theorem stake?_dropStake_self : (l.dropStake i).stake? i = none := by
  simp [stake?_dropStake]

theorem stake?_setStake_of_ne (h : j ≠ i) : (l.setStake i s).stake? j = l.stake? j := by
  simp [stake?_setStake, h]

theorem stake?_dropStake_of_ne (h : j ≠ i) : (l.dropStake i).stake? j = l.stake? j := by
  simp [stake?_dropStake, h]

@[simp] theorem setStake_held : (l.setStake i s).held = l.held := rfl
@[simp] theorem setStake_queue : (l.setStake i s).queue = l.queue := rfl
@[simp] theorem dropStake_held : (l.dropStake i).held = l.held := rfl
@[simp] theorem dropStake_queue : (l.dropStake i).queue = l.queue := rfl

/-- Nobody has anything of a lock that is free from the start. -/
@[simp] theorem stake?_free : (free : Lock ι).stake? i = none := rfl

/-- A party waits exactly if its stake says so. -/
theorem waitOf?_eq_some_iff {limit : Option WaitLimit} :
    l.waitOf? i = some limit ↔ l.stake? i = some (.waiting limit) := by
  unfold waitOf?
  split
  · next h => simp [h]
  · next h =>
    constructor
    · simp
    · intro h'
      exact absurd h' (h limit)

/-! ## Asking, looking and giving back -/

/-- Who asks for a lock that is taken stands last in line. -/
theorem enter_of_held (h : l.held = true) (now : Nat) (timeout : Option Nat) :
    l.enter now timeout i = ({ l with queue := l.queue ++ [i] }.setStake i
      (.waiting (timeout.map (WaitLimit.of now))), false) := by
  rw [enter, if_pos h]

/-- Who asks for a free lock has it at once. -/
theorem enter_of_free (h : l.held = false) (now : Nat) (timeout : Option Nat) :
    l.enter now timeout i = ({ l with held := true }.setStake i .holding, true) := by
  rw [enter, if_neg (by simp [h])]

/-- A party whose time is over has left the line by looking. -/
theorem look_of_timedOut {now after : Nat} (h : (l.look now i).2 = .timedOut after) :
    (l.look now i).1 = l.leave i := by
  unfold look at h ⊢
  split at h
  · cases h
  · cases h
  · cases h
  · cases h
  · next limit hs =>
    split at h
    · cases h
    · next hnow =>
      rw [if_neg hnow]
      split at h
      · next hq => simp only [leave, hs, hq]
      · cases h

/-- A lock for which nobody waits is free once it is given back. -/
theorem release_nil (h : l.queue = []) : l.release = { l with held := false } := by
  rw [release, h, handOver, ← h]

/-- Otherwise it goes to the first in line, who waits. -/
theorem release_cons {rest : List ι} {limit : Option WaitLimit} (h : l.queue = i :: rest)
    (hi : l.stake? i = some (.waiting limit)) :
    l.release = { l with queue := rest }.setStake i (.granted limit) := by
  rw [release, h, handOver, waitOf?_eq_some_iff.mpr hi]

end Lock

end CapabilityBroker
