import CapabilityBroker.Lock.Basic
/-!
# Rosters

A lock whose parties go by names. Under each name there is one claim at
most, with a ticket that stands for it at the lock. Who asks again under a
name that has a claim already is a party of its own: it gets in line
first, and only then the earlier claim is given up.
-/

namespace CapabilityBroker

/-- A lock, the tickets of the names that have claims, and how many tickets
have been given out. -/
structure Lock.Roster (ν : Type) where
  lock : Lock Nat
  claims : List (ν × Nat)
  issued : Nat
  deriving Repr

namespace Lock.Roster

variable {ν : Type} [DecidableEq ν]

/-- A free lock to which nobody has a claim. -/
def empty : Roster ν := ⟨.free, [], 0⟩

/-- The ticket of a name. -/
def ticket? (r : Roster ν) (name : ν) : Option Nat := (r.claims.find? (·.1 = name)).map (·.2)

/-- What the claim under a name amounts to. -/
def stake? (r : Roster ν) (name : ν) : Option Stake := do r.lock.stake? (← r.ticket? name)

/-- The claim under a name is given up, if there is one: a lock that is
held or granted passes on, and a place in line is left. -/
def leave (r : Roster ν) (name : ν) : Roster ν :=
  match r.ticket? name with
  | none => r
  | some ticket =>
    { r with lock := r.lock.leave ticket, claims := r.claims.filter (·.1 ≠ name) }

/-- A claim comes under a name, in the place of the one that is there. -/
def register (r : Roster ν) (name : ν) (ticket : Nat) : Roster ν :=
  let r := r.leave name
  { r with claims := (name, ticket) :: r.claims }

/-- The lock is asked for under a name, and it is told how that stands. Who
may not wait at all has no claim, and one that the name has already
remains. -/
def acquire (r : Roster ν) (now : Nat) (timeout : Option Nat) (name : ν) : Roster ν × Look :=
  let ticket := r.issued
  let (lock, acquired) := r.lock.enter now timeout ticket
  let r := { r with lock, issued := ticket + 1 }
  if acquired then (r.register name ticket, .acquired)
  else
    match r.lock.look now ticket with
    | (lock, .timedOut after) => ({ r with lock }, .timedOut after)
    | (lock, look) => ({ r with lock }.register name ticket, look)

/-- The party of a name looks how it stands. -/
def look (r : Roster ν) (now : Nat) (name : ν) : Roster ν × Look :=
  match r.ticket? name with
  | none => (r, .absent)
  | some ticket =>
    let (lock, look) := r.lock.look now ticket
    ({ r with lock }, look)

/-- The lock passes to one's own later claim. -/
example : ((((empty : Roster Nat).acquire 0 none 7).1.acquire 0 none 7).1.look 0 7).2 =
    .acquired := by decide

end Lock.Roster

end CapabilityBroker
