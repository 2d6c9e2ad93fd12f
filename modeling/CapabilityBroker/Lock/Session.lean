import CapabilityBroker.Lock.Basic
import CapabilityBroker.Time.Timeline
import CapabilityBroker.Work
/-!
# Sessions

Several jobs that share one lock on one clock. Each job asks for the lock
at its time, works while it has it, and gives it back however the work
ends. A job may be abandoned, in line or at work, and then it does not
reach its end.
-/

namespace CapabilityBroker

namespace Lock

/-- A job: the time before it begins, how long it may take before it is
abandoned, how long it waits for the lock, and its work. -/
structure Job (α : Type) where
  rest : Nat
  abandonAfter : Option Nat
  timeout : Option Nat
  work : Work α

namespace Session

variable {α : Type}

/-- How a job ends. -/
inductive Ending (α : Type) where
  | returned (result : Except Error α)
  | abandoned
  | panicked

/-- What a job is doing. -/
inductive Phase (α : Type) where
  | resting (wakeAt : Nat)
  | waiting (abandonAt : Option Nat)
  | working (readyAt abandonAt : Option Nat)
  /-- It is over, since the given instant; the lock was then taken or not,
  and so many were in line. -/
  | over (ending : Ending α) (time : Nat) (locked : Bool) (waiting : Nat)

/-- A line of the journal: a job begins its work, or ends it. -/
structure JournalLine where
  job : Nat
  isEntry : Bool
  time : Nat

end Session

/-- A session: the lock, the jobs and what they are doing, and the
journal. -/
structure Session (α : Type) where
  lock : Lock Nat
  jobs : List (Job α × Session.Phase α)
  journal : List Session.JournalLine

namespace Session

variable {α : Type}

/-- A session of jobs that are about to begin. -/
def new (jobs : List (Job α)) : Session α where
  lock := .free
  jobs := jobs.map fun j => (j, .resting (Instant.after 0 j.rest))
  journal := []

/-- A job goes over to another phase. -/
def setPhase (s : Session α) (i : Nat) (p : Phase α) : Session α :=
  { s with jobs := s.jobs.modify i fun j => (j.1, p) }

/-- A job is over. -/
def finish (s : Session α) (now i : Nat) (ending : Ending α) : Session α :=
  s.setPhase i (.over ending now s.lock.held s.lock.waiting)

/-- A job leaves the lock, and is over. -/
def leave (s : Session α) (now i : Nat) (ending : Ending α) : Session α :=
  { s with lock := s.lock.leave i }.finish now i ending

/-- A job begins its work. -/
def work (s : Session α) (now i : Nat) (w : Work α) (abandonAt : Option Nat) : Session α :=
  { s with journal := s.journal ++ [JournalLine.mk i true now] }.setPhase i
    (.working (w.readyAt now) abandonAt)

/-- What a job does at an instant. Work that is done counts even if the
job is to be abandoned at the same instant. -/
def proceed (now i : Nat) (s : Session α) : Option (Session α) :=
  match s.jobs[i]? with
  | none => none
  | some (job, .resting wakeAt) =>
    if now < wakeAt then none
    else
      let abandonAt := job.abandonAfter.map (Instant.deadline now)
      let (lock, acquired) := s.lock.enter now job.timeout i
      let s := { s with lock }
      some (if acquired then s.work now i job.work abandonAt else s.setPhase i (.waiting abandonAt))
  | some (job, .waiting abandonAt) =>
    match s.lock.look now i with
    | (lock, .acquired) => some ({ s with lock }.work now i job.work abandonAt)
    | (lock, .timedOut after) =>
      some ({ s with lock }.finish now i (.returned (.error (.lockTimeout after))))
    | _ => if Instant.hasCome now abandonAt then some (s.leave now i .abandoned) else none
  | some (job, .working readyAt abandonAt) =>
    if Instant.hasCome now readyAt then
      match job.work.reply with
      | .done result =>
        let left := { s with journal := s.journal ++ [JournalLine.mk i false now] }
        some (left.leave now i (.returned result))
      | .panicked => some (s.leave now i .panicked)
    else if Instant.hasCome now abandonAt then some (s.leave now i .abandoned)
    else none
  | some (_, .over ..) => none

/-- The instants at which a job may have something to do. -/
def timersOf (lock : Lock Nat) (i : Nat) : Phase α → List Nat
  | .resting wakeAt => [wakeAt]
  | .waiting abandonAt =>
    abandonAt.toList ++ ((lock.waitOf? i).join.map (·.deadline)).toList
  | .working readyAt abandonAt => readyAt.toList ++ abandonAt.toList
  | .over .. => []

/-- The timeline of a session. -/
def timeline : Timeline (Session α) where
  tasks s := s.jobs.length
  proceed := proceed
  timers s := s.jobs.zipIdx.flatMap fun (j, i) => timersOf s.lock i j.2
  finished _ s := s.jobs.all fun j => match j.2 with
    | .over .. => true
    | _ => false

/-- The most steps of a job, and the most timers it sets. -/
def stepsPerJob : Nat := 5

/-- The whole course of a session. -/
def run (s : Session α) : Nat × Session α :=
  let bound := stepsPerJob * s.jobs.length + 1
  timeline.run bound bound 0 s

end Session

end Lock

end CapabilityBroker
