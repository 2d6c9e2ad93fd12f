import CapabilityBroker.Lock.Session
import CapabilityBroker.Proofs.Lock.Ownership
/-!
# Work under a lock

A job of a session asks for the lock, works while it is inside, and goes
away when its work returns, fails, panics or is abandoned. `Housed` ties
what the jobs do to where the lock has them, and every turn of a job keeps
it, so a session never gets a lock into a state that its own events do
not lead to.
-/

namespace CapabilityBroker

namespace Lock

namespace Session

variable {α : Type}

/-- Where a job stands that is in a phase. -/
def Phase.place : Phase α → Place
  | .resting _ => .outside
  | .waiting _ => .inLine
  | .working .. => .inside
  | .over .. => .outside

/-- The session after several jobs had their turns, each at an instant. A
job that cannot proceed lets its turn pass. -/
def play (s : Session α) (turns : List (Nat × Nat)) : Session α :=
  turns.foldl (fun s t => (proceed t.1 t.2 s).getD s) s

/-- The jobs are where the lock has them. -/
structure Housed (s : Session α) : Prop where
  sound : s.lock.Sound
  place_eq (i : Nat) : s.lock.place i = ((s.jobs[i]?).map (·.2.place)).getD .outside

namespace Housed

variable {s : Session α} {i : Nat} {job : Job α} {p : Phase α}

/-- A session begins with every job outside. -/
theorem new (jobs : List (Job α)) : (Session.new jobs).Housed where
  sound := Sound.free
  place_eq i := by
    simp only [Session.new, List.getElem?_map, Option.map_map]
    cases jobs[i]? <;> rfl

/-- A job that goes over to a phase and the lock that has it there are
together again. -/
theorem setPhase {l : Lock Nat} {journal : List JournalLine} {q : Phase α} (h : s.Housed)
    (hi : s.jobs[i]? = some (job, p)) (hl : l.Sound)
    (hplace : ∀ j, l.place j = if j = i then q.place else s.lock.place j) :
    (Session.setPhase ⟨l, s.jobs, journal⟩ i q).Housed where
  sound := hl
  place_eq j := by
    simp only [Session.setPhase, List.getElem?_modify]
    rw [hplace j]
    by_cases hj : j = i
    · simp [hj, hi]
    · have hne : ¬ i = j := fun h' => hj h'.symm
      simp [hj, hne, h.place_eq j]

/-- A job goes away, and is over. -/
theorem leave {ending : Ending α} {now : Nat} {journal : List JournalLine} (h : s.Housed)
    (hi : s.jobs[i]? = some (job, p)) :
    (Session.leave { s with journal } now i ending).Housed :=
  h.setPhase hi (h.sound.leave i) fun _ => h.sound.place_leave

/-- **A turn of a job keeps the jobs where the lock has them.** -/
theorem proceed {s' : Session α} {now : Nat} (h : s.Housed)
    (hs : Session.proceed now i s = some s') : s'.Housed := by
  unfold Session.proceed at hs
  split at hs
  · cases hs
  · next job wakeAt hi =>
    -- it asks for the lock, which has nothing of it yet
    split at hs
    · cases hs
    · have hout : s.lock.place i = .outside := by rw [h.place_eq, hi]; rfl
      have hl := h.sound.enter (stake?_eq_none_iff.mpr hout) now job.timeout
      have hplace := fun j => place_enter (l := s.lock) (i := i) (j := j) now job.timeout
      generalize s.lock.enter now job.timeout i = entered at hs hl hplace
      obtain ⟨l, acquired⟩ := entered
      obtain rfl := Option.some.inj hs
      cases acquired with
      | true => exact h.setPhase hi hl hplace
      | false => exact h.setPhase hi hl hplace
  · next job abandonAt hi =>
    rcases h.sound.look_cases now i with ⟨limit, hst, hl⟩ | ⟨limit, -, -, hl⟩ | ⟨look, hl, hlook⟩
    · simp only [hl] at hs
      obtain rfl := Option.some.inj hs
      exact h.setPhase hi (h.sound.take ⟨_, hst, rfl⟩) fun _ => place_setStake
    · simp only [hl] at hs
      obtain rfl := Option.some.inj hs
      exact h.setPhase hi (h.sound.leave i) fun _ => h.sound.place_leave
    · rw [hl] at hs
      split at hs
      · simp_all
      · simp_all
      · split at hs
        · obtain rfl := Option.some.inj hs
          exact h.leave hi
        · cases hs
  · next job readyAt abandonAt hi =>
    split at hs
    · split at hs
      · obtain rfl := Option.some.inj hs
        exact h.leave hi
      · obtain rfl := Option.some.inj hs
        exact h.leave hi
    · split at hs
      · obtain rfl := Option.some.inj hs
        exact h.leave hi
      · cases hs
  · cases hs

/-- **And so does a whole play of them.** -/
theorem play (h : s.Housed) (turns : List (Nat × Nat)) : (s.play turns).Housed := by
  induction turns generalizing s with
  | nil => exact h
  | cons t turns ih =>
    have hturn : ((Session.proceed t.1 t.2 s).getD s).Housed := by
      cases hs : Session.proceed t.1 t.2 s with
      | none => exact h
      | some s' => exact h.proceed hs
    exact ih hturn

/-- **Once every job is outside, the lock is free.** -/
theorem free_of_over (h : s.Housed) (hover : ∀ j ∈ s.jobs, j.2.place = .outside) :
    s.lock.held = false ∧ s.lock.queue = [] := by
  refine h.sound.free_of_outside fun i => ?_
  rw [h.place_eq]
  cases hi : s.jobs[i]? with
  | none => rfl
  | some j => exact hover j (List.mem_of_getElem? hi)

end Housed

end Session

/-- **A lock is exclusive in every course of events**: whatever its parties
do and in whichever order, and in particular when they are jobs whose work
returns, fails, panics or is abandoned. After the last of such jobs it is
free. -/
theorem exclusive_in_every_course {ι : Type} [DecidableEq ι] {α : Type} :
    (∀ events : List (Nat × Event ι), (free.run events).Exclusive) ∧
    ∀ (jobs : List (Job α)) (turns : List (Nat × Nat)),
      ((Session.new jobs).play turns).lock.Exclusive ∧
      ((∀ j ∈ ((Session.new jobs).play turns).jobs, j.2.place = .outside) →
        ((Session.new jobs).play turns).lock.held = false ∧
        ((Session.new jobs).play turns).lock.queue = []) := by
  refine ⟨fun events => (Sound.free.run events).exclusive, fun jobs turns => ?_⟩
  have h := (Session.Housed.new jobs).play turns
  exact ⟨h.sound.exclusive, h.free_of_over⟩

end Lock

end CapabilityBroker
