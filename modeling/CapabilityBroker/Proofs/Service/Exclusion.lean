import CapabilityBroker.Proofs.Lock.Ownership
import CapabilityBroker.Proofs.Service.Steps
/-!
# One call at the resolver

A call asks the resolver while it is inside the lock, and only then.
`Housed` ties the stages of the calls to the places that the lock has them
in; every step keeps it, whatever level of a call it is that ends: an
attempt, its time, the wait for the lock, or the caller's patience. So the
lock lets one call at most be at the resolver, and is free when no call is
on its way.
-/

namespace CapabilityBroker

namespace Service

/-- Where a call stands that is at a stage. -/
def Stage.place : Stage → Lock.Place
  | .waiting _ => .inLine
  | .resolving .. => .inside
  | .pausing _ => .outside

/-- Whether a call is at the resolver. -/
def Stage.isResolving : Stage → Bool
  | .resolving .. => true
  | _ => false

variable {α : Type}

/-- **The calls are where the lock has them.** -/
structure Housed (s : Service α) : Prop where
  sound : s.lock.Sound
  place_eq (id : Nat) : s.lock.place id = ((s.call? id).map (·.stage.place)).getD .outside
  lt_asked {id : Nat} {c : Call} : s.call? id = some c → id < s.asked
  nodup : (s.calls.map (·.1)).Nodup

variable {host : Host} {s t : Service α} {now id : Nat} {c d : Call} {l : Lock Nat}

namespace Housed

/-- Nothing but the lock and the calls matters. -/
theorem of_eq (h : s.Housed) (hlock : t.lock = s.lock) (hcalls : t.calls = s.calls)
    (hasked : s.asked ≤ t.asked) : t.Housed := by
  have hcall : ∀ id, t.call? id = s.call? id := fun id => by rw [call?, hcalls, call?]
  exact {
    sound := hlock ▸ h.sound
    place_eq := fun id => by rw [hlock, hcall, h.place_eq]
    lt_asked := fun hc => Nat.lt_of_lt_of_le (h.lt_asked (hcall _ ▸ hc)) hasked
    nodup := hcalls ▸ h.nodup }

/-- A number that is not given yet is that of nobody. -/
theorem outside_of_le (h : s.Housed) (hid : s.asked ≤ id) : s.lock.place id = .outside := by
  rw [h.place_eq]
  cases hc : s.call? id with
  | none => rfl
  | some c => exact absurd (h.lt_asked hc) (Nat.not_lt_of_le hid)

theorem place_of_call (h : s.Housed) (hc : s.call? id = some c) :
    s.lock.place id = c.stage.place := by
  rw [h.place_eq, hc]
  rfl

/-- One call goes over to a stage or ends, and the lock has it where it is
then. -/
theorem change (h : s.Housed) (c? : Option Call) (hl : t.lock.Sound)
    (hasked : t.asked = s.asked) (hid : c?.isSome → id < s.asked)
    (hnodup : (t.calls.map (·.1)).Nodup)
    (hcall : ∀ j, t.call? j = if j = id then c? else s.call? j)
    (hplace : ∀ j, t.lock.place j =
      if j = id then (c?.map (·.stage.place)).getD .outside else s.lock.place j) :
    t.Housed where
  sound := hl
  place_eq j := by
    rw [hcall, hplace]
    split
    · rfl
    · exact h.place_eq j
  lt_asked {j d} hd := by
    rw [hasked]
    rw [hcall] at hd
    split at hd
    · next hj => exact hj ▸ hid (by simp [hd])
    · exact h.lt_asked hd
  nodup := hnodup

theorem setCall (h : s.Housed) (hid : id < s.asked) (hl : l.Sound)
    (hplace : ∀ j, l.place j = if j = id then c.stage.place else s.lock.place j) :
    ({ s with lock := l }.setCall id c).Housed :=
  h.change (some c) hl rfl (fun _ => hid) (Keyed.nodup_cons_filter_ne h.nodup)
    (fun _ => call?_setCall) hplace

theorem dropCall (h : s.Housed) (id : Nat) (hl : l.Sound)
    (hplace : ∀ j, l.place j = if j = id then .outside else s.lock.place j) :
    ({ s with lock := l }.dropCall id).Housed :=
  h.change none hl rfl (fun hsome => nomatch hsome)
    (h.nodup.sublist (List.filter_sublist.map _)) (fun _ => call?_dropCall) hplace

/-! ## The parts of a step -/

/-- A call ends that never came to the lock. -/
theorem finish {result : Except Error CapabilitySet} (h : s.Housed)
    (hout : s.lock.place id = .outside) : (s.finish now id result).Housed := by
  have hdropped := h.dropCall id h.sound fun j => ?_
  · exact hdropped.of_eq rfl rfl (Nat.le_refl _)
  split
  · next hj => rw [hj, hout]
  · rfl

/-- A call ends that leaves the lock. -/
theorem leave (h : s.Housed) (id : Nat) : ((s.leaveLock id).dropCall id).Housed :=
  h.dropCall id (h.sound.leave id) fun _ => h.sound.place_leave

/-- A call leaves the lock for a while. -/
theorem pause {e : Error} {wakeAt : Nat} (h : s.Housed) (hid : id < s.asked) :
    ((s.leaveLock id).pause now id c e wakeAt).Housed :=
  (h.setCall hid (h.sound.leave id) fun _ => h.sound.place_leave).of_eq rfl rfl (Nat.le_refl _)

/-- A call that the lock has inside asks the resolver. -/
theorem invoke {limit : Option WaitLimit} (h : s.Housed) (hid : id < s.asked) (hl : l.Sound)
    (hplace : ∀ j, l.place j = if j = id then .inside else s.lock.place j) :
    ({ s with lock := l }.invoke now id c limit).Housed :=
  (h.setCall (c := { c with stage := .resolving s.invocations now limit }) hid hl hplace).of_eq
    rfl rfl (Nat.le_refl _)

/-- A call that is outside the lock comes to it. -/
theorem beginAttempt (h : s.Housed) (hid : id < s.asked) (hout : s.lock.place id = .outside) :
    (s.beginAttempt now id c).Housed := by
  have hsound := h.sound.enter (Lock.stake?_eq_none_iff.mpr hout) now s.settings.lockTimeout
  have hplace := fun j =>
    Lock.place_enter (l := s.lock) (i := id) (j := j) now s.settings.lockTimeout
  rw [Service.beginAttempt]
  generalize s.lock.enter now s.settings.lockTimeout id = entered at hsound hplace
  obtain ⟨l, acquired⟩ := entered
  cases acquired with
  | true => exact h.invoke hid hsound hplace
  | false => exact h.setCall hid hsound hplace

/-- A call that has been handed the lock finds out. -/
theorem grant {limit : Option WaitLimit} (h : s.Housed) (hc : s.call? id = some c)
    (hlook : (s.lock.look now id).2 = .acquired) :
    ({ s with lock := (s.lock.look now id).1 }.invoke now id c limit).Housed := by
  -- in a sound lock only a grant is answered so: a party that waits is in line
  rcases h.sound.look_cases now id with ⟨_, hs, hl⟩ | ⟨_, _, _, hl⟩ | ⟨look, hl, hmem⟩
  · rw [hl]
    exact h.invoke (h.lt_asked hc) (h.sound.take ⟨_, hs, rfl⟩) fun _ => Lock.place_setStake
  · rw [hl] at hlook
    cases hlook
  · rw [hl] at hlook
    subst hlook
    simp at hmem

/-- A call that begins ends at once, or comes to the lock. -/
theorem begins {r : Request} [Scalar α] (h : s.Housed) (hs : Begins now s r t) : t.Housed := by
  -- its number is new, so the lock knows nothing of it
  have hout := h.outside_of_le (Nat.le_refl s.asked)
  have hasked := Nat.le_succ s.asked
  cases hs with
  | disposed => exact (h.of_eq (t := s.begin now r) rfl rfl hasked).finish hout
  | invalid => exact (h.of_eq (t := s.begin now r) rfl rfl hasked).finish hout
  | limited => exact finish (h.of_eq rfl rfl hasked) hout
  | hit => exact finish (h.of_eq (t := s.arrive now r) rfl rfl hasked) hout
  | refused => exact finish (h.of_eq (t := (s.arrive now r).meetCircuit now) rfl rfl hasked) hout
  | passed =>
    exact beginAttempt (h.of_eq rfl rfl hasked) (Nat.lt_succ_self s.asked) hout

/-- **A step keeps the calls where the lock has them.** -/
theorem advance [Scalar α] {event : Event} (h : s.Housed) (hs : Advance host now s event t) :
    t.Housed := by
  cases hs with
  | began hbegins => exact h.begins hbegins
  | granted hc _ hlook => exact h.grant hc hlook
  | resumed hc hrest _ =>
    exact h.beginAttempt (h.lt_asked hc) (by rw [h.place_of_call hc, hrest]; rfl)
  | paused hc => exact h.pause (h.lt_asked hc)
  -- however a call ends, it leaves the lock
  | failed => exact (h.leave _).of_eq rfl rfl (Nat.le_refl _)
  | succeeded => exact (h.leave _).of_eq rfl rfl (Nat.le_refl _)
  | gaveUp => exact (h.leave _).of_eq rfl rfl (Nat.le_refl _)
  | tended ht => exact h.of_eq ht.lock_eq ht.calls_eq (Nat.le_of_eq ht.asked_eq.symm)

/-- Reports do not matter. -/
theorem quiet_iff : s.quiet.Housed ↔ s.Housed :=
  ⟨fun h => h.of_eq rfl rfl (Nat.le_refl _), fun h => h.of_eq rfl rfl (Nat.le_refl _)⟩

/-- **And so does a history.** -/
theorem run [Scalar α] (h : s.Housed) (events : List (Nat × Event)) :
    (s.run host events).Housed := by
  induction events generalizing s with
  | nil => exact h
  | cons e events ih =>
    exact ih (quiet_iff.mp ((quiet_iff.mpr h).advance (advance_step s e.2)))

/-- A service starts with nobody on the way. -/
theorem start [Scalar α] (settings : ServiceSettings) (canReclaim background : Bool) (now : Nat) :
    (Service.start host settings canReclaim background now : Service α).Housed := by
  have hidle : (idle settings canReclaim now : Service α).Housed := {
    sound := Lock.Sound.free
    place_eq := fun _ => rfl
    lt_asked := fun hc => nomatch hc
    nodup := List.nodup_nil }
  cases background with
  | true => exact hidle.of_eq rfl rfl (Nat.le_refl _)
  | false => exact hidle.of_eq rfl rfl (Nat.le_refl _)

/-! ## What follows -/

theorem inside_of_resolving (h : s.Housed) (hc : (id, c) ∈ s.calls)
    (hr : c.stage.isResolving = true) : s.lock.place id = .inside := by
  rw [h.place_of_call (call?_of_mem h.nodup hc)]
  cases hstage : c.stage with
  | resolving => rfl
  | waiting => simp [hstage, Stage.isResolving] at hr
  | pausing => simp [hstage, Stage.isResolving] at hr

/-- One call at most is at the resolver: it is inside the lock. -/
theorem resolving_le_one (h : s.Housed) :
    (s.calls.filter (·.2.stage.isResolving)).length ≤ 1 := by
  have hnodup : ((s.calls.filter (·.2.stage.isResolving)).map (·.1)).Nodup :=
    h.nodup.sublist (List.filter_sublist.map _)
  cases hq : s.calls.filter (·.2.stage.isResolving) with
  | nil => simp
  | cons p rest =>
    cases rest with
    | nil => simp
    | cons q rest =>
      have hp : p ∈ s.calls.filter (·.2.stage.isResolving) := by simp [hq]
      have hq' : q ∈ s.calls.filter (·.2.stage.isResolving) := by simp [hq]
      rw [List.mem_filter] at hp hq'
      have heq := h.sound.inside_unique (h.inside_of_resolving hp.1 hp.2)
        (h.inside_of_resolving hq'.1 hq'.2)
      simp [hq, heq] at hnodup

/-- The lock is free when no call is on its way. -/
theorem free_of_idle (h : s.Housed) (hcalls : s.calls = []) :
    s.lock.held = false ∧ s.lock.queue = [] :=
  h.sound.free_of_outside fun id => by rw [h.place_eq, call?, hcalls]; rfl

end Housed

/-- **The resolver is asked by one call at a time.** After every history of
a service, whatever its settings are, one call at most is at the resolver;
and when no call is on its way, the lock is free and nobody is in line. -/
theorem resolver_in_turn [Scalar α] (host : Host) (settings : ServiceSettings)
    (canReclaim background : Bool) (now : Nat) (events : List (Nat × Event)) :
    let s := (start host settings canReclaim background now : Service α).run host events
    (s.calls.filter (·.2.stage.isResolving)).length ≤ 1 ∧
      (s.calls = [] → s.lock.held = false ∧ s.lock.queue = []) :=
  have h := (Housed.start settings canReclaim background now).run events
  ⟨h.resolving_le_one, h.free_of_idle⟩

end Service

end CapabilityBroker
