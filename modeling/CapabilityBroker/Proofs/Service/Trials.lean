import CapabilityBroker.Proofs.Breaker.Counting
import CapabilityBroker.Proofs.Service.Steps
/-!
# Trials in a service

A call that the circuit lets pass is on its way until it is answered, which
it is not before the circuit learns how it went, or until it is given up.
`Course` lists what the journal can tell of a call, and `breakerAfter` says
that the circuit is where these lines put it. So the place of a trial is
taken only while a call that passed as the trial is on its way
(`Manned.taken`): whatever becomes of that call makes the place free, and
so does a late report of another one.
-/

namespace CapabilityBroker

namespace CircuitBreaker

variable {b : CircuitBreaker}

/-- The next call is the trial of a half-open circuit if its place is free. -/
theorem receive_of_free (hcircuit : b.circuit = .halfOpen) (hfree : b.trialTaken = false)
    (now : Nat) : (b.receive now).2 = .trial := by
  simp [receive, hcircuit, hfree]

end CircuitBreaker

namespace Service

/-! ## What a journal tells of a call -/

/-- What is told of a call and the circuit, and of its end. -/
inductive Mark where
  /-- The circuit lets it pass. -/
  | passed (isTrial : Bool)
  /-- The circuit learns how it went. -/
  | recorded (succeeded : Bool)
  | answered (succeeded : Bool)
  | givenUp
  deriving DecidableEq

/-- The mark of a call that an occurrence is, if it is one. -/
def Occurrence.mark? (id : Nat) : Occurrence → Option Mark
  | .passed id' isTrial => if id' = id then some (.passed isTrial) else none
  | .recorded id' succeeded => if id' = id then some (.recorded succeeded) else none
  | .answered id' result => if id' = id then some (.answered result.isOk) else none
  | .abandoned id' => if id' = id then some .givenUp else none
  | .panicked id' => if id' = id then some .givenUp else none
  | _ => none

/-- The marks of a call, the latest first. -/
def trail (journal : List JournalLine) (id : Nat) : List Mark :=
  journal.filterMap (·.occurrence.mark? id)

/-- **What becomes of a call**: what it is on its way, if it is, and its
marks. One that passed is recorded once, right before it is answered. -/
inductive Course : Option Call → List Mark → Prop
  /-- It has not begun. -/
  | unseen : Course none []
  /-- It ended before it came to the circuit, or was refused there. -/
  | turnedAway (succeeded : Bool) : Course none [.answered succeeded]
  | underway (c : Call) : Course (some c) [.passed c.isTrial]
  | completed (succeeded isTrial : Bool) :
      Course none [.answered succeeded, .recorded succeeded, .passed isTrial]
  | givenUp (isTrial : Bool) : Course none [.givenUp, .passed isTrial]

/-- A breaker after what a journal tells. A call that is given up gives up
the place of the trial if it passed as the trial. -/
def breakerAfter (b : CircuitBreaker) : List JournalLine → CircuitBreaker
  | [] => b
  | l :: older =>
    match l.occurrence with
    | .passed _ _ => ((breakerAfter b older).receive l.time).1
    | .recorded _ succeeded => (breakerAfter b older).record l.time succeeded
    | .abandoned id | .panicked id =>
      if trail older id = [.passed true] then (breakerAfter b older).releaseTrial
      else breakerAfter b older
    | _ => breakerAfter b older

/-- Whether an occurrence tells nothing of a call and the circuit. -/
def Occurrence.isUnmarked : Occurrence → Bool
  | .passed .. | .recorded .. | .answered .. | .abandoned _ | .panicked _ => false
  | _ => true

variable {b : CircuitBreaker} {journal : List JournalLine} {now id : Nat} {o : Occurrence}
  {marks : List Mark} {c d : Call} {c? : Option Call}

theorem trail_cons (l : JournalLine) (journal : List JournalLine) (id : Nat) :
    trail (l :: journal) id = (l.occurrence.mark? id).toList ++ trail journal id := by
  rw [trail, List.filterMap_cons]
  cases l.occurrence.mark? id <;> rfl

theorem trail_cons_of_unmarked (h : o.isUnmarked = true) :
    trail (⟨now, o⟩ :: journal) id = trail journal id := by
  cases o <;> first | rfl | cases h

theorem breakerAfter_cons_of_unmarked (h : o.isUnmarked = true) :
    breakerAfter b (⟨now, o⟩ :: journal) = breakerAfter b journal := by
  cases o <;> first | rfl | cases h

/-- What is learnt of a call is told of it alone. -/
theorem trail_recorded {j : Nat} (id : Nat) (succeeded : Bool) (h : o.isUnmarked = true) :
    trail (⟨now, .recorded id succeeded⟩ :: ⟨now, o⟩ :: journal) j =
      if j = id then .recorded succeeded :: trail journal j else trail journal j := by
  rw [trail_cons, trail_cons_of_unmarked h]
  by_cases hj : j = id
  · simp [Occurrence.mark?, hj]
  · simp [Occurrence.mark?, hj, Ne.symm hj]

theorem isUnmarked_of_isReport (h : o.isReport = true) : o.isUnmarked = true := by
  cases o <;> first | rfl | cases h

theorem trail_filter :
    trail (journal.filter fun l => !l.occurrence.isReport) id = trail journal id := by
  unfold trail
  rw [List.filterMap_filter]
  congr 1
  funext l
  cases l.occurrence <;> rfl

theorem breakerAfter_filter :
    breakerAfter b (journal.filter fun l => !l.occurrence.isReport) = breakerAfter b journal := by
  induction journal with
  | nil => rfl
  | cons l journal ih =>
    obtain ⟨t, o⟩ := l
    cases hreport : o.isReport with
    | true =>
      rw [List.filter_cons_of_neg (by simp [hreport]), ih,
        breakerAfter_cons_of_unmarked (isUnmarked_of_isReport hreport)]
    | false =>
      rw [List.filter_cons_of_pos (by simp [hreport])]
      simp only [breakerAfter, ih, trail_filter]

theorem inStep_breakerAfter (hb : b.InStep) : (breakerAfter b journal).InStep := by
  induction journal with
  | nil => exact hb
  | cons l journal ih =>
    obtain ⟨t, o⟩ := l
    cases o with
    | passed => exact ih.receive
    | recorded _ succeeded => exact ih.record succeeded
    | abandoned | panicked =>
      simp only [breakerAfter]
      split
      · exact ih.releaseTrial
      · exact ih
    | _ => exact ih

theorem Course.eq_of_some (h : Course (some c) marks) : marks = [.passed c.isTrial] := by
  cases h
  rfl

theorem Course.eq_none (h : Course c? []) : c? = none := by
  cases h
  rfl

/-! ## The invariant -/

variable {α : Type} {s t : Service α} {host : Host}

/-- **The circuit and the calls are where the journal has them**, and the
place of the trial is not taken without one. The breaker is the one that
the service started with. -/
structure Manned (b : CircuitBreaker) (s : Service α) : Prop where
  breaker_eq : s.breaker = breakerAfter b s.journal
  taken : s.breaker.expectsTrial = true → ∃ id c, s.call? id = some c ∧ c.isTrial = true
  course (id : Nat) : Course (s.call? id) (trail s.journal id)
  unseen {id : Nat} : s.asked ≤ id → trail s.journal id = []

/-- A call is at another stage, and that is all. -/
structure Moves (id : Nat) (c : Call) (s t : Service α) : Prop where
  breaker_eq : t.breaker = s.breaker
  asked_eq : t.asked = s.asked
  call?_eq : ∃ stage, ∀ j, t.call? j = if j = id then some { c with stage } else s.call? j
  journal_eq : t.journal = s.journal ∨
    ∃ now o, o.isUnmarked = true ∧ t.journal = ⟨now, o⟩ :: s.journal

theorem moves_invoke (lock : Lock Nat) (now id : Nat) (c : Call) (limit : Option WaitLimit) :
    Moves id c s ({ s with lock }.invoke now id c limit) where
  breaker_eq := rfl
  asked_eq := rfl
  call?_eq := ⟨_, fun _ => call?_setCall⟩
  journal_eq := .inr ⟨_, _, rfl, rfl⟩

theorem moves_beginAttempt (now id : Nat) (c : Call) :
    Moves id c s (s.beginAttempt now id c) := by
  obtain ⟨lock, limit, heq | heq⟩ := beginAttempt_cases s now id c
  · rw [heq]
    exact ⟨rfl, rfl, ⟨_, fun _ => call?_setCall⟩, .inl rfl⟩
  · rw [heq]
    exact moves_invoke _ _ _ _ _

theorem moves_pause (now id : Nat) (c : Call) (e : Error) (wakeAt : Nat) :
    Moves id c s ((s.leaveLock id).pause now id c e wakeAt) where
  breaker_eq := rfl
  asked_eq := rfl
  call?_eq := ⟨_, fun _ => call?_setCall⟩
  journal_eq := .inr ⟨_, _, rfl, rfl⟩

theorem Moves.trail_eq (h : Moves id c s t) (j : Nat) : trail t.journal j = trail s.journal j := by
  rcases h.journal_eq with heq | ⟨now, o, ho, heq⟩
  · rw [heq]
  · rw [heq, trail_cons_of_unmarked ho]

theorem Moves.breakerAfter_eq (h : Moves id c s t) :
    breakerAfter b t.journal = breakerAfter b s.journal := by
  rcases h.journal_eq with heq | ⟨now, o, ho, heq⟩
  · rw [heq]
  · rw [heq, breakerAfter_cons_of_unmarked ho]

namespace Manned

/-- Nothing but the circuit, the calls and the journal matters. -/
theorem of_eq (h : Manned b s) (hbreaker : t.breaker = s.breaker) (hcalls : t.calls = s.calls)
    (hasked : t.asked = s.asked) (hafter : breakerAfter b t.journal = breakerAfter b s.journal)
    (htrail : ∀ id, trail t.journal id = trail s.journal id) : Manned b t := by
  have hcall : ∀ id, t.call? id = s.call? id := fun _ => call?_congr hcalls
  exact {
    breaker_eq := by rw [hbreaker, hafter, h.breaker_eq]
    taken := fun hexpects => by
      simp only [hcall]
      exact h.taken (hbreaker ▸ hexpects)
    course := fun id => by
      rw [hcall, htrail]
      exact h.course id
    unseen := fun hid => by
      rw [htrail]
      exact h.unseen (hasked ▸ hid) }

/-- A number that is not given yet is that of no call. -/
theorem call?_of_le (h : Manned b s) (hid : s.asked ≤ id) : s.call? id = none := by
  have hcourse := h.course id
  rw [h.unseen hid] at hcourse
  exact hcourse.eq_none

/-- A call on its way has passed, and nothing was learnt of it since. -/
theorem trail_of_call (h : Manned b s) (hc : s.call? id = some c) :
    trail s.journal id = [.passed c.isTrial] := by
  have hcourse := h.course id
  rw [hc] at hcourse
  exact hcourse.eq_of_some

theorem lt_of_call (h : Manned b s) (hc : s.call? id = some c) : id < s.asked :=
  Nat.lt_of_not_le fun hle => by simp [h.call?_of_le hle] at hc

/-- One call ends or is at another stage. -/
theorem change (h : Manned b s) (id : Nat) (c? : Option Call)
    (hbreaker : t.breaker = breakerAfter b t.journal)
    (htaken : t.breaker.expectsTrial = true → ∃ id c, t.call? id = some c ∧ c.isTrial = true)
    (hcall : ∀ j, t.call? j = if j = id then c? else s.call? j)
    (htrail : ∀ j, j ≠ id → trail t.journal j = trail s.journal j)
    (hcourse : Course c? (trail t.journal id)) (hasked : s.asked ≤ t.asked)
    (hid : id < t.asked) : Manned b t where
  breaker_eq := hbreaker
  taken := htaken
  course j := by
    rw [hcall]
    split
    · next hj => exact hj ▸ hcourse
    · next hj =>
      rw [htrail j hj]
      exact h.course j
  unseen {j} hj := by
    rw [htrail j (by omega)]
    exact h.unseen (by omega)

/-- A trial is still on its way when a call ends that is none. -/
theorem taken_of_drop (h : Manned b s) (hbreaker : t.breaker = s.breaker)
    (hcall : ∀ j, t.call? j = if j = id then none else s.call? j)
    (hnot : ∀ c, s.call? id = some c → c.isTrial = false)
    (hexpects : t.breaker.expectsTrial = true) :
    ∃ id c, t.call? id = some c ∧ c.isTrial = true := by
  obtain ⟨j, c, hc, htrial⟩ := h.taken (hbreaker ▸ hexpects)
  refine ⟨j, c, ?_, htrial⟩
  rw [hcall, if_neg, hc]
  rintro rfl
  simp [hnot c hc] at htrial

/-! ## The parts of a step -/

/-- A call goes on. -/
theorem moves (h : Manned b s) (hc : s.call? id = some c) (hd : d.isTrial = c.isTrial)
    (hmoves : Moves id d s t) : Manned b t := by
  obtain ⟨stage, hcall⟩ := hmoves.call?_eq
  refine h.change id (some { d with stage }) ?_ (fun hexpects => ?_) hcall
    (fun j _ => hmoves.trail_eq j) ?_ (Nat.le_of_eq hmoves.asked_eq.symm)
    (hmoves.asked_eq ▸ h.lt_of_call hc)
  · rw [hmoves.breaker_eq, hmoves.breakerAfter_eq, h.breaker_eq]
  · obtain ⟨j, e, he, htrial⟩ := h.taken (hmoves.breaker_eq ▸ hexpects)
    by_cases hj : j = id
    · obtain rfl : e = c := Option.some.inj (he.symm.trans (hj ▸ hc))
      exact ⟨id, { d with stage }, (hcall id).trans (if_pos rfl), hd.trans htrial⟩
    · exact ⟨j, e, by rw [hcall, if_neg hj, he], htrial⟩
  · rw [hmoves.trail_eq, h.trail_of_call hc, ← hd]
    exact .underway { d with stage }

/-- A call begins that does not pass the circuit. -/
theorem turnAway {result : Except Error CapabilitySet} (h : Manned b s)
    (hbreaker : t.breaker = s.breaker) (hasked : t.asked = s.asked + 1) (hcalls : t.calls = s.calls)
    (hafter : breakerAfter b t.journal = breakerAfter b s.journal)
    (htrail : ∀ id, trail t.journal id = trail s.journal id) :
    Manned b (t.finish now s.asked result) := by
  have hnone := h.call?_of_le (Nat.le_refl s.asked)
  have hcall : ∀ j, (t.finish now s.asked result).call? j =
      if j = s.asked then none else s.call? j := fun j => by
    change (t.dropCall s.asked).call? j = _
    rw [call?_dropCall, call?_congr hcalls]
  refine h.change s.asked none ?_ ?_ hcall (fun j hj => ?_) ?_ ?_ ?_
  · exact hbreaker.trans (h.breaker_eq.trans hafter.symm)
  · exact h.taken_of_drop hbreaker hcall fun c hc => by simp [hnone] at hc
  · simp [finish, note, dropCall, trail_cons, Occurrence.mark?, hj.symm, htrail]
  · have hunseen := h.unseen (Nat.le_refl s.asked)
    simp only [finish, note, dropCall, trail_cons, Occurrence.mark?, if_true, htrail, hunseen]
    exact .turnedAway _
  · exact hasked ▸ Nat.le_succ s.asked
  · exact hasked ▸ Nat.lt_succ_self s.asked

/-- A call begins and passes the circuit. -/
theorem passes {isTrial : Bool} (h : Manned b s)
    (hreception : (s.breaker.receive now).2 = if isTrial then .trial else .passed)
    (hbreaker : t.breaker = (s.breaker.receive now).1) (hasked : t.asked = s.asked + 1)
    (hcalls : t.calls = s.calls) (hafter : breakerAfter b t.journal = breakerAfter b s.journal)
    (htrail : ∀ id, trail t.journal id = trail s.journal id) (hc : c.isTrial = isTrial) :
    Manned b ((t.note now (.passed s.asked isTrial)).beginAttempt now s.asked c) := by
  have hmoves := moves_beginAttempt (s := t.note now (.passed s.asked isTrial)) now s.asked c
  generalize (t.note now (.passed s.asked isTrial)).beginAttempt now s.asked c = u at hmoves
  obtain ⟨stage, hcall⟩ := hmoves.call?_eq
  have hcall' : ∀ j, u.call? j = if j = s.asked then some { c with stage } else s.call? j :=
    fun j => by rw [hcall, call?_congr (t := t.note now (.passed s.asked isTrial)) hcalls]
  refine h.change s.asked (some { c with stage }) ?_ (fun hexpects => ?_) hcall'
    (fun j hj => ?_) ?_ ?_ ?_
  · rw [hmoves.breaker_eq, hmoves.breakerAfter_eq]
    change t.breaker = ((breakerAfter b t.journal).receive now).1
    rw [hafter, ← h.breaker_eq, hbreaker]
  · cases isTrial with
    | true => exact ⟨s.asked, { c with stage }, (hcall' _).trans (if_pos rfl), hc⟩
    | false =>
      -- it passes a closed circuit, where no trial is expected
      rw [hmoves.breaker_eq] at hexpects
      change t.breaker.expectsTrial = true at hexpects
      rw [hbreaker] at hexpects
      rcases CircuitBreaker.receive_cases s.breaker now with heq | ⟨hclosed, heq⟩ | ⟨b', heq, -⟩
      · simp [heq] at hreception
      · simp [heq, CircuitBreaker.expectsTrial, hclosed] at hexpects
      · simp [heq] at hreception
  · rw [hmoves.trail_eq, note, trail_cons]
    simp [Occurrence.mark?, hj.symm, htrail]
  · rw [hmoves.trail_eq, note, trail_cons, htrail, h.unseen (Nat.le_refl _)]
    simp only [Occurrence.mark?, if_true, Option.toList_some, List.append_nil, ← hc]
    exact .underway { c with stage }
  · rw [hmoves.asked_eq]
    exact hasked ▸ Nat.le_succ s.asked
  · rw [hmoves.asked_eq]
    exact hasked ▸ Nat.lt_succ_self s.asked

/-- The circuit has learnt how a call went, and the call ends. -/
theorem settles (h : Manned b s) (hc : s.call? id = some c) (result : Except Error CapabilitySet)
    (hbreaker : t.breaker = s.breaker.record now result.isOk) (hasked : t.asked = s.asked)
    (hcalls : t.calls = s.calls)
    (hafter : breakerAfter b t.journal = (breakerAfter b s.journal).record now result.isOk)
    (htrail : ∀ j, trail t.journal j =
      if j = id then .recorded result.isOk :: trail s.journal j else trail s.journal j) :
    Manned b (t.finish now id result) := by
  refine h.change id none ?_ (fun hexpects => ?_) (fun j => ?_) (fun j hj => ?_) ?_ ?_ ?_
  · change t.breaker = breakerAfter b t.journal
    rw [hbreaker, hafter, h.breaker_eq]
  · -- the circuit is not half open any more
    change t.breaker.expectsTrial = true at hexpects
    rw [hbreaker] at hexpects
    simp [CircuitBreaker.expectsTrial, CircuitBreaker.record_circuit] at hexpects
  · change (t.dropCall id).call? j = _
    rw [call?_dropCall, call?_congr hcalls]
  · simp [finish, note, dropCall, trail_cons, Occurrence.mark?, hj, hj.symm, htrail]
  · simp only [finish, note, dropCall, trail_cons, Occurrence.mark?, if_true, htrail,
      h.trail_of_call hc]
    exact .completed _ _
  · exact Nat.le_of_eq hasked.symm
  · exact hasked ▸ h.lt_of_call hc

/-- A call is given up. -/
theorem givesUp (h : Manned b s) (hc : s.call? id = some c)
    (ho : o = .abandoned id ∨ o = .panicked id) : Manned b (s.giveUp now id c o) := by
  have hcall : ∀ j, (s.giveUp now id c o).call? j = if j = id then none else s.call? j :=
    fun _ => call?_dropCall
  have hpassed := h.trail_of_call hc
  have hmark : ∀ j, o.mark? j = if id = j then some .givenUp else none := by
    rcases ho with rfl | rfl <;> exact fun _ => rfl
  have hafter : breakerAfter b (⟨now, o⟩ :: s.journal)
      = if trail s.journal id = [.passed true] then (breakerAfter b s.journal).releaseTrial
        else breakerAfter b s.journal := by
    rcases ho with rfl | rfl <;> rfl
  refine h.change id none ?_ ?_ hcall (fun j hj => ?_) ?_ (Nat.le_refl _) (h.lt_of_call hc)
  · change (if c.isTrial then s.breaker.releaseTrial else s.breaker)
      = breakerAfter b (⟨now, o⟩ :: s.journal)
    rw [hafter, hpassed, h.breaker_eq]
    cases c.isTrial <;> rfl
  · cases htrial : c.isTrial with
    | true =>
      have hbreaker : (s.giveUp now id c o).breaker = s.breaker.releaseTrial := if_pos htrial
      rw [hbreaker, CircuitBreaker.releaseTrial_expectsTrial]
      exact fun hexpects => nomatch hexpects
    | false =>
      have hbreaker : (s.giveUp now id c o).breaker = s.breaker := if_neg (by simp [htrial])
      refine h.taken_of_drop hbreaker hcall fun d hd => ?_
      rw [← Option.some.inj (hc.symm.trans hd)]
      exact htrial
  · simp [giveUp, note, dropCall, leaveLock, trail_cons, hmark, hj.symm]
  · simp only [giveUp, note, dropCall, leaveLock, trail_cons, hmark, if_true, hpassed]
    exact .givenUp _

/-- A call begins. -/
theorem begins [Scalar α] {r : Request} (h : Manned b s) (hs : Begins now s r t) : Manned b t := by
  cases hs with
  | disposed => exact h.turnAway (t := s.begin now r) rfl rfl rfl rfl fun _ => rfl
  | invalid => exact h.turnAway (t := s.begin now r) rfl rfl rfl rfl fun _ => rfl
  | limited => exact h.turnAway rfl rfl rfl rfl fun _ => rfl
  | hit => exact h.turnAway (t := s.arrive now r) rfl rfl rfl rfl fun _ => rfl
  | refused _ _ _ hrefused =>
    exact h.turnAway (t := (s.arrive now r).meetCircuit now)
      (CircuitBreaker.receive_of_refused hrefused) rfl rfl rfl fun _ => rfl
  | passed _ _ _ hreception =>
    exact h.passes (t := (s.arrive now r).meetCircuit now) hreception rfl rfl rfl rfl
      (fun _ => rfl) rfl

/-- **A step keeps the circuit and the calls where the journal has them.** -/
theorem advance [Scalar α] {event : Event} (h : Manned b s) (hs : Advance host now s event t) :
    Manned b t := by
  cases hs with
  | began hbegins => exact h.begins hbegins
  | granted hc => exact h.moves hc rfl (moves_invoke _ _ _ _ _)
  | @resumed id c wakeAt hc =>
    exact h.moves (d := { c with attempt := c.attempt + 1 }) hc rfl (moves_beginAttempt now id _)
  | paused hc => exact h.moves hc rfl (moves_pause _ _ _ _ _)
  | @failed _ id c e hc =>
    refine h.settles (t := { (s.leaveLock id).note now (.attempted id (.error e)) with
        breaker := s.breaker.recordFailure now }.note now (.recorded id false))
      hc (.error _) rfl rfl rfl rfl fun j => ?_
    exact trail_recorded id false rfl
  | @succeeded _ id c v hc =>
    refine h.settles (t := { { (s.leaveLock id).note now (.attempted id (.ok v)) with
        breaker := s.breaker.recordSuccess now }.note now (.recorded id true) with
        cache := (s.cache.insert now c.request.cacheKey v).1 }.note now
          (.stored id c.request.cacheKey v (s.cache.insert now c.request.cacheKey v).2.isKept))
      hc (.ok v) rfl rfl rfl rfl fun j => ?_
    exact trail_recorded id true rfl
  | gaveUp hc hgives =>
    cases hgives with
    | panicked => exact h.givesUp hc (.inr rfl)
    | abandoned => exact h.givesUp hc (.inl rfl)
  | tended ht =>
    rcases ht.journal_eq with hj | hj
    · exact h.of_eq ht.breaker_eq ht.calls_eq ht.asked_eq (by rw [hj]) fun _ => by rw [hj]
    · exact h.of_eq ht.breaker_eq ht.calls_eq ht.asked_eq
        (by rw [hj, breakerAfter_cons_of_unmarked rfl])
        fun _ => by rw [hj, trail_cons_of_unmarked rfl]

/-- **And so does a history.** -/
theorem run [Scalar α] (h : Manned b s.quiet) (events : List (Nat × Event)) :
    Manned b (s.run host events).quiet :=
  run_induction (fun _ _ _ _ h hs => h.advance hs) h

/-- A service starts with a closed circuit and without calls. -/
theorem start [Scalar α] (settings : ServiceSettings) (canReclaim background : Bool) (now : Nat) :
    Manned (.new settings.breaker now)
      (Service.start host settings canReclaim background now : Service α).quiet := by
  have hidle : Manned (.new settings.breaker now)
      (idle settings canReclaim now : Service α).quiet := {
    breaker_eq := rfl
    taken := fun hexpects => nomatch hexpects
    course := fun _ => .unseen
    unseen := fun _ => rfl }
  rw [Service.start, quiet_report]
  cases background with
  | true => exact hidle.of_eq rfl rfl rfl rfl fun _ => rfl
  | false => exact hidle

end Manned

/-! ## Giving up -/

/-- A call that is given up changes neither the state of the circuit nor
the failures that were counted. -/
theorem giveUp_circuit (s : Service α) (now id : Nat) (c : Call) (o : Occurrence) :
    (s.giveUp now id c o).breaker.circuit = s.breaker.circuit ∧
      (s.giveUp now id c o).breaker.failures = s.breaker.failures := by
  change (if c.isTrial then s.breaker.releaseTrial else s.breaker).circuit = _ ∧
    (if c.isTrial then s.breaker.releaseTrial else s.breaker).failures = _
  cases c.isTrial with
  | true => exact ⟨CircuitBreaker.releaseTrial_circuit _, CircuitBreaker.releaseTrial_failures _⟩
  | false => exact ⟨rfl, rfl⟩

/-- The events by which a call is given up. -/
def Event.givesUp : Event → Bool
  | .abandon _ | .reply _ .panicked => true
  | _ => false

theorem step_givesUp [Scalar α] {event : Event} (hevent : event.givesUp = true) (s : Service α)
    (now : Nat) : s.step host now event = s ∨
      ∃ id c o, s.call? id = some c ∧ s.step host now event = s.giveUp now id c o := by
  cases event with
  | abandon id =>
    simp only [step, abandon?]
    cases hc : s.call? id with
    | none => exact .inl rfl
    | some c => exact .inr ⟨id, c, _, hc, rfl⟩
  | reply id reply =>
    cases reply with
    | done => cases hevent
    | panicked =>
      simp only [step, reply?]
      cases hc : s.call? id with
      | none => exact .inl rfl
      | some c =>
        cases hstage : c.stage with
        | resolving =>
          refine .inr ⟨id, c, .panicked id, hc, ?_⟩
          simp only [Option.bind_eq_bind, Option.bind_some, hstage]
          rfl
        | _ =>
          refine .inl ?_
          simp only [Option.bind_eq_bind, Option.bind_some, hstage]
          rfl
  | _ => cases hevent

/-- **The circuit is never stuck half open.** After every history of a
service, whatever its settings are, the place of the trial is taken only
while a call is on its way that passed as the trial, and of which nothing
was learnt since; and as long as there is none, a half-open circuit takes
the next call for its trial. The circuit is where the journal has put it,
and of a call that passes it learns once how it went, right before the call
is answered, or never if the call is given up. An event by which a call is
given up changes neither the state of the circuit nor the failures that
were counted. -/
theorem breaker_never_stuck [Scalar α] (host : Host) (settings : ServiceSettings)
    (canReclaim background : Bool) (start : Nat) (events : List (Nat × Event)) :
    let s := (Service.start host settings canReclaim background start : Service α).run host events
    (s.breaker.trialTaken = true → s.breaker.circuit = .halfOpen ∧
      ∃ id c, s.call? id = some c ∧ c.isTrial = true ∧ trail s.journal id = [.passed true]) ∧
    (s.breaker.circuit = .halfOpen → (∀ id c, s.call? id = some c → c.isTrial = false) →
      ∀ now, (s.breaker.receive now).2 = .trial) ∧
    s.breaker = breakerAfter (.new settings.breaker start) s.journal ∧
    (∀ id, Course (s.call? id) (trail s.journal id)) ∧
    ∀ now event, event.givesUp = true →
      (s.step host now event).breaker.circuit = s.breaker.circuit ∧
        (s.step host now event).breaker.failures = s.breaker.failures := by
  intro s
  have h : Manned (.new settings.breaker start) s.quiet :=
    (Manned.start settings canReclaim background start).run events
  have hafter : s.breaker = breakerAfter (.new settings.breaker start) s.journal :=
    h.breaker_eq.trans breakerAfter_filter
  have hinStep : s.breaker.InStep := by
    rw [hafter]
    exact inStep_breakerAfter fun htaken => nomatch htaken
  have htaken : s.breaker.trialTaken = true →
      ∃ id c, s.call? id = some c ∧ c.isTrial = true :=
    fun htaken => h.taken (hinStep.expectsTrial_eq.trans htaken)
  have hcourse : ∀ id, Course (s.call? id) (trail s.journal id) := fun id => by
    rw [← trail_filter]
    exact h.course id
  refine ⟨fun hplace => ⟨hinStep hplace, ?_⟩, fun hcircuit hnone => ?_, hafter, hcourse,
    fun now event hevent => ?_⟩
  · obtain ⟨id, c, hc, htrial⟩ := htaken hplace
    have hpassed := hcourse id
    rw [hc] at hpassed
    exact ⟨id, c, hc, htrial, htrial ▸ hpassed.eq_of_some⟩
  · refine CircuitBreaker.receive_of_free hcircuit (Bool.eq_false_iff.mpr fun hplace => ?_)
    obtain ⟨id, c, hc, htrial⟩ := htaken hplace
    simp [hnone id c hc] at htrial
  · rcases step_givesUp hevent s now with heq | ⟨id, c, o, -, heq⟩
    · rw [heq]
      exact ⟨rfl, rfl⟩
    · rw [heq]
      exact giveUp_circuit s now id c o

end Service

end CapabilityBroker
