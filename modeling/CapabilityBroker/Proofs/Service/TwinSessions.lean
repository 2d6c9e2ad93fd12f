import CapabilityBroker.Proofs.Service.Twins
import CapabilityBroker.Proofs.Time.Timelines
import CapabilityBroker.Service.Session
/-!
# Sessions of twins

What twins do on a clock. The callers of a service go on by what they see
of it, and its tickers by their timers, and neither is the journal. So two
sessions of twins, with the same callers and the same resolver, go in step
(`Session.inStep`): they end at the same instant, with every caller where it
is in the other, and with services that are twins still
(`Session.run_twins`).
-/

namespace CapabilityBroker

namespace Service

variable {α : Type} {k : Comparison} {s t : Service α}

namespace Twins

/-! ## The tickers -/

variable {first? first'? second? second'? : Service α → Option (Service α)}

/-- Twins take a step over and over, one as often as the other. -/
theorem catchUp (hstep : ∀ s t, Twins k s t → Both k (first? s) (first'? t)) (bound : Nat)
    (h : Twins k s t) :
    Twins k (Service.catchUp first? bound s) (Service.catchUp first'? bound t) := by
  induction bound generalizing s t with
  | zero => exact h
  | succ bound ih =>
    have hnext := hstep s t h
    rw [Service.catchUp, Service.catchUp]
    cases hs : first? s <;> cases ht : first'? t <;> rw [hs, ht] at hnext
    · exact h
    · cases hnext
    · cases hnext
    · cases hnext with
      | some hnext => exact ih hnext

/-- One ticker has its turn, or else the other. -/
theorem catchUp_either (hfirst : ∀ s t, Twins k s t → Both k (first? s) (first'? t))
    (hsecond : ∀ s t, Twins k s t → Both k (second? s) (second'? t)) (bound : Nat)
    (h : Twins k s t) :
    Both k
      (match first? s, second? s with
        | some s, _ => some (Service.catchUp first? bound s)
        | none, some s => some (Service.catchUp second? bound s)
        | none, none => none)
      (match first'? t, second'? t with
        | some t, _ => some (Service.catchUp first'? bound t)
        | none, some t => some (Service.catchUp second'? bound t)
        | none, none => none) := by
  have hone := hfirst s t h
  have hother := hsecond s t h
  generalize first? s = next? at hone ⊢
  generalize first'? t = next'? at hone ⊢
  generalize second? s = other? at hother ⊢
  generalize second'? t = other'? at hother ⊢
  cases hone with
  | some hnext => exact .some (hnext.catchUp hfirst bound)
  | none =>
    cases hother with
    | some hnext => exact .some (hnext.catchUp hsecond bound)
    | none => exact .none

theorem tick? [Scalar α] (h : Twins k s t) (now : Nat) (reading : Except Error MemoryUsage) :
    Both k (s.tick? k.host now reading) (t.tick? k.host' now reading) := by
  have hsweep (s t : Service α) (h : Twins k s t) :
      Both k (s.sweepTick? now) (t.sweepTick? now) := h.sweepTick? now
  have hwatch (s t : Service α) (h : Twins k s t) :
      Both k (s.watchTick? k.host now reading) (t.watchTick? k.host' now reading) :=
    h.watchTick? now reading
  rw [Service.tick?, Service.tick?, h.part_eq watchesFirst fun _ _ => rfl]
  cases s.watchesFirst with
  | true => exact catchUp_either hwatch hsweep Ticker.ringLimit h
  | false => exact catchUp_either hsweep hwatch Ticker.ringLimit h

end Twins

/-! ## The callers -/

/-- The scenario on one side of a comparison. -/
def Comparison.scenario (k : Comparison) (resolver : Resolver)
    (reading : Except Error MemoryUsage) : Scenario := ⟨k.host, resolver, reading⟩

/-- And that on the other side. -/
def Comparison.scenario' (k : Comparison) (resolver : Resolver)
    (reading : Except Error MemoryUsage) : Scenario := ⟨k.host', resolver, reading⟩

namespace Session

variable {x y : Session α} {resolver : Resolver} {reading : Except Error MemoryUsage}

/-- Sessions of twins whose callers do the same. -/
structure Twins (k : Comparison) (x y : Session α) : Prop where
  services : Service.Twins k x.service y.service
  callers_eq : y.callers = x.callers

variable {callers : List (Caller × Caller.Stage)}

theorem twins_setStage (h : Service.Twins k s t) (i : Nat) (stage : Caller.Stage) :
    Twins k (setStage ⟨s, callers⟩ i stage) (setStage ⟨t, callers⟩ i stage) := ⟨h, rfl⟩

/-- Twins go on, and so do their sessions. -/
theorem twins_map {next? next'? : Option (Service α)} (h : Service.Twins.Both k next? next'?) :
    Option.Rel (Twins k) (next?.map fun service => ⟨service, callers⟩)
      (next'?.map fun service => ⟨service, callers⟩) := by
  cases h with
  | none => exact .none
  | some hnext => exact .some ⟨hnext, rfl⟩

theorem twins_proceedCall (h : Service.Twins k s t) (now id : Nat) (abandonAt : Option Nat)
    (c : Call) :
    Service.Twins.Both k (proceedCall (k.scenario resolver reading) now id abandonAt s c)
      (proceedCall (k.scenario' resolver reading) now id abandonAt t c) := by
  have hreply : replyOf (k.scenario' resolver reading) c =
      replyOf (k.scenario resolver reading) c := rfl
  have hpoll : Service.Twins.Both k (s.poll? (k.scenario resolver reading).host now id)
      (t.poll? (k.scenario' resolver reading).host now id) := h.poll? now id
  rw [proceedCall, proceedCall, hreply]
  cases replyOf (k.scenario resolver reading) c with
  | mk readyAt reply =>
    simp only
    split
    · exact h.sameReply? now id reply
    · generalize s.poll? (k.scenario resolver reading).host now id = next? at hpoll ⊢
      generalize t.poll? (k.scenario' resolver reading).host now id = next'? at hpoll ⊢
      cases hpoll with
      | some hnext => exact .some hnext
      | none =>
        simp only
        split
        · exact h.abandon? now id
        · exact .none

variable [Scalar α]

theorem twins_proceedCaller (h : Service.Twins k s t) (now i : Nat) :
    Option.Rel (Twins k) (proceedCaller (k.scenario resolver reading) now i ⟨s, callers⟩)
      (proceedCaller (k.scenario' resolver reading) now i ⟨t, callers⟩) := by
  rw [proceedCaller, proceedCaller]
  cases callers[i]? with
  | none => exact .none
  | some p =>
    obtain ⟨caller, stage⟩ := p
    cases stage with
    | resting wakeAt =>
      simp only [h.part_eq asked fun _ _ => rfl]
      split
      · exact .none
      · exact .some (twins_setStage (h.ask now caller.request) i _)
    | calling id abandonAt =>
      simp only [h.call?_eq]
      cases s.call? id with
      | none => exact .some (twins_setStage h i _)
      | some c => exact twins_map (twins_proceedCall h now id abandonAt c)
    | done => exact .none

theorem twins_proceed (h : Service.Twins k s t) (now i : Nat) :
    Option.Rel (Twins k) (proceed (k.scenario resolver reading) now i ⟨s, callers⟩)
      (proceed (k.scenario' resolver reading) now i ⟨t, callers⟩) := by
  rw [proceed, proceed]
  split
  · exact twins_proceedCaller h now i
  · exact twins_map (h.tick? now reading)

/-! ## Sessions -/

/-- **Sessions of twins go in step.** -/
theorem inStep (k : Comparison) (resolver : Resolver) (reading : Except Error MemoryUsage)
    (last : Nat) :
    Timeline.InStep (timeline (k.scenario resolver reading) last : Timeline (Session α))
      (timeline (k.scenario' resolver reading) last) (Twins k) where
  tasks_eq h := congrArg (·.length + 1) h.callers_eq
  proceed {x y} now task h := by
    obtain ⟨s, callers⟩ := x
    obtain ⟨t, _⟩ := y
    obtain ⟨hservices, rfl⟩ := h
    exact twins_proceed hservices now task
  -- timers are set by the calls, the tickers and the callers
  timers_eq h := by
    obtain ⟨⟨journal, hservice, -⟩, hcallers⟩ := h
    simp only [timeline, hservice, hcallers]
    rfl
  finished_eq now h := by simp only [timeline, h.callers_eq]

/-- **Twins are twins after a session**, which takes as long for both. -/
theorem run_twins (h : Service.Twins k s t) (resolver : Resolver)
    (reading : Except Error MemoryUsage) (now last : Nat) (callers : List Caller) :
    (run (k.scenario' resolver reading) t now last callers).1 =
        (run (k.scenario resolver reading) s now last callers).1 ∧
      Twins k (run (k.scenario resolver reading) s now last callers).2
        (run (k.scenario' resolver reading) t now last callers).2 := by
  have hpolicy : t.settings = s.settings := h.part_eq settings fun _ _ => rfl
  simp only [run, hpolicy]
  exact (inStep k resolver reading last).run _ _ now ⟨h, rfl⟩

end Session

end Service

end CapabilityBroker
