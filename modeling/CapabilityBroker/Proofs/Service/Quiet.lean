import CapabilityBroker.Proofs.Lock.History
import CapabilityBroker.Service.History
/-!
# A service without its reports

What a service reports never decides what it does. `quiet` is the state
without the reports, and the equations below say what each part of a
call's course comes to apart from them: which of the lock, the circuit,
the cache and the calls it changes, and which lines it adds to the
journal. The proofs about histories go by these equations and do not
open the parts themselves.
-/

namespace CapabilityBroker

namespace Service

/-- Whether an occurrence is a report. -/
def Occurrence.isReport : Occurrence → Bool
  | .reported _ => true
  | _ => false

variable {α : Type}

/-- A service as it is apart from its reports. -/
def quiet (s : Service α) : Service α :=
  { s with journal := s.journal.filter fun l => !l.occurrence.isReport, captured := 0 }

variable {host : Host} {s : Service α} {now id start : Nat} {c : Call} {r : Request}

/-! ## Looking calls up -/

theorem call?_setCall {j : Nat} :
    (s.setCall id c).call? j = if j = id then some c else s.call? j := by
  unfold call? setCall
  rw [Keyed.find?_cons_filter_ne]
  split <;> rfl

theorem call?_dropCall {j : Nat} :
    (s.dropCall id).call? j = if j = id then none else s.call? j := by
  unfold call? dropCall
  rw [Keyed.find?_filter_ne]
  split <;> rfl

theorem call?_congr {t : Service α} (h : t.calls = s.calls) : t.call? id = s.call? id := by
  rw [call?, h, call?]

theorem call?_of_mem (hnodup : (s.calls.map (·.1)).Nodup) (h : (id, c) ∈ s.calls) :
    s.call? id = some c := by
  rw [call?, Keyed.find?_of_mem hnodup h]
  rfl

/-! ## The journal -/

theorem quiet_note {o : Occurrence} (h : o.isReport = false) :
    (s.note now o).quiet = s.quiet.note now o := by
  simp [quiet, note, h]

theorem quiet_report (signals : List Signal) : (s.report now signals).quiet = s.quiet := by
  have h : ((signals.map fun x => (⟨now, .reported x⟩ : JournalLine)).reverse.filter
      fun l => !l.occurrence.isReport) = [] := by
    simp [List.filter_eq_nil_iff, Occurrence.isReport]
  simp only [quiet, report, List.filter_append, h, List.nil_append]

theorem quiet_capture (e : TelemetryEvent) : (s.capture host now e).quiet = s.quiet :=
  quiet_report (s := s) _

/-! ## The end of a call -/

/-- A call ends with a result. -/
def finish (s : Service α) (now id : Nat) (result : Except Error CapabilitySet) : Service α :=
  (s.dropCall id).note now (.answered id result)

theorem quiet_answer (result : Except Error CapabilitySet) :
    (s.answer host now id r start result).quiet = s.quiet.finish now id result := by
  have h : ∀ t : Service α, ((t.reportResult host now r result).dropCall id).quiet
      = t.quiet.dropCall id := by
    intro t
    cases result with
    | ok v => rfl
    | error e =>
      simp only [reportResult, reportFailure]
      split
      · rfl
      · exact congrArg (dropCall · id) ((quiet_capture _).trans (quiet_report _))
  rw [answer, quiet_note rfl, h, quiet_report]
  rfl

theorem quiet_recordOutcome (succeeded : Bool) :
    (s.recordOutcome now id succeeded).quiet =
      { s.quiet with
        breaker := if succeeded then s.breaker.recordSuccess now else s.breaker.recordFailure now
      }.note now (.recorded id succeeded) := by
  rw [recordOutcome, quiet_note rfl, quiet_report]
  rfl

theorem quiet_store (k : CacheKey) (v : CapabilitySet) :
    (s.store now id k v).quiet =
      { s.quiet with cache := (s.cache.insert now k v).1 }.note now
        (.stored id k v (s.cache.insert now k v).2.isKept) := by
  rw [store, quiet_note rfl, quiet_report]
  rfl

/-! ## The end of an attempt -/

/-- The attempt of a call succeeds: the circuit learns of it, the answer is
stored, and the call ends. -/
def succeed (s : Service α) (now id : Nat) (k : CacheKey) (v : CapabilitySet) : Service α :=
  { { { s.note now (.attempted id (.ok v)) with breaker := s.breaker.recordSuccess now
    }.note now (.recorded id true) with cache := (s.cache.insert now k v).1
    }.note now (.stored id k v (s.cache.insert now k v).2.isKept) with }.finish now id (.ok v)

/-- The last attempt of a call fails: the circuit learns of it, and the
call ends with the error at the root. -/
def fail (s : Service α) (now id : Nat) (c : Call) (e : Error) : Service α :=
  ({ s.note now (.attempted id (.error e)) with breaker := s.breaker.recordFailure now
    }.note now (.recorded id false)).finish now id (.error (RetryPolicy.exhausted c.attempt e).root)

/-- An attempt of a call fails, and there is to be another. -/
def pause (s : Service α) (now id : Nat) (c : Call) (e : Error) (wakeAt : Nat) : Service α :=
  (s.note now (.attempted id (.error e))).setCall id { c with stage := .pausing wakeAt }

theorem quiet_endAttempt_ok (v : CapabilitySet) :
    (s.endAttempt host now id c (.ok v)).quiet
      = s.quiet.succeed now id c.request.cacheKey v := by
  simp only [endAttempt, RetryPolicy.verdict, settle]
  rw [quiet_answer, quiet_capture, quiet_store, quiet_recordOutcome, quiet_note rfl]
  rfl

theorem quiet_endAttempt_of_again {e : Error} {delay : Nat}
    (h : s.settings.retry.verdict (host.draws id c.attempt) c.attempt
      (.error e : Except Error CapabilitySet) = .again delay) :
    (s.endAttempt host now id c (.error e)).quiet =
      s.quiet.pause now id c e (Instant.after now delay) := by
  simp only [endAttempt, note, h]
  change ((Service.report _ now _).quiet.setCall id _) = _
  rw [quiet_report]
  rfl

theorem quiet_endAttempt_of_final {e : Error}
    (h : s.settings.retry.verdict (host.draws id c.attempt) c.attempt
      (.error e : Except Error CapabilitySet) = .final) :
    (s.endAttempt host now id c (.error e)).quiet = s.quiet.fail now id c e := by
  simp only [endAttempt, note, h, settle]
  rw [quiet_answer, quiet_recordOutcome]
  rfl

/-! ## The beginning of an attempt, and giving up -/

theorem quiet_invoke (limit : Option WaitLimit) :
    (s.invoke now id c limit).quiet = s.quiet.invoke now id c limit := by
  rw [invoke, quiet_note rfl]
  rfl

theorem quiet_beginAttempt :
    (s.beginAttempt now id c).quiet = s.quiet.beginAttempt now id c := by
  unfold beginAttempt
  cases hheld : s.lock.held with
  | true =>
    simp only [quiet, Lock.enter_of_held hheld]
    rfl
  | false =>
    simp only [quiet, Lock.enter_of_free hheld]
    exact quiet_invoke _

/-- An attempt that begins waits in line for the lock or has it at once. -/
theorem beginAttempt_cases (s : Service α) (now id : Nat) (c : Call) : ∃ lock limit,
    s.beginAttempt now id c = { s with lock }.setCall id { c with stage := .waiting limit } ∨
      s.beginAttempt now id c = { s with lock }.invoke now id c limit := by
  rw [beginAttempt]
  cases hheld : s.lock.held with
  | true =>
    rw [Lock.enter_of_held hheld]
    exact ⟨_, _, .inl rfl⟩
  | false =>
    rw [Lock.enter_of_free hheld]
    exact ⟨_, _, .inr rfl⟩

theorem quiet_giveUp {o : Occurrence} (h : o.isReport = false) :
    (s.giveUp now id c o).quiet = s.quiet.giveUp now id c o := by
  rw [giveUp, quiet_note h]
  rfl

/-! ## The gates -/

/-- A call begins. -/
def begin (s : Service α) (now : Nat) (r : Request) : Service α :=
  { s with asked := s.asked + 1 }.note now (.asked s.asked r)

/-- A call comes to the circuit. What becomes of it is not said yet. -/
def meetCircuit (s : Service α) (now : Nat) : Service α :=
  { s with breaker := (s.breaker.receive now).1 }

theorem quiet_enterCircuit_of_refused (h : (s.breaker.receive now).2 = .refused) :
    (s.enterCircuit host now id r).quiet =
      (s.quiet.meetCircuit now).finish now id (.error .serviceUnavailable) := by
  simp only [enterCircuit, h, if_true]
  rw [quiet_answer, quiet_report]
  rfl

theorem quiet_enterCircuit_of_passed (isTrial : Bool)
    (h : (s.breaker.receive now).2 = if isTrial then .trial else .passed) :
    (s.enterCircuit host now id r).quiet =
      ((s.quiet.meetCircuit now).note now (.passed id isTrial)).beginAttempt now id
        ⟨r, now, isTrial, 1, .pausing now⟩ := by
  have hpassed : (s.breaker.receive now).2 ≠ .refused := by
    cases isTrial <;> simp [h]
  have htrial : decide ((s.breaker.receive now).2 = .trial) = isTrial := by
    cases isTrial <;> simp [h]
  simp only [enterCircuit, if_neg hpassed]
  rw [quiet_beginAttempt, quiet_note rfl, quiet_report, htrial]
  rfl

/-- A call has looked in the cache. -/
def lookUp (s : Service α) (now : Nat) (k : CacheKey) : Service α :=
  { s with cache := (s.cache.get now k).1 }

theorem quiet_enterCache_of_hit {v : CapabilitySet} (h : (s.cache.get now r.cacheKey).2 = .hit v) :
    (s.enterCache host now id r).quiet =
      (s.quiet.lookUp now r.cacheKey).finish now id (.ok v) := by
  simp only [enterCache, h]
  rw [quiet_answer, quiet_report]
  rfl

theorem enterCache_of_miss (h : ∀ v, (s.cache.get now r.cacheKey).2 ≠ .hit v) :
    ∃ signals, s.enterCache host now id r =
      ((s.lookUp now r.cacheKey).report now signals).enterCircuit host now id r := by
  simp only [enterCache]
  exact ⟨_, rfl⟩

end Service

end CapabilityBroker
