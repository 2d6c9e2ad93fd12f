import Mathlib.Data.List.Forall2
import CapabilityBroker.Proofs.Retry.Scripts
import CapabilityBroker.Proofs.Service.Exits
/-!
# Two services side by side

Two services that are the same but for their journals are twins
(`Twins`). A comparison says how far their journals may be apart, how far
the errors of the resolver may be apart that the two are told, and to which
sinks they hand their events (`Comparison`). What a service does follows
neither from its journal nor from its sink, nor from an error beyond what a
comparison keeps; so twins that go through alike histories are twins in the
end (`Twins.run`).
-/

namespace CapabilityBroker

namespace Service

/-! ## The lines of reports -/

/-- The lines of a journal that report signals, the latest first. -/
def reports (now : Nat) (signals : List Signal) : List JournalLine :=
  (signals.map fun x => (⟨now, .reported x⟩ : JournalLine)).reverse

theorem reports_append {now : Nat} {xs ys : List Signal} :
    reports now (xs ++ ys) = reports now ys ++ reports now xs := by
  simp [reports]

theorem reports_cons {now : Nat} {x : Signal} {xs : List Signal} :
    reports now (x :: xs) = reports now xs ++ [⟨now, .reported x⟩] := by
  simp [reports]

/-- What is reported when the sink is handed an event, after so many
others. -/
def captureSignals (host : Host) (captured : Nat) (e : TelemetryEvent) : List Signal :=
  .event e :: ((host.sink captured e).lines e).map .log

/-- The lines of a call that ends with an error, the latest first. -/
def failureLines (host : Host) (captured now id : Nat) (recorded : Bool) (elapsed : Nat)
    (r : Request) (e : Error) : List JournalLine :=
  ⟨now, .answered id (.error e)⟩ :: reports now (resultSignals recorded elapsed (.error e) ++
    if e = .disposed then []
    else .log (r.failureLine e) :: captureSignals host captured (.failed e r.browserEnabled))

variable {α : Type} {s t : Service α} {now id start : Nat} {c : Call} {r : Request}

/-- How a call ends with an error. -/
theorem answer_error (host : Host) (s : Service α) (now id : Nat) (r : Request) (start : Nat)
    (e : Error) : s.answer host now id r start (.error e) =
      { s.dropCall id with
        captured := s.captured + if e = .disposed then 0 else 1
        journal := failureLines host s.captured now id
          (recordsDuration host s.settings.sampleRate id) (now - start) r e ++ s.journal } := by
  simp only [answer, reportResult, reportFailure, failureLines]
  split
  · simp [note, report, dropCall, reports]
  · simp [note, report, dropCall, reports, capture, captureSignals]

/-! ## Comparisons -/

/-- The same answer, or errors that are alike. -/
inductive ResultsAlike (errors : Error → Error → Prop) :
    Except Error CapabilitySet → Except Error CapabilitySet → Prop
  | ok (v : CapabilitySet) : ResultsAlike errors (.ok v) (.ok v)
  | error {e e' : Error} (alike : errors e e') : ResultsAlike errors (.error e) (.error e')

/-- The same event, or replies of the resolver that are alike. -/
inductive EventsAlike (errors : Error → Error → Prop) : Nat × Event → Nat × Event → Prop
  | same (event : Nat × Event) : EventsAlike errors event event
  | replied (now id : Nat) {result result' : Except Error CapabilitySet}
      (alike : ResultsAlike errors result result') :
      EventsAlike errors (now, .reply id (.done result)) (now, .reply id (.done result'))

/-- **How two services are compared**: the surroundings of each, which
differ in their sinks at most, when errors that the resolver replies with
count as alike, and when lines do that are added to the journals. Alike
errors are transient alike, and the lines that tell of them are alike. -/
structure Comparison where
  host : Host
  host' : Host
  errors : Error → Error → Prop
  lines : List JournalLine → List JournalLine → Prop
  resolverName_eq : host'.resolverName = host.resolverName
  samples_eq : host'.samples = host.samples
  draws_eq : host'.draws = host.draws
  lines_refl (ls : List JournalLine) : lines ls ls
  lines_append {as as' bs bs' : List JournalLine} :
    lines as as' → lines bs bs' → lines (as ++ bs) (as' ++ bs')
  errors_refl (e : Error) : errors e e
  errors_root {e e' : Error} : errors e e' → errors e.root e'.root
  isRetryable_eq {e e' : Error} : errors e e' → e'.isRetryable = e.isRetryable
  disposed_iff {e e' : Error} : errors e e' → (e' = .disposed ↔ e = .disposed)
  attempted {e e' : Error} (now id : Nat) : errors e e' →
    lines [⟨now, .attempted id (.error e)⟩] [⟨now, .attempted id (.error e')⟩]
  retried {e e' : Error} (p : RetryPolicy) (now attempt delay : Nat) : errors e e' →
    e.isRetryable = true → lines (reports now (p.signals operation attempt delay e))
      (reports now (p.signals operation attempt delay e'))
  captured (now captured : Nat) (event : TelemetryEvent) :
    lines (reports now (captureSignals host captured event))
      (reports now (captureSignals host' captured event))
  answered {e e' : Error} (captured now id : Nat) (recorded : Bool) (elapsed : Nat)
    (r : Request) : errors e e' →
    lines (failureLines host captured now id recorded elapsed r e)
      (failureLines host' captured now id recorded elapsed r e')

/-- **Two services are twins**: they are the same but for their journals,
which are alike. -/
def Twins (k : Comparison) (s t : Service α) : Prop :=
  ∃ journal, t = { s with journal } ∧ k.lines s.journal journal

namespace Twins

variable {k : Comparison} {result result' : Except Error CapabilitySet}

theorem refl (k : Comparison) (s : Service α) : Twins k s s := ⟨_, rfl, k.lines_refl _⟩

/-- What does not depend on the journal is the same for both. -/
theorem part_eq {β : Type} (h : Twins k s t) (part : Service α → β)
    (hpart : ∀ (s : Service α) (journal : List JournalLine),
      part { s with journal } = part s) : part t = part s := by
  obtain ⟨journal, rfl, -⟩ := h
  exact hpart s journal

/-- Alike lines are added to the journals. -/
theorem grow {ls ls' : List JournalLine} (h : Twins k s t) (hlines : k.lines ls ls') :
    Twins k { s with journal := ls ++ s.journal } { t with journal := ls' ++ t.journal } := by
  obtain ⟨journal, rfl, hjournal⟩ := h
  exact ⟨_, rfl, k.lines_append hlines hjournal⟩

theorem note (h : Twins k s t) (now : Nat) (o : Occurrence) :
    Twins k (s.note now o) (t.note now o) :=
  h.grow (k.lines_refl [⟨now, o⟩])

theorem report (h : Twins k s t) (now : Nat) (signals : List Signal) :
    Twins k (s.report now signals) (t.report now signals) :=
  h.grow (k.lines_refl (reports now signals))

/-- A change that has nothing to do with the journal is made to both. -/
theorem update (h : Twins k s t) (change : Service α → Service α)
    (hchange : ∀ (s : Service α) (journal : List JournalLine),
      change { s with journal } = { change s with journal })
    (hjournal : ∀ s, (change s).journal = s.journal) : Twins k (change s) (change t) := by
  obtain ⟨journal, rfl, hlines⟩ := h
  refine ⟨journal, hchange s journal, ?_⟩
  rwa [hjournal]

theorem setCall (h : Twins k s t) : Twins k (s.setCall id c) (t.setCall id c) :=
  h.update (·.setCall id c) (fun _ _ => rfl) fun _ => rfl

theorem dropCall (h : Twins k s t) : Twins k (s.dropCall id) (t.dropCall id) :=
  h.update (·.dropCall id) (fun _ _ => rfl) fun _ => rfl

/-! ## The end of a call -/

theorem recordsDuration_eq (k : Comparison) (rate : Float) (id : Nat) :
    recordsDuration k.host' rate id = recordsDuration k.host rate id := by
  simp only [recordsDuration, k.samples_eq]

theorem capture (h : Twins k s t) (e : TelemetryEvent) :
    Twins k (s.capture k.host now e) (t.capture k.host' now e) := by
  obtain ⟨journal, rfl, hjournal⟩ := h
  exact ⟨_, rfl, k.lines_append (k.captured now s.captured e) hjournal⟩

theorem answer (h : Twins k s t) (hresult : ResultsAlike k.errors result result') :
    Twins k (s.answer k.host now id r start result) (t.answer k.host' now id r start result') := by
  cases hresult with
  | ok v =>
    obtain ⟨journal, rfl, hjournal⟩ := h
    have hrecorded := recordsDuration_eq k s.settings.sampleRate id
    simp only [Service.answer, hrecorded]
    have hreported := report ⟨journal, rfl, hjournal⟩ now
      (resultSignals (recordsDuration k.host s.settings.sampleRate id) (now - start) (.ok v))
    exact (dropCall hreported).note _ _
  | @error e e' halike =>
    obtain ⟨journal, rfl, hjournal⟩ := h
    -- the sinks have been handed as many events, whatever they made of them
    have hcount : (if e' = .disposed then 0 else 1) = if e = .disposed then 0 else 1 := by
      simp only [k.disposed_iff halike]
    rw [answer_error, answer_error, hcount, recordsDuration_eq]
    exact ⟨_, rfl, k.lines_append (k.answered _ _ _ _ _ _ halike) hjournal⟩

theorem recordOutcome (h : Twins k s t) (now id : Nat) (succeeded : Bool) :
    Twins k (s.recordOutcome now id succeeded) (t.recordOutcome now id succeeded) := by
  obtain ⟨journal, rfl, hjournal⟩ := h
  simp only [Service.recordOutcome]
  refine note (report ?_ _ _) _ _
  exact ⟨journal, rfl, hjournal⟩

theorem store (h : Twins k s t) (now id : Nat) (key : CacheKey) (v : CapabilitySet) :
    Twins k (s.store now id key v) (t.store now id key v) := by
  obtain ⟨journal, rfl, hjournal⟩ := h
  simp only [Service.store]
  refine note (report ?_ _ _) _ _
  exact ⟨journal, rfl, hjournal⟩

theorem settle (h : Twins k s t) (hresult : ResultsAlike k.errors result result') :
    Twins k (s.settle k.host now id c result) (t.settle k.host' now id c result') := by
  cases hresult with
  | ok v =>
    simp only [Service.settle, k.resolverName_eq]
    have hstored := (h.recordOutcome now id true).store now id c.request.cacheKey v
    exact (hstored.capture _).answer (.ok v)
  | error halike =>
    simp only [Service.settle, RetryPolicy.root_exhausted]
    exact (h.recordOutcome now id false).answer (.error (k.errors_root halike))

/-! ## Attempts -/

theorem attempted (h : Twins k s t) (now id : Nat)
    (hresult : ResultsAlike k.errors result result') :
    Twins k (s.note now (.attempted id result)) (t.note now (.attempted id result')) := by
  cases hresult with
  | ok v => exact h.note _ _
  | error halike => exact h.grow (k.attempted now id halike)

/-- Alike results are the last or not alike. -/
theorem verdict_eq (hresult : ResultsAlike k.errors result result') (p : RetryPolicy)
    (draw : Backoff.Draw) (attempt : Nat) :
    p.verdict draw attempt result' = p.verdict draw attempt result := by
  cases hresult with
  | ok v => rfl
  | error halike => simp only [RetryPolicy.verdict, k.isRetryable_eq halike]

theorem endAttempt (h : Twins k s t) (hresult : ResultsAlike k.errors result result') :
    Twins k (s.endAttempt k.host now id c result) (t.endAttempt k.host' now id c result') := by
  have hattempted := h.attempted now id hresult
  obtain ⟨journal, rfl, -⟩ := h
  -- the policy says the same of both results, so both calls go on or both are settled
  simp only [Service.endAttempt, Service.note, k.draws_eq, verdict_eq hresult]
  cases hresult with
  | ok v => exact hattempted.settle (.ok v)
  | @error e e' halike =>
    cases hverdict : s.settings.retry.verdict (k.host.draws id c.attempt) c.attempt
        (.error e : Except Error CapabilitySet) with
    | final => exact hattempted.settle (.error halike)
    | again delay =>
      refine setCall (hattempted.grow ?_)
      have hagain := (RetryPolicy.of_verdict_again hverdict).1
      exact k.retried s.settings.retry now c.attempt delay halike hagain

theorem invoke (h : Twins k s t) (now id : Nat) (c : Call) (limit : Option WaitLimit) :
    Twins k (s.invoke now id c limit) (t.invoke now id c limit) := by
  obtain ⟨journal, rfl, hjournal⟩ := h
  simp only [Service.invoke]
  refine note (setCall ?_) _ _
  exact ⟨journal, rfl, hjournal⟩

theorem beginAttempt (h : Twins k s t) (now id : Nat) (c : Call) :
    Twins k (s.beginAttempt now id c) (t.beginAttempt now id c) := by
  obtain ⟨journal, rfl, hjournal⟩ := h
  simp only [Service.beginAttempt]
  split
  · refine invoke ?_ _ _ _ _
    exact ⟨journal, rfl, hjournal⟩
  · refine setCall ?_
    exact ⟨journal, rfl, hjournal⟩

/-! ## The gates -/

theorem enterCircuit (h : Twins k s t) (now id : Nat) (r : Request) :
    Twins k (s.enterCircuit k.host now id r) (t.enterCircuit k.host' now id r) := by
  obtain ⟨journal, rfl, hjournal⟩ := h
  simp only [Service.enterCircuit]
  split
  · refine answer (report ?_ _ _) (.error (k.errors_refl _))
    exact ⟨journal, rfl, hjournal⟩
  · refine beginAttempt (note (report ?_ _ _) _ _) _ _ _
    exact ⟨journal, rfl, hjournal⟩

theorem enterCache (h : Twins k s t) (now id : Nat) (r : Request) :
    Twins k (s.enterCache k.host now id r) (t.enterCache k.host' now id r) := by
  obtain ⟨journal, rfl, hjournal⟩ := h
  simp only [Service.enterCache]
  split
  · refine answer (report ?_ _ _) (.ok _)
    exact ⟨journal, rfl, hjournal⟩
  · refine enterCircuit (report ?_ _ _) _ _ _
    exact ⟨journal, rfl, hjournal⟩

theorem enterBucket [Scalar α] (h : Twins k s t) (now id : Nat) (r : Request) :
    Twins k (s.enterBucket k.host now id r) (t.enterBucket k.host' now id r) := by
  obtain ⟨journal, rfl, hjournal⟩ := h
  have hrated := k.lines_append (k.lines_refl [⟨now, .rated id (s.bucket.consume now).2⟩]) hjournal
  simp only [Service.enterBucket]
  split
  · refine enterCache ?_ _ _ _
    exact ⟨_, rfl, hrated⟩
  · refine answer (report ?_ _ _) (.error (k.errors_refl _))
    exact ⟨_, rfl, hrated⟩

theorem begin (h : Twins k s t) (now : Nat) (r : Request) :
    Twins k (s.begin now r) (t.begin now r) := by
  obtain ⟨journal, rfl, hjournal⟩ := h
  refine note ?_ _ _
  exact ⟨journal, rfl, hjournal⟩

theorem ask [Scalar α] (h : Twins k s t) (now : Nat) (r : Request) :
    Twins k (s.ask k.host now r) (t.ask k.host' now r) := by
  have hbegun := h.begin now r
  rw [ask_eq, ask_eq, h.part_eq isDisposed fun _ _ => rfl, h.part_eq settings fun _ _ => rfl,
    h.part_eq asked fun _ _ => rfl]
  split
  · exact hbegun.answer (.error (k.errors_refl _))
  · split
    · exact hbegun.answer (.error (k.errors_refl _))
    · exact hbegun.enterBucket _ _ _

/-! ## The course of a call -/

/-- A step that both take, or neither. -/
def Both (k : Comparison) : Option (Service α) → Option (Service α) → Prop :=
  Option.Rel (Twins k)

/-- What both do with the same thing, if it is there. -/
theorem both_bind {β : Type} (x? : Option β) {next next' : β → Option (Service α)}
    (h : ∀ x, Both k (next x) (next' x)) : Both k (x? >>= next) (x? >>= next') := by
  cases x? with
  | none => exact .none
  | some x => exact h x

theorem leaveLock (h : Twins k s t) (id : Nat) : Twins k (s.leaveLock id) (t.leaveLock id) :=
  h.update (·.leaveLock id) (fun _ _ => rfl) fun _ => rfl

theorem call?_eq (h : Twins k s t) (id : Nat) : t.call? id = s.call? id :=
  h.part_eq (·.call? id) fun _ _ => rfl

theorem giveUp (h : Twins k s t) (now id : Nat) (c : Call) (o : Occurrence) :
    Twins k (s.giveUp now id c o) (t.giveUp now id c o) := by
  obtain ⟨journal, rfl, hjournal⟩ := h
  simp only [Service.giveUp]
  refine note (dropCall ?_) _ _
  exact ⟨journal, rfl, hjournal⟩

/-- An attempt whose limit is reached ends for both. -/
theorem timeOut (h : Twins k s t) (now id : Nat) (c : Call) (limit : Option WaitLimit) :
    Both k
      (if isOver now limit then
        some ((s.leaveLock id).endAttempt k.host now id c (.error (attemptTimeout limit)))
      else none)
      (if isOver now limit then
        some ((t.leaveLock id).endAttempt k.host' now id c (.error (attemptTimeout limit)))
      else none) := by
  split
  · exact .some ((h.leaveLock id).endAttempt (.error (k.errors_refl _)))
  · exact .none

theorem poll? (h : Twins k s t) (now id : Nat) :
    Both k (s.poll? k.host now id) (t.poll? k.host' now id) := by
  rw [Service.poll?, Service.poll?, h.call?_eq]
  refine both_bind _ fun c => ?_
  cases c.stage with
  | waiting limit =>
    have htimeOut := h.timeOut now id c limit
    obtain ⟨journal, rfl, hjournal⟩ := h
    cases hlook : s.lock.look now id with
    | mk lock look =>
      cases look with
      | acquired =>
        refine .some (invoke ?_ _ _ _ _)
        exact ⟨journal, rfl, hjournal⟩
      | timedOut after =>
        refine .some (endAttempt ?_ (.error (k.errors_refl _)))
        exact ⟨journal, rfl, hjournal⟩
      | _ => exact htimeOut
  | resolving invocation since limit => exact h.timeOut now id c limit
  | pausing wakeAt =>
    simp only
    split
    · exact .none
    · exact .some (h.beginAttempt _ _ _)

theorem reply? (h : Twins k s t) (now id : Nat) (hresult : ResultsAlike k.errors result result') :
    Both k (s.reply? k.host now id (.done result)) (t.reply? k.host' now id (.done result')) := by
  rw [Service.reply?, Service.reply?, h.call?_eq]
  refine both_bind _ fun c => ?_
  cases c.stage with
  | resolving => exact .some ((h.leaveLock id).endAttempt hresult)
  | _ => exact .none

theorem panic? (h : Twins k s t) (now id : Nat) :
    Both k (s.reply? k.host now id .panicked) (t.reply? k.host' now id .panicked) := by
  rw [Service.reply?, Service.reply?, h.call?_eq]
  refine both_bind _ fun c => ?_
  cases c.stage with
  | resolving => exact .some (h.giveUp _ _ _ _)
  | _ => exact .none

/-- The resolver replies the same to both. -/
theorem sameReply? (h : Twins k s t) (now id : Nat) (reply : Reply CapabilitySet) :
    Both k (s.reply? k.host now id reply) (t.reply? k.host' now id reply) := by
  cases reply with
  | panicked => exact h.panic? now id
  | done result =>
    cases result with
    | ok v => exact h.reply? now id (.ok v)
    | error e => exact h.reply? now id (.error (k.errors_refl e))

theorem abandon? (h : Twins k s t) (now id : Nat) :
    Both k (s.abandon? now id) (t.abandon? now id) := by
  rw [Service.abandon?, Service.abandon?, h.call?_eq]
  exact both_bind _ fun c => .some (h.giveUp _ _ _ _)

/-! ## Upkeep -/

theorem clearCache (h : Twins k s t) : Twins k s.clearCache t.clearCache :=
  h.update (·.clearCache) (fun _ _ => rfl) fun _ => rfl

theorem sweep (h : Twins k s t) (now : Nat) : Twins k (s.sweep now) (t.sweep now) := by
  obtain ⟨journal, rfl, hjournal⟩ := h
  simp only [Service.sweep]
  refine report ?_ _ _
  exact ⟨journal, rfl, hjournal⟩

theorem onPressure (h : Twins k s t) (now : Nat) (level : PressureLevel) :
    Twins k (s.onPressure k.host now level) (t.onPressure k.host' now level) := by
  simp only [Service.onPressure, h.part_eq cache fun _ _ => rfl]
  exact (h.clearCache.report _ _).capture _

theorem reclaim (h : Twins k s t) (now : Nat) : Twins k (s.reclaim now) (t.reclaim now) :=
  (h.report _ _).note _ _

theorem follow (h : Twins k s t) (now : Nat) (f : PressureMonitor.Finding) :
    Twins k (s.follow k.host now f) (t.follow k.host' now f) := by
  have hreported := h.report now f.signals
  simp only [Service.follow]
  cases f.handled? with
  | none =>
    split
    · exact hreported.reclaim now
    · exact hreported
  | some level =>
    split
    · exact (hreported.onPressure now level).reclaim now
    · exact hreported.onPressure now level

theorem checkMemory (h : Twins k s t) (now : Nat) (reading : Except Error MemoryUsage) :
    Twins k (s.checkMemory k.host now reading) (t.checkMemory k.host' now reading) := by
  obtain ⟨journal, rfl, hjournal⟩ := h
  simp only [Service.checkMemory]
  refine follow ?_ _ _
  exact ⟨journal, rfl, hjournal⟩

theorem setSweeper (h : Twins k s t) (sweeper : Option Ticker) :
    Twins k { s with sweeper } { t with sweeper } :=
  h.update (fun s => { s with sweeper }) (fun _ _ => rfl) fun _ => rfl

theorem setWatcher (h : Twins k s t) (watcher : Option Ticker) :
    Twins k { s with watcher } { t with watcher } :=
  h.update (fun s => { s with watcher }) (fun _ _ => rfl) fun _ => rfl

theorem sweepTick? (h : Twins k s t) (now : Nat) :
    Both k (s.sweepTick? now) (t.sweepTick? now) := by
  rw [Service.sweepTick?, Service.sweepTick?, h.part_eq sweeper fun _ _ => rfl]
  refine both_bind _ fun old => both_bind _ fun ticker => .some ?_
  exact (h.setSweeper (some ticker)).sweep now

theorem watchTick? (h : Twins k s t) (now : Nat) (reading : Except Error MemoryUsage) :
    Both k (s.watchTick? k.host now reading) (t.watchTick? k.host' now reading) := by
  rw [Service.watchTick?, Service.watchTick?, h.part_eq watcher fun _ _ => rfl]
  refine both_bind _ fun old => both_bind _ fun ticker => .some ?_
  exact (h.setWatcher (some ticker)).checkMemory now reading

theorem readBucket [Scalar α] (h : Twins k s t) (now : Nat) :
    Twins k (s.readBucket now).1 (t.readBucket now).1 :=
  h.update (fun s => (s.readBucket now).1) (fun _ _ => rfl) fun _ => rfl

theorem dispose (h : Twins k s t) (now : Nat) : Twins k (s.dispose now) (t.dispose now) := by
  obtain ⟨journal, rfl, hjournal⟩ := h
  simp only [Service.dispose]
  by_cases hdisposed : s.isDisposed = true
  · rw [if_pos hdisposed, if_pos hdisposed]
    exact ⟨journal, rfl, hjournal⟩
  · rw [if_neg hdisposed, if_neg hdisposed]
    refine report ?_ _ _
    exact ⟨journal, rfl, hjournal⟩

/-! ## Histories -/

/-- A step that may not be possible, for both or for neither. -/
theorem getD {next? next'? : Option (Service α)} (h : Twins k s t)
    (hnext : Both k next? next'?) : Twins k (next?.getD s) (next'?.getD t) := by
  cases hnext with
  | none => exact h
  | some hnext => exact hnext

/-- **Twins stay twins** by alike events. -/
theorem step [Scalar α] (h : Twins k s t) {event event' : Nat × Event}
    (hevent : EventsAlike k.errors event event') :
    Twins k (s.step k.host event.1 event.2) (t.step k.host' event'.1 event'.2) := by
  cases hevent with
  | replied now id halike => exact h.getD (h.reply? now id halike)
  | same =>
    obtain ⟨now, event⟩ := event
    cases event with
    | ask r => exact h.ask now r
    | poll id => exact h.getD (h.poll? now id)
    | reply id reply => exact h.getD (h.sameReply? now id reply)
    | abandon id => exact h.getD (h.abandon? now id)
    | clearCache => exact h.clearCache
    | sweep => exact h.sweep now
    | checkMemory reading => exact h.checkMemory now reading
    | sweepTick => exact h.getD (h.sweepTick? now)
    | watchTick reading => exact h.getD (h.watchTick? now reading)
    | readBucket => exact h.readBucket now
    | dispose => exact h.dispose now

/-- **Twins stay twins** by alike histories. -/
theorem run [Scalar α] (h : Twins k s t) {events events' : List (Nat × Event)}
    (hevents : List.Forall₂ (EventsAlike k.errors) events events') :
    Twins k (s.run k.host events) (t.run k.host' events') := by
  induction hevents generalizing s t with
  | nil => exact h
  | cons hevent _ ih => exact ih (h.step hevent)

end Twins

end Service

end CapabilityBroker
