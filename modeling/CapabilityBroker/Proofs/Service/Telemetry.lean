import CapabilityBroker.Proofs.Service.TwinSessions
/-!
# What the sink of events decides

Two services with different sinks. A sink may take an event, log lines of
its own, fail or panic, and all of it ends up in the log. Apart from the
lines of the log (`unlogged`) the services are the same after every history
and after every session: with the same parts, calls that end alike, the
same askings of the resolver at the same instants, the same events and the
same metrics (`sink_decides_nothing`).
-/

namespace CapabilityBroker

namespace Service

/-- Whether an occurrence is a line of the log. -/
def Occurrence.isLogged : Occurrence → Bool
  | .reported (.log _) => true
  | _ => false

/-- The lines of a journal that are none of the log. -/
def unlogged (ls : List JournalLine) : List JournalLine :=
  ls.filter fun l => !l.occurrence.isLogged

/-- A service as it is apart from the lines of its log. -/
def apartFromLog {α : Type} (s : Service α) : Service α := { s with journal := unlogged s.journal }

variable {α : Type} {s t : Service α} {as bs : List JournalLine}

/-! ## What shows apart from the log -/

/-- What is picked among the lines that are none of the log. -/
theorem filterMap_unlogged {β : Type} {pick : JournalLine → Option β}
    (hpick : ∀ l, l.occurrence.isLogged = true → pick l = none) (ls : List JournalLine) :
    (unlogged ls).filterMap pick = ls.filterMap pick := by
  rw [unlogged, List.filterMap_filter]
  refine List.filterMap_congr fun l _ => ?_
  cases hl : l.occurrence.isLogged with
  | true => simp [hpick l hl]
  | false => simp

/-- The asking of the resolver that a line tells of: its instant, the call
and the key. -/
def JournalLine.asking? (l : JournalLine) : Option (Nat × Nat × CacheKey) :=
  match l.occurrence with
  | .invoked id key => some (l.time, id, key)
  | _ => none

/-- The askings of the resolver, in order. -/
def askings (s : Service α) : List (Nat × Nat × CacheKey) :=
  s.history.filterMap JournalLine.asking?

/-- **Two services are the same but for the lines of their logs.** Their
calls ended alike at the same instants, they asked the resolver for the
same calls at the same instants, and they reported the same events and
metrics. -/
structure SameButLog (s t : Service α) : Prop where
  apartFromLog_eq : s.apartFromLog = t.apartFromLog
  bucket_eq : s.bucket = t.bucket
  cache_eq : s.cache = t.cache
  breaker_eq : s.breaker = t.breaker
  lock_eq : s.lock = t.lock
  monitor_eq : s.monitor = t.monitor
  ending?_eq (id : Nat) : s.ending? id = t.ending? id
  askings_eq : s.askings = t.askings
  events_eq : Signal.events s.signals = Signal.events t.signals
  counters_eq : Signal.counters s.signals = Signal.counters t.signals
  durations_eq : Signal.durations s.signals = Signal.durations t.signals

/-- What is picked of two services that are the same apart from their
logs. -/
theorem filterMap_history_eq (h : s.apartFromLog = t.apartFromLog) {β : Type}
    {pick : JournalLine → Option β}
    (hpick : ∀ l, l.occurrence.isLogged = true → pick l = none) :
    s.history.filterMap pick = t.history.filterMap pick := by
  have hjournal : unlogged s.journal = unlogged t.journal := congrArg journal h
  rw [history, history, List.filterMap_reverse, List.filterMap_reverse,
    ← filterMap_unlogged hpick s.journal, hjournal, filterMap_unlogged hpick]

/-- What is picked of the signals, if it is no line of the log. -/
theorem filterMap_signals_eq (h : s.apartFromLog = t.apartFromLog) {β : Type}
    {pick : Signal → Option β} (hpick : ∀ line, pick (.log line) = none) :
    s.signals.filterMap pick = t.signals.filterMap pick := by
  rw [signals, signals, List.filterMap_filterMap, List.filterMap_filterMap]
  refine filterMap_history_eq h fun l hl => ?_
  obtain ⟨now, o⟩ := l
  cases o with
  | reported x =>
    cases x with
    | log line => exact hpick line
    | _ => cases hl
  | _ => cases hl

theorem ending?_eq_of_apart (h : s.apartFromLog = t.apartFromLog) (id : Nat) :
    s.ending? id = t.ending? id := by
  have hjournal : unlogged s.journal = unlogged t.journal := congrArg journal h
  have hpick (l : JournalLine) (hl : l.occurrence.isLogged = true) :
      (l.occurrence.ending? id).map (l.time, ·) = none := by
    obtain ⟨now, o⟩ := l
    cases o with
    | reported => rfl
    | _ => cases hl
  rw [ending?, ending?, ← List.head?_filterMap, ← List.head?_filterMap,
    ← filterMap_unlogged hpick s.journal, hjournal, filterMap_unlogged hpick]

theorem SameButLog.of_apart (h : s.apartFromLog = t.apartFromLog) : SameButLog s t where
  apartFromLog_eq := h
  bucket_eq := (congrArg bucket h :)
  cache_eq := (congrArg cache h :)
  breaker_eq := (congrArg breaker h :)
  lock_eq := (congrArg lock h :)
  monitor_eq := (congrArg monitor h :)
  ending?_eq := ending?_eq_of_apart h
  askings_eq := by
    refine filterMap_history_eq h fun l hl => ?_
    obtain ⟨now, o⟩ := l
    cases o with
    | reported => rfl
    | _ => cases hl
  events_eq := filterMap_signals_eq h fun _ => rfl
  counters_eq := filterMap_signals_eq h fun _ => rfl
  durations_eq := filterMap_signals_eq h fun _ => rfl

/-! ## Two sinks -/

theorem unlogged_append : unlogged (as ++ bs) = unlogged as ++ unlogged bs := List.filter_append _ _

/-- What a sink logs of an event is no more than that. -/
theorem unlogged_captureSignals {now captured : Nat} {host : Host} {e : TelemetryEvent} :
    unlogged (reports now (captureSignals host captured e)) = [⟨now, .reported (.event e)⟩] := by
  have hlines (lines : List LogLine) : unlogged (reports now (lines.map .log)) = [] := by
    simp [unlogged, reports, Occurrence.isLogged]
  have hsplit : captureSignals host captured e =
      [.event e] ++ ((host.sink captured e).lines e).map .log := rfl
  rw [hsplit, reports_append, unlogged_append, hlines]
  rfl

/-- Nor is what is logged of a call that ends with an error. -/
theorem unlogged_failureLines {now captured id elapsed : Nat} {recorded : Bool} {r : Request}
    {host : Host} {e : Error} :
    unlogged (failureLines host captured now id recorded elapsed r e) =
      ⟨now, .answered id (.error e)⟩ ::
        ((if e = .disposed then [] else [⟨now, .reported (.event (.failed e r.browserEnabled))⟩]) ++
          unlogged (reports now (resultSignals recorded elapsed (.error e)))) := by
  have hcons (ls : List JournalLine) :
      unlogged (⟨now, .answered id (.error e)⟩ :: ls) =
        ⟨now, .answered id (.error e)⟩ :: unlogged ls := rfl
  rw [failureLines, hcons, reports_append, unlogged_append]
  split
  · rfl
  · rw [reports_cons, unlogged_append, unlogged_captureSignals]
    rfl

/-- Two sinks are compared. -/
def sinksAside (host : Host) (a b : Sink) : Comparison where
  host := { host with sink := a }
  host' := { host with sink := b }
  errors := Eq
  lines as bs := unlogged as = unlogged bs
  resolverName_eq := rfl
  samples_eq := rfl
  draws_eq := rfl
  lines_refl _ := rfl
  lines_append h h' := by rw [unlogged_append, unlogged_append, h, h']
  errors_refl _ := rfl
  errors_root h := congrArg Error.root h
  isRetryable_eq h := by rw [h]
  disposed_iff h := by rw [h]
  attempted _ _ h := by rw [h]
  retried _ _ _ _ h _ := by rw [h]
  captured _ _ _ := by rw [unlogged_captureSignals, unlogged_captureSignals]
  answered _ _ _ _ _ _ h := by rw [h, unlogged_failureLines, unlogged_failureLines]

theorem twins_sinksAside {host : Host} {a b : Sink} :
    Twins (sinksAside host a b) s t ↔ s.apartFromLog = t.apartFromLog := by
  constructor
  · rintro ⟨journal, rfl, hjournal⟩
    have hjournal : unlogged s.journal = unlogged journal := hjournal
    simp only [apartFromLog, hjournal]
  · intro h
    cases s
    cases t
    simp only [apartFromLog, Service.mk.injEq] at h
    obtain ⟨rfl, rfl, rfl, rfl, rfl, rfl, rfl, rfl, rfl, rfl, rfl, rfl, rfl, hjournal⟩ := h
    exact ⟨_, rfl, hjournal⟩

theorem Session.endings_eq {x y : Session α} (hservices : SameButLog x.service y.service)
    (hcallers : x.callers = y.callers) : x.endings = y.endings := by
  simp only [endings, hcallers, hservices.ending?_eq]

/-- **A sink decides nothing.** Two services that are the same but for
their logs stay so with two sinks, whatever these do with the events:
through every history, and through every session of the same callers with
the same resolver, which ends at the same instant for both, with every call
ended alike. Services that start with two sinks are the same but for their
logs from the beginning. -/
theorem sink_decides_nothing [Scalar α] (host : Host) (a b : Sink) (s t : Service α)
    (h : s.apartFromLog = t.apartFromLog) :
    (∀ events, SameButLog (s.run { host with sink := a } events)
      (t.run { host with sink := b } events)) ∧
    (∀ (resolver : Resolver) (reading : Except Error MemoryUsage) (now last : Nat)
      (callers : List Caller),
      let x := Session.run ⟨{ host with sink := a }, resolver, reading⟩ s now last callers
      let y := Session.run ⟨{ host with sink := b }, resolver, reading⟩ t now last callers
      x.1 = y.1 ∧ x.2.callers = y.2.callers ∧ x.2.endings = y.2.endings ∧
        SameButLog x.2.service y.2.service) ∧
    ∀ (resolver : Resolver) (reading : Except Error MemoryUsage) (settings : ServiceSettings)
      (canReclaim background : Bool) (now : Nat),
      (Scenario.start? ⟨{ host with sink := a }, resolver, reading⟩ settings canReclaim background
          now : Except Error (Service α)).map apartFromLog =
        (Scenario.start? ⟨{ host with sink := b }, resolver, reading⟩ settings canReclaim
          background now).map apartFromLog := by
  have htwins : Twins (sinksAside host a b) s t := twins_sinksAside.mpr h
  refine ⟨fun events => ?_, fun resolver reading now last callers => ?_, ?_⟩
  · have hevents : List.Forall₂ (EventsAlike (sinksAside host a b).errors) events events :=
      List.forall₂_same.mpr fun event _ => .same event
    exact .of_apart (twins_sinksAside.mp (htwins.run hevents))
  · obtain ⟨hinstant, hsessions⟩ :=
      Session.run_twins htwins resolver reading now last callers
    have hservices : SameButLog _ _ := .of_apart (twins_sinksAside.mp hsessions.services)
    have hcallers := hsessions.callers_eq.symm
    exact ⟨hinstant.symm, hcallers, Session.endings_eq hservices hcallers, hservices⟩
  · intro resolver reading settings canReclaim background now
    have hstart : (Service.start? { host with sink := b } settings canReclaim background true now :
        Except Error (Service α)) =
        Service.start? { host with sink := a } settings canReclaim background true now := rfl
    rw [Scenario.start?, Scenario.start?, hstart]
    cases (Service.start? { host with sink := a } settings canReclaim background true now :
        Except Error (Service α)) with
    | error e => simp only [Except.map]
    | ok s =>
      have hsame : Twins (sinksAside host a b) s s := Twins.refl _ s
      simp only [Except.map, Except.ok.injEq]
      exact twins_sinksAside.mp (hsame.getD (hsame.watchTick? now reading))

/-- A service with a sink, whose resolver gives one answer and then fails. -/
def reporting (sink : Sink) : Service Rat :=
  (Service.start silentHost {} false false 0).run { silentHost with sink }
    [(0, .ask { configuration := some {} }), (1, .reply 0 (.done (.ok .empty))),
      (2, .ask { configuration := some {}, browserEnabled := true }),
      (3, .reply 1 (.done (.error (.configuration "no catalog"))))]

/-- A sink that panics is written about, and that is all. -/
theorem panics_are_only_logged :
    SameButLog (reporting fun _ _ => .panicked) (reporting .silent) ∧
      (reporting fun _ _ => .panicked).captured = 2 ∧
      (reporting fun _ _ => .panicked).journal.length = (reporting .silent).journal.length + 2 := by
  obtain ⟨hruns, -, -⟩ := sink_decides_nothing silentHost (fun _ _ => .panicked) .silent
    (Service.start silentHost {} false false 0 : Service Rat) _ rfl
  refine ⟨hruns _, by decide +kernel, by decide +kernel⟩

end Service

end CapabilityBroker
