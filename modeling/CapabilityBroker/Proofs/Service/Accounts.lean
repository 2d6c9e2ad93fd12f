import Mathlib.Algebra.Ring.Int.Defs
import CapabilityBroker.Proofs.Cache.Lookups
import CapabilityBroker.Proofs.Service.Twins
/-!
# The accounts of a service

What occurs to the calls of a service is counted a second time, by its
metrics and its events, and some of it a third time, by the cache. Each
account holds one of these counts against another (`Account`). An event
may come to either side first, but before it is over the other side has
followed: every event leaves every balance as it was (`balance_step`), and
so does every history (`balance_run`).
-/

namespace CapabilityBroker

namespace Service

/-! ## Accounts -/

/-- What is held against what. -/
inductive Account where
  /-- Answered calls, against the counter of requests. -/
  | requests
  /-- Tokens that calls were given, against the counters of hits and
  misses. -/
  | lookups
  /-- Tokens that calls were refused, against their counter. -/
  | refusals
  /-- Answers, against hits and resolved calls. -/
  | successes
  /-- Errors, against failed calls. -/
  | failures
  /-- Attempts, against those that are the last of a call and the counter of
  retries. -/
  | retries
  /-- The hits of the cache, against their counter. -/
  | hits
  /-- The misses of the cache, against their counter. -/
  | misses
  deriving DecidableEq

namespace Account

/-- The occurrences that an account is charged with. -/
def charges : Account → Occurrence → Bool
  | requests, .answered _ _ => true
  | lookups, .rated _ passes => passes
  | refusals, .rated _ passes => !passes
  | successes, .answered _ result => result.isOk
  | failures, .answered _ (.error e) => e ≠ .disposed
  | retries, .attempted _ _ => true
  | _, _ => false

/-- The metrics that an account is credited with, by their names. -/
def metrics : Account → List String
  | requests => ["huginn_requests_total"]
  | lookups => ["huginn_cache_hits_total", "huginn_cache_misses_total"]
  | refusals => ["huginn_rate_limited_total"]
  | successes => ["huginn_cache_hits_total"]
  | failures => []
  | retries => ["huginn_retries_total"]
  | hits => ["huginn_cache_hits_total"]
  | misses => ["huginn_cache_misses_total"]

/-- The events that an account is credited with, by their names. -/
def events : Account → List String
  | successes => ["capabilities.determined"]
  | failures => ["capabilities.failed"]
  | _ => []

/-- Whether an account is credited with a signal. -/
def credits (a : Account) : Signal → Bool
  | .count c => a.metrics.contains c.name
  | .event e => a.events.contains e.name
  | _ => false

/-- What an occurrence is worth to an account. The last attempt of a call
is followed by no retry. -/
def worth (a : Account) : Occurrence → Int
  | .reported x => if a.credits x then -1 else 0
  | .recorded _ _ => if a = retries then -1 else 0
  | o => if a.charges o then 1 else 0

/-- What the lookups of a cache are worth to an account. -/
def held : Account → Nat × Nat → Nat
  | hits, found => found.1
  | misses, found => found.2
  | _, _ => 0

/-- One account among all. -/
def share (a b : Account) : Int := if a = b then 1 else 0

end Account

variable {α : Type} {host : Host} {s : Service α} {now id start : Nat} {c : Call} {r : Request}
  {a : Account}

/-- What lines are worth to an account. -/
def worthOf (a : Account) (ls : List JournalLine) : Int :=
  (ls.map fun l => a.worth l.occurrence).sum

/-- How often an account is credited with one of several signals. -/
def creditOf (a : Account) (signals : List Signal) : Int := signals.countP a.credits

/-- The balance of an account. -/
def balance (a : Account) (s : Service α) : Int :=
  (a.held s.cache.lookups : Int) + worthOf a s.journal

/-! ## Lines and signals -/

theorem worthOf_append (ls ms : List JournalLine) :
    worthOf a (ls ++ ms) = worthOf a ls + worthOf a ms := by
  simp [worthOf]

theorem worthOf_cons (l : JournalLine) (ls : List JournalLine) :
    worthOf a (l :: ls) = a.worth l.occurrence + worthOf a ls := by
  simp [worthOf]

theorem creditOf_cons (x : Signal) (xs : List Signal) :
    creditOf a (x :: xs) = (if a.credits x then 1 else 0) + creditOf a xs := by
  simp only [creditOf, List.countP_cons]
  split <;> omega

theorem creditOf_append (xs ys : List Signal) :
    creditOf a (xs ++ ys) = creditOf a xs + creditOf a ys := by
  simp [creditOf]

theorem worthOf_reports (signals : List Signal) :
    worthOf a (reports now signals) = -creditOf a signals := by
  induction signals with
  | nil => rfl
  | cons x xs ih =>
    have hx : worthOf a [⟨now, .reported x⟩] = -(if a.credits x then 1 else 0) := by
      simp only [worthOf, Account.worth, List.map_cons, List.map_nil, List.sum_cons, List.sum_nil]
      split <;> rfl
    rw [reports_cons, worthOf_append, creditOf_cons, ih, hx]
    omega

theorem balance_note (o : Occurrence) : (s.note now o).balance a = s.balance a + a.worth o := by
  have hline := worthOf_cons (a := a) ⟨now, o⟩ s.journal
  simp only [balance, note] at hline ⊢
  omega

theorem balance_report (signals : List Signal) :
    (s.report now signals).balance a = s.balance a - creditOf a signals := by
  have hreports : worthOf a (reports now signals) = -creditOf a signals := worthOf_reports signals
  have happend := worthOf_append (a := a) (reports now signals) s.journal
  simp only [balance, report, reports] at hreports happend ⊢
  omega

/-! ## What is reported -/

theorem creditOf_log (line : LogLine) : creditOf a [.log line] = 0 := rfl

theorem creditOf_logs (lines : List LogLine) : creditOf a (lines.map .log) = 0 := by
  induction lines with
  | nil => rfl
  | cons line lines ih =>
    rw [List.map_cons, creditOf_cons, ih]
    rfl

/-- Of every result, a request is counted. -/
theorem creditOf_resultSignals (recorded : Bool) (elapsed : Nat)
    (result : Except Error CapabilitySet) :
    creditOf a (resultSignals recorded elapsed result) = a.share .requests := by
  cases recorded <;> cases a <;> rfl

theorem creditOf_captureSignals (captured : Nat) (e : TelemetryEvent) :
    creditOf a (captureSignals host captured e) = if a.events.contains e.name then 1 else 0 := by
  rw [captureSignals, creditOf_cons, creditOf_logs]
  exact Int.add_zero _

theorem creditOf_retry (p : RetryPolicy) (attempt delay : Nat) (e : Error) :
    creditOf a (p.signals operation attempt delay e) = a.share .retries := by
  cases a <;> rfl

/-- A lookup is counted, and a hit is an answer too. -/
theorem creditOf_lookup (found : Cache.Lookup) :
    creditOf a found.signals = a.share .lookups +
      if found.isHit then a.share .successes + a.share .hits else a.share .misses := by
  cases found <;> cases a <;> rfl

theorem creditOf_rateLimited : creditOf a [.count .rateLimited] = a.share .refusals := by
  cases a <;> rfl

/-! What no account is about. -/

theorem creditOf_circuit (before after : CircuitBreaker) :
    creditOf a (CircuitBreaker.signals before after) = 0 := by
  unfold CircuitBreaker.signals
  split
  · rfl
  · cases a <;> rfl

theorem creditOf_eviction (reason : Cache.Reason) :
    a.credits (Cache.evictionSignal reason) = false := by
  cases a <;> rfl

theorem creditOf_evictions (reasons : List Cache.Reason) :
    creditOf a (reasons.map Cache.evictionSignal) = 0 := by
  induction reasons with
  | nil => rfl
  | cons reason reasons ih =>
    rw [List.map_cons, creditOf_cons, ih, creditOf_eviction]
    rfl

theorem creditOf_stored (maxBytes : Nat) (stored : Cache.Stored) :
    creditOf a (stored.signals maxBytes) = 0 := by
  cases stored with
  | refused => rfl
  | kept evicted =>
    have hevictions := creditOf_evictions (a := a) (evicted.map (·.1))
    rwa [List.map_map] at hevictions

theorem creditOf_sweep (expired reduced : Nat) : creditOf a (sweepSignals expired reduced) = 0 := by
  have hsame (n : Nat) (reason : Cache.Reason) :
      creditOf a (List.replicate n (Cache.evictionSignal reason)) = 0 := by
    have hevictions := creditOf_evictions (a := a) (List.replicate n reason)
    rwa [List.map_replicate] at hevictions
  have hlast : creditOf a (if 0 < expired + reduced then
      [Signal.log ⟨.debug, "capability cache sweep",
        [("expired", .nat expired), ("reduced", .nat reduced)]⟩] else []) = 0 := by
    split <;> rfl
  rw [sweepSignals, creditOf_append, creditOf_append, hsame, hsame, hlast]
  rfl

theorem creditOf_finding (f : PressureMonitor.Finding) : creditOf a f.signals = 0 := by
  cases f with
  | changed => cases a <;> rfl
  | _ => rfl

/-! ## The end of a call -/

theorem balance_capture (e : TelemetryEvent) :
    (s.capture host now e).balance a =
      s.balance a - if a.events.contains e.name then 1 else 0 := by
  have hreport : (s.report now (captureSignals host s.captured e)).balance a =
      s.balance a - creditOf a (captureSignals host s.captured e) := balance_report _
  rw [creditOf_captureSignals] at hreport
  exact hreport

theorem balance_reportFailure (e : Error) :
    (s.reportFailure host now r e).balance a =
      s.balance a - if e = .disposed then 0 else a.share .failures := by
  unfold reportFailure
  split
  · exact (Int.sub_zero _).symm
  · rw [balance_capture, balance_report, creditOf_log]
    cases a <;> simp [Account.events, Account.share, TelemetryEvent.failed]

/-- An answer is one whether it comes from the cache or not. -/
theorem balance_answer (result : Except Error CapabilitySet) :
    (s.answer host now id r start result).balance a =
      s.balance a + if result.isOk then a.share .successes else 0 := by
  have hcounted : (s.report now (resultSignals (recordsDuration host s.settings.sampleRate id)
      (now - start) result)).balance a = s.balance a - a.share .requests := by
    rw [balance_report, creditOf_resultSignals]
  rw [answer, balance_note]
  cases result with
  | ok v =>
    have hworth : a.worth (.answered id (.ok v)) = a.share .requests + a.share .successes := by
      cases a <;> rfl
    rw [hworth]
    change Service.balance a (s.report now _) + _ = _ + a.share .successes
    rw [hcounted]
    omega
  | error e =>
    have hworth : a.worth (.answered id (.error e)) =
        a.share .requests + if e = .disposed then 0 else a.share .failures := by
      by_cases he : e = .disposed <;> cases a <;>
        simp [he, Account.worth, Account.charges, Account.share, Except.isOk, Except.toBool]
    rw [hworth]
    change Service.balance a (reportFailure host (s.report now _) now r e) + _ = _ + 0
    rw [balance_reportFailure, hcounted]
    omega

theorem balance_recordOutcome (succeeded : Bool) :
    (s.recordOutcome now id succeeded).balance a = s.balance a - a.share .retries := by
  have hworth : a.worth (.recorded id succeeded) = -a.share .retries := by
    cases a <;> rfl
  rw [recordOutcome, balance_note, balance_report, creditOf_circuit, hworth]
  change s.balance a - 0 + _ = _
  omega

theorem balance_store (k : CacheKey) (v : CapabilitySet) :
    (s.store now id k v).balance a = s.balance a := by
  have hlookups : (s.cache.insert now k v).1.lookups = s.cache.lookups := Cache.lookups_insert
  have hworth : a.worth (.stored id k v (s.cache.insert now k v).2.isKept) = 0 := by
    cases a <;> rfl
  rw [store, balance_note, balance_report, creditOf_stored, hworth]
  change (a.held (s.cache.insert now k v).1.lookups : Int) + worthOf a s.journal - 0 + 0 = _
  rw [hlookups, balance]
  omega

theorem balance_settle (result : Except Error CapabilitySet) :
    (s.settle host now id c result).balance a = s.balance a - a.share .retries := by
  cases result with
  | ok v =>
    have hevent : (if a.events.contains (TelemetryEvent.determined host.resolverName v.size
        c.request.browserEnabled).name then (1 : Int) else 0) = a.share .successes := by
      cases a <;> simp [Account.events, Account.share, TelemetryEvent.determined]
    rw [settle, balance_answer, balance_capture, balance_store, balance_recordOutcome, hevent]
    change _ - _ + a.share .successes = _
    omega
  | error e =>
    rw [settle, balance_answer, balance_recordOutcome]
    exact Int.add_zero _

/-! ## Attempts -/

theorem balance_endAttempt (result : Except Error CapabilitySet) :
    (s.endAttempt host now id c result).balance a = s.balance a := by
  have hworth : a.worth (.attempted id result) = a.share .retries := by
    cases a <;> rfl
  have hsettle : ((s.note now (.attempted id result)).settle host now id c result).balance a =
      s.balance a := by
    rw [balance_settle, balance_note, hworth]
    omega
  -- the attempt is charged: a retry is counted for it, or it is the last of the call
  simp only [endAttempt]
  split
  · next delay e _ =>
    change ((s.note now _).report now _).balance a = _
    rw [balance_report, creditOf_retry, balance_note, hworth]
    omega
  · exact hsettle

theorem balance_invoke (limit : Option WaitLimit) :
    (s.invoke now id c limit).balance a = s.balance a := by
  have hworth : a.worth (.invoked id c.request.cacheKey) = 0 := by
    cases a <;> rfl
  rw [invoke, balance_note, hworth]
  exact Int.add_zero _

theorem balance_beginAttempt : (s.beginAttempt now id c).balance a = s.balance a := by
  obtain ⟨lock, limit, hwaits | hinvokes⟩ := beginAttempt_cases s now id c
  · rw [hwaits]
    rfl
  · rw [hinvokes, balance_invoke]
    rfl

/-! ## The gates -/

theorem balance_enterCircuit :
    (s.enterCircuit host now id r).balance a = s.balance a := by
  have hreported : (Service.report { s with breaker := (s.breaker.receive now).1 } now
      (CircuitBreaker.signals s.breaker (s.breaker.receive now).1)).balance a = s.balance a := by
    rw [balance_report, creditOf_circuit]
    exact Int.sub_zero _
  have hworth (isTrial : Bool) : a.worth (.passed id isTrial) = 0 := by
    cases a <;> rfl
  simp only [enterCircuit]
  split
  · rw [balance_answer, hreported]
    exact Int.add_zero _
  · rw [balance_beginAttempt, balance_note, hreported, hworth]
    exact Int.add_zero _

/-- A call looks in the cache. If it finds its answer there, that is still to
be given. -/
theorem balance_lookUp (now : Nat) (k : CacheKey) :
    ((s.lookUp now k).report now (s.cache.get now k).2.signals).balance a =
      s.balance a - a.share .lookups -
        if (s.cache.get now k).2.isHit then a.share .successes else 0 := by
  have hhit (found missed : Nat) :
      (a.held (found + 1, missed) : Int) = a.held (found, missed) + a.share .hits := by
    cases a <;> simp [Account.held, Account.share]
  have hmiss (found missed : Nat) :
      (a.held (found, missed + 1) : Int) = a.held (found, missed) + a.share .misses := by
    cases a <;> simp [Account.held, Account.share]
  have hget := Cache.lookups_get s.cache now k
  rw [balance_report, creditOf_lookup]
  change (a.held (s.cache.get now k).1.lookups : Int) + worthOf a s.journal - _ =
    a.held (s.cache.hits, s.cache.misses) + worthOf a s.journal - _ - _
  rw [hget]
  split
  · rw [hhit]
    omega
  · rw [hmiss]
    omega

/-- A call goes on from what it found in the cache. -/
theorem enterCache_eq : s.enterCache host now id r =
    match (s.cache.get now r.cacheKey).2 with
    | .hit v => Service.answer host
        ((s.lookUp now r.cacheKey).report now (s.cache.get now r.cacheKey).2.signals) now id r now
        (.ok v)
    | _ => Service.enterCircuit host
        ((s.lookUp now r.cacheKey).report now (s.cache.get now r.cacheKey).2.signals) now id r :=
  rfl

theorem balance_enterCache :
    (s.enterCache host now id r).balance a = s.balance a - a.share .lookups := by
  have hlooked := balance_lookUp (s := s) (a := a) now r.cacheKey
  rw [enterCache_eq]
  generalize (s.lookUp now r.cacheKey).report now (s.cache.get now r.cacheKey).2.signals = t
    at hlooked ⊢
  cases hfound : (s.cache.get now r.cacheKey).2 with
  | hit v =>
    -- the hit has been credited to the answers already, and here the answer comes
    rw [hfound] at hlooked
    change (t.answer host now id r now (.ok v)).balance a = _
    rw [balance_answer, hlooked]
    exact Int.sub_add_cancel _ _
  | absent | expired =>
    rw [hfound] at hlooked
    change (t.enterCircuit host now id r).balance a = _
    rw [balance_enterCircuit, hlooked]
    exact Int.sub_zero _

theorem balance_enterBucket [Scalar α] :
    (s.enterBucket host now id r).balance a = s.balance a := by
  have hworth (passes : Bool) :
      a.worth (.rated id passes) = if passes then a.share .lookups else a.share .refusals := by
    cases passes <;> cases a <;> rfl
  simp only [enterBucket]
  cases (s.bucket.consume now).2 with
  | true =>
    have hrated : (s.note now (.rated id true)).balance a = s.balance a + a.share .lookups := by
      rw [balance_note, hworth]
      rfl
    rw [if_pos rfl, balance_enterCache]
    change (s.note now (.rated id true)).balance a - _ = _
    rw [hrated]
    omega
  | false =>
    have hrated : (s.note now (.rated id false)).balance a = s.balance a + a.share .refusals := by
      rw [balance_note, hworth]
      rfl
    rw [if_neg Bool.false_ne_true, balance_answer, balance_report, creditOf_rateLimited]
    change (s.note now (.rated id false)).balance a - _ + 0 = _
    rw [hrated]
    omega

theorem balance_ask [Scalar α] : (s.ask host now r).balance a = s.balance a := by
  have hworth : a.worth (.asked s.asked r) = 0 := by
    cases a <;> rfl
  have hbegun : (s.begin now r).balance a = s.balance a := by
    rw [begin, balance_note, hworth]
    exact Int.add_zero _
  rw [ask_eq]
  split
  · rw [balance_answer, hbegun]
    exact Int.add_zero _
  · split
    · rw [balance_answer, hbegun]
      exact Int.add_zero _
    · rw [balance_enterBucket, hbegun]

/-! ## The course of a call -/

theorem balance_giveUp {o : Occurrence} (ho : a.worth o = 0) :
    (s.giveUp now id c o).balance a = s.balance a := by
  rw [giveUp, balance_note, ho]
  exact Int.add_zero _

theorem balance_poll? {t : Service α} (h : s.poll? host now id = some t) :
    t.balance a = s.balance a := by
  obtain ⟨c, -, h⟩ := Option.bind_eq_some_iff.mp h
  split at h
  · split at h
    · obtain rfl := Option.some.inj h
      exact balance_invoke _
    · obtain rfl := Option.some.inj h
      exact balance_endAttempt _
    · split at h
      · obtain rfl := Option.some.inj h
        exact balance_endAttempt _
      · cases h
  · split at h
    · obtain rfl := Option.some.inj h
      exact balance_endAttempt _
    · cases h
  · split at h
    · cases h
    · obtain rfl := Option.some.inj h
      exact balance_beginAttempt

theorem balance_reply? {reply : Reply CapabilitySet} {t : Service α}
    (h : s.reply? host now id reply = some t) : t.balance a = s.balance a := by
  obtain ⟨c, -, h⟩ := Option.bind_eq_some_iff.mp h
  split at h
  · obtain rfl := Option.some.inj h
    exact balance_endAttempt _
  · obtain rfl := Option.some.inj h
    exact balance_giveUp (by cases a <;> rfl)
  · cases h

theorem balance_abandon? {t : Service α} (h : s.abandon? now id = some t) :
    t.balance a = s.balance a := by
  obtain ⟨c, -, h⟩ := Option.bind_eq_some_iff.mp h
  obtain rfl := Option.some.inj h
  exact balance_giveUp (by cases a <;> rfl)

/-! ## Upkeep -/

theorem balance_clearCache : s.clearCache.balance a = s.balance a := by
  rw [balance, balance, clearCache, Cache.lookups_clear]

theorem balance_sweep : (s.sweep now).balance a = s.balance a := by
  have hlookups : (s.cache.purge now).1.reduce.1.lookups = s.cache.lookups :=
    Cache.lookups_reduce.trans Cache.lookups_purge
  rw [sweep, balance_report, creditOf_sweep, Int.sub_zero, balance, balance]
  exact congrArg (fun found => (a.held found : Int) + _) hlookups

theorem balance_onPressure (level : PressureLevel) :
    (s.onPressure host now level).balance a = s.balance a := by
  have hevent : (if a.events.contains (TelemetryEvent.pressureChanged level.name s.cache.size).name
      then (1 : Int) else 0) = 0 := by
    cases a <;> rfl
  rw [onPressure, balance_capture, hevent, balance_report, balance_clearCache]
  exact (Int.sub_zero _).trans (Int.sub_zero _)

theorem balance_reclaim : (s.reclaim now).balance a = s.balance a := by
  have hworth : a.worth .reclaimed = 0 := by
    cases a <;> rfl
  rw [reclaim, balance_note, balance_report, hworth]
  exact (Int.add_zero _).trans (Int.sub_zero _)

theorem balance_follow (f : PressureMonitor.Finding) :
    (s.follow host now f).balance a = s.balance a := by
  have hreported : (s.report now f.signals).balance a = s.balance a := by
    rw [balance_report, creditOf_finding, Int.sub_zero]
  simp only [follow]
  cases f.handled? with
  | none =>
    split
    · rw [balance_reclaim, hreported]
    · exact hreported
  | some level =>
    split
    · rw [balance_reclaim, balance_onPressure, hreported]
    · rw [balance_onPressure, hreported]

theorem balance_checkMemory (reading : Except Error MemoryUsage) :
    (s.checkMemory host now reading).balance a = s.balance a := balance_follow _

theorem balance_sweepTick? {t : Service α} (h : s.sweepTick? now = some t) :
    t.balance a = s.balance a := by
  obtain ⟨_, -, hring⟩ := Option.bind_eq_some_iff.mp h
  obtain ⟨ticker, -, hsweep⟩ := Option.bind_eq_some_iff.mp hring
  obtain rfl := Option.some.inj hsweep
  exact balance_sweep

theorem balance_watchTick? {reading : Except Error MemoryUsage} {t : Service α}
    (h : s.watchTick? host now reading = some t) : t.balance a = s.balance a := by
  obtain ⟨_, -, hring⟩ := Option.bind_eq_some_iff.mp h
  obtain ⟨ticker, -, hcheck⟩ := Option.bind_eq_some_iff.mp hring
  obtain rfl := Option.some.inj hcheck
  exact balance_checkMemory _

theorem balance_dispose : (s.dispose now).balance a = s.balance a := by
  unfold dispose
  split
  · rfl
  · rw [balance_report]
    change s.clearCache.balance a - 0 = _
    rw [balance_clearCache, Int.sub_zero]

/-! ## Histories -/

/-- **Every event leaves every balance as it was.** -/
theorem balance_step [Scalar α] (s : Service α) (now : Nat) (event : Event) :
    (s.step host now event).balance a = s.balance a := by
  have hgetD {next? : Option (Service α)} (h : ∀ t, next? = some t → t.balance a = s.balance a) :
      (next?.getD s).balance a = s.balance a := by
    cases next? with
    | none => rfl
    | some t => exact h t rfl
  cases event with
  | ask r => exact balance_ask
  | poll id => exact hgetD fun _ => balance_poll?
  | reply id reply => exact hgetD fun _ => balance_reply?
  | abandon id => exact hgetD fun _ => balance_abandon?
  | clearCache => exact balance_clearCache
  | sweep => exact balance_sweep
  | checkMemory reading => exact balance_checkMemory reading
  | sweepTick => exact hgetD fun _ => balance_sweepTick?
  | watchTick reading => exact hgetD fun _ => balance_watchTick?
  | readBucket => rfl
  | dispose => exact balance_dispose

/-- **And so does every history.** -/
theorem balance_run [Scalar α] (s : Service α) (events : List (Nat × Event)) :
    (s.run host events).balance a = s.balance a := by
  induction events generalizing s with
  | nil => rfl
  | cons e events ih => exact (ih _).trans (balance_step s e.1 e.2)

/-- A service starts with every account balanced. -/
theorem balance_start [Scalar α] (settings : ServiceSettings) (canReclaim background : Bool)
    (now : Nat) :
    (Service.start host settings canReclaim background now : Service α).balance a = 0 := by
  have hidle : (idle settings canReclaim now : Service α).balance a = 0 := by
    cases a <;> rfl
  rw [Service.start, balance_report]
  cases background with
  | true => exact (Int.sub_zero _).trans hidle
  | false => exact (Int.sub_zero _).trans hidle

end Service

end CapabilityBroker
