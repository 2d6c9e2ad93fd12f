import Mathlib.Algebra.BigOperators.Group.Finset.Piecewise
import Mathlib.Algebra.GroupWithZero.Nat
import CapabilityBroker.Proofs.Service.Accounts
import CapabilityBroker.Proofs.Service.Attempts
/-!
# The ledger of a service

What the metrics and the events of a service add up to. The accounts say
what each of them counts in the journal (`Counted`). Where every call is
answered, the journal says it call by call: a call is turned away at a gate
or passes the circuit (`Received`), and either way it is answered once
(`Received.settled`). The calls are those of the history (`asked_run`).
-/

namespace CapabilityBroker

namespace Service

/-! ## What is counted -/

/-- The value of a metric, whatever its label. -/
def metricOf (signals : List Signal) (name : String) : Nat :=
  (Signal.counters signals).countP fun c => c.name = name

/-- How many events of a name there are. -/
def emittedOf (signals : List Signal) (name : String) : Nat :=
  (Signal.events signals).countP fun e => e.name = name

/-- What the rate limit said to a call. -/
def Occurrence.rating? : Occurrence → Option Bool
  | .rated _ passes => some passes
  | _ => none

/-- What a call ends with. -/
def Occurrence.outcome? : Occurrence → Option (Except Error CapabilitySet)
  | .answered _ result => some result
  | _ => none

/-- Whether a result is an error of a service at work. -/
def isFailure : Except Error CapabilitySet → Bool
  | .ok _ => false
  | .error e => e ≠ .disposed

variable {α : Type} (s : Service α)

/-- The value of a metric of a service. -/
def metric (name : String) : Nat := metricOf s.signals name

/-- How many events of a name a service handed to its sink. -/
def emitted (name : String) : Nat := emittedOf s.signals name

/-- What the rate limit said, in order. -/
def ratings : List Bool := s.history.filterMap (·.occurrence.rating?)

/-- What calls ended with, in order. -/
def outcomes : List (Except Error CapabilitySet) := s.history.filterMap (·.occurrence.outcome?)

/-- Whether a call passed the circuit. -/
def isAdmitted (id : Nat) : Bool :=
  (told s.history id).any fun
    | .passed _ _ => true
    | _ => false

/-- How many attempts a call made. -/
def attempts (id : Nat) : Nat := (results (told s.history id)).length

variable {s} {a : Account}

/-! ## What an account is credited with -/

/-- What has one of several names is counted under one of them. -/
theorem countP_contains {β : Type} (name : β → String) {names : List String}
    (hnames : names.Nodup) (xs : List β) :
    xs.countP (fun x => names.contains (name x)) =
      (names.map fun n => xs.countP fun x => name x = n).sum := by
  induction names with
  | nil => simp
  | cons n names ih =>
    obtain ⟨hn, hnames⟩ := List.nodup_cons.mp hnames
    rw [List.map_cons, List.sum_cons, ← ih hnames]
    -- the name is none of the others, so nothing is counted under both
    clear ih
    induction xs with
    | nil => rfl
    | cons x xs ih =>
      rw [List.countP_cons, List.countP_cons, List.countP_cons, ih]
      by_cases hx : name x = n
      · simp [hx, hn]
        omega
      · simp [hx]
        omega

/-- An account is credited with its metrics and its events. -/
theorem countP_credits (a : Account) (xs : List Signal) :
    xs.countP a.credits =
      (a.metrics.map (metricOf xs)).sum + (a.events.map (emittedOf xs)).sum := by
  have hmetrics : a.metrics.Nodup := by
    cases a <;> decide
  have hevents : a.events.Nodup := by
    cases a <;> decide
  have hcounters : (Signal.counters xs).countP (fun c => a.metrics.contains c.name) =
      (a.metrics.map (metricOf xs)).sum := countP_contains Counter.name hmetrics _
  have hemitted : (Signal.events xs).countP (fun e => a.events.contains e.name) =
      (a.events.map (emittedOf xs)).sum := countP_contains TelemetryEvent.name hevents _
  rw [← hcounters, ← hemitted]
  clear hcounters hemitted
  induction xs with
  | nil => rfl
  | cons x xs ih =>
    cases x with
    | log line => simpa [Account.credits, Signal.counters, Signal.events] using ih
    | duration seconds => simpa [Account.credits, Signal.counters, Signal.events] using ih
    | count c =>
      simp only [Signal.counters, Signal.events, List.filterMap_cons, List.countP_cons] at ih ⊢
      rw [ih, Account.credits]
      omega
    | event e =>
      simp only [Signal.counters, Signal.events, List.filterMap_cons, List.countP_cons] at ih ⊢
      rw [ih, Account.credits]
      omega

/-! ## What an account is charged with -/

/-- The signal that an occurrence is. -/
def Occurrence.signal? : Occurrence → Option Signal
  | .reported x => some x
  | _ => none

theorem signals_eq (s : Service α) : s.signals = s.history.filterMap (·.occurrence.signal?) := by
  refine List.filterMap_congr fun l _ => ?_
  obtain ⟨now, o⟩ := l
  cases o <;> rfl

/-- What lines are worth to an account: what they charge it with, less what
they credit it with. -/
theorem worthOf_eq (a : Account) (ls : List JournalLine) :
    worthOf a ls = (ls.countP (a.charges ·.occurrence) : Int) -
      (ls.filterMap (·.occurrence.signal?)).countP a.credits -
      if a = .retries then (ls.countP (·.occurrence.report?.isSome) : Int) else 0 := by
  induction ls with
  | nil => cases a <;> rfl
  | cons l ls ih =>
    obtain ⟨now, o⟩ := l
    rw [worthOf_cons, ih, List.countP_cons, List.countP_cons]
    cases o with
    | reported x =>
      have hcharges : a.charges (.reported x) = false := by
        cases a <;> rfl
      simp only [List.filterMap_cons, Occurrence.signal?, List.countP_cons, Account.worth, hcharges,
        Occurrence.report?, Option.isSome_none, Bool.false_eq_true, if_false, Nat.add_zero]
      split <;> split <;> omega
    | recorded call succeeded =>
      have hcharges : a.charges (.recorded call succeeded) = false := by
        cases a <;> rfl
      simp only [List.filterMap_cons, Occurrence.signal?, Account.worth, hcharges,
        Occurrence.report?, Option.isSome_some, Bool.false_eq_true, if_false, if_true, Nat.add_zero]
      split <;> omega
    | _ =>
      simp only [List.filterMap_cons, Occurrence.signal?, Account.worth,
        Occurrence.report?, Option.isSome_none, Bool.false_eq_true, if_false, Nat.add_zero]
      split <;> split <;> omega

/-- What an account is charged with in a history. -/
def charged (s : Service α) : Account → Nat
  | .requests => s.outcomes.length
  | .lookups => s.ratings.count true
  | .refusals => s.ratings.count false
  | .successes => s.outcomes.countP (·.isOk)
  | .failures => s.outcomes.countP isFailure
  | .retries => s.history.countP (·.occurrence.result?.isSome)
  | .hits | .misses => 0

theorem countP_charges (s : Service α) (a : Account) :
    s.history.countP (a.charges ·.occurrence) = s.charged a := by
  have hratings (p : Bool → Bool)
      (hcharges : ∀ o : Occurrence, a.charges o = (o.rating?.map p).getD false) :
      s.history.countP (a.charges ·.occurrence) = s.ratings.countP p := by
    rw [ratings, List.countP_filterMap]
    exact List.countP_congr fun l _ => by rw [hcharges]
  have houtcomes (p : Except Error CapabilitySet → Bool)
      (hcharges : ∀ o : Occurrence, a.charges o = (o.outcome?.map p).getD false) :
      s.history.countP (a.charges ·.occurrence) = s.outcomes.countP p := by
    rw [outcomes, List.countP_filterMap]
    exact List.countP_congr fun l _ => by rw [hcharges]
  cases a with
  | requests =>
    rw [houtcomes (fun _ => true) fun o => by cases o <;> rfl, List.countP_true, charged]
  | lookups =>
    rw [hratings (· == true) fun o => by cases o <;> simp [Account.charges, Occurrence.rating?],
      charged, List.count_eq_countP]
  | refusals =>
    rw [hratings (· == false) fun o => by cases o <;> simp [Account.charges, Occurrence.rating?],
      charged, List.count_eq_countP]
  | successes => exact houtcomes _ fun o => by cases o <;> rfl
  | failures =>
    refine houtcomes _ fun o => ?_
    cases o with
    | answered id result => cases result <;> rfl
    | _ => rfl
  | retries => exact List.countP_congr fun l _ => by cases l.occurrence <;> rfl
  | hits | misses =>
    refine List.countP_eq_zero.mpr fun l _ => ?_
    cases l.occurrence <;> exact Bool.false_ne_true

/-- **The two sides of an account.** -/
theorem sides_eq (h : s.balance a = 0) :
    a.held s.cache.lookups + s.charged a =
      (a.metrics.map s.metric).sum + (a.events.map s.emitted).sum +
        if a = .retries then s.history.countP (·.occurrence.report?.isSome) else 0 := by
  have hhistory : worthOf a s.history = worthOf a s.journal := by
    simp [worthOf, history, List.sum_reverse]
  have hcredits : (s.history.filterMap (·.occurrence.signal?)).countP a.credits =
      (a.metrics.map s.metric).sum + (a.events.map s.emitted).sum :=
    signals_eq s ▸ countP_credits a s.signals
  rw [balance, ← hhistory, worthOf_eq, countP_charges, hcredits] at h
  by_cases hretries : a = .retries
  · rw [if_pos hretries] at h ⊢
    omega
  · rw [if_neg hretries] at h ⊢
    omega

/-- **What is counted, each once.** -/
structure Counted (s : Service α) : Prop where
  lookups_eq : s.metric "huginn_cache_hits_total" + s.metric "huginn_cache_misses_total" =
    s.ratings.count true
  refusals_eq : s.metric "huginn_rate_limited_total" = s.ratings.count false
  requests_eq : s.metric "huginn_requests_total" = s.outcomes.length
  successes_eq : s.outcomes.countP (·.isOk) =
    s.metric "huginn_cache_hits_total" + s.emitted "capabilities.determined"
  failures_eq : s.emitted "capabilities.failed" = s.outcomes.countP isFailure
  retries_eq : s.history.countP (·.occurrence.result?.isSome) =
    s.metric "huginn_retries_total" + s.history.countP (·.occurrence.report?.isSome)
  hits_eq : s.cache.hits = s.metric "huginn_cache_hits_total"
  misses_eq : s.cache.misses = s.metric "huginn_cache_misses_total"

theorem Counted.of_balance (h : ∀ a, s.balance a = 0) : Counted s where
  lookups_eq := by
    have hsides := sides_eq (h .lookups)
    simpa [Account.held, Account.metrics, Account.events, charged] using hsides.symm
  refusals_eq := by
    have hsides := sides_eq (h .refusals)
    simpa [Account.held, Account.metrics, Account.events, charged] using hsides.symm
  requests_eq := by
    have hsides := sides_eq (h .requests)
    simpa [Account.held, Account.metrics, Account.events, charged] using hsides.symm
  successes_eq := by
    have hsides := sides_eq (h .successes)
    simpa [Account.held, Account.metrics, Account.events, charged] using hsides
  failures_eq := by
    have hsides := sides_eq (h .failures)
    simpa [Account.held, Account.metrics, Account.events, charged] using hsides.symm
  retries_eq := by
    have hsides := sides_eq (h .retries)
    simpa [Account.held, Account.metrics, Account.events, charged] using hsides
  hits_eq := by
    have hsides := sides_eq (h .hits)
    simpa [Account.held, Account.metrics, Account.events, charged, Cache.lookups] using hsides
  misses_eq := by
    have hsides := sides_eq (h .misses)
    simpa [Account.held, Account.metrics, Account.events, charged, Cache.lookups] using hsides

/-! ## Call by call -/

section Received

variable {id j now limit : Nat} {os : List Occurrence} {c : Call} {c? : Option Call}
  {result : Except Error CapabilitySet} {host : Host} {t u : Service α}
  {settings : ServiceSettings} {journal : List JournalLine}

/-- **How a service receives a call**, by what is told of it: not yet; it is
turned away at a gate, with a token, without one or before it could get
one; or it passes the circuit. -/
inductive Received (id : Nat) : List Occurrence → Prop
  | unseen : Received id []
  | turnedAway (r : Request) (token : Option Bool) (result : Except Error CapabilitySet) :
      Received id (.answered id result :: ((token.map (.rated id)).toList ++ [.asked id r]))
  | admitted {os : List Occurrence} (isTrial : Bool) (passed : .passed id isTrial ∈ os) :
      Received id os

/-- Whether something that is told of a call is that it passed the
circuit. -/
def Occurrence.isPassage : Occurrence → Bool
  | .passed _ _ => true
  | _ => false

/-- A call is not answered while it makes its attempts. -/
theorem countP_outcome_tried (id : Nat) (r : Request) (isTrial : Bool) (attempts : List Attempt) :
    (tried id r isTrial attempts).countP (·.outcome?.isSome) = 0 := by
  induction attempts with
  | nil => rfl
  | cons a attempts ih =>
    rw [tried_cons, List.countP_append, ih, Attempt.told]
    cases a.wasAsked <;> rfl

/-- How often a call that is answered is told of: once that it is answered,
and then, if it passed the circuit, once that the circuit learned how it
went, and of an attempt at least; otherwise, of none. -/
theorem Received.settled (h : Received id os) (hcareer : Career limit id c? os)
    (hanswered : .answered id result ∈ os) :
    os.countP (·.outcome?.isSome) = 1 ∧
      os.countP (·.report?.isSome) = (if os.any Occurrence.isPassage then 1 else 0) ∧
      if os.any Occurrence.isPassage then 1 ≤ (results os).length else (results os).length = 0 := by
  cases h with
  | unseen => cases hanswered
  | turnedAway r token result =>
    cases token <;>
      simp [Occurrence.outcome?, Occurrence.report?, Occurrence.isPassage, results,
        Occurrence.result?]
  | admitted isTrial hpassed =>
    have hpassage : os.any Occurrence.isPassage = true := List.any_eq_true.mpr ⟨_, hpassed, rfl⟩
    rw [if_pos hpassage, if_pos hpassage]
    -- it passed and is answered, so it has ended
    cases hcareer with
    | turnedAway hnot => exact absurd hpassed (hnot isTrial)
    | underway c attempts htransient hnumber hleft =>
      exact absurd hanswered (Career.underway c attempts htransient hnumber hleft).not_answered
    | givenUp hnot => exact absurd hanswered (hnot result)
    | ended r isTrial kept last attempts =>
      obtain ⟨hresults, -, hreports, -⟩ := tried_selected id r isTrial (last :: attempts)
      obtain ⟨hresults', -, hreports', -⟩ := ending_selected id r.cacheKey kept last.result
      have houtcomes := countP_outcome_tried id r isTrial (last :: attempts)
      have houtcomes' : (ending id r.cacheKey kept last.result).countP (·.outcome?.isSome) = 1 := by
        cases last.result <;> rfl
      refine ⟨?_, ?_, ?_⟩
      · rw [List.countP_append, houtcomes, houtcomes']
      · rw [← List.length_filterMap_eq_countP, List.filterMap_append, hreports, hreports']
        rfl
      · rw [results, List.filterMap_append, hresults, hresults', List.nil_append, List.length_map,
          List.length_cons]
        omega

/-- A call on its way passed the circuit. -/
theorem Career.passed (h : Career limit id (some c) os) : .passed id c.isTrial ∈ os := by
  cases h with
  | underway => simp [tried]

/-- Every call has a career, and the service received it. -/
structure Admits (settings : ServiceSettings) (s : Service α) : Prop where
  recounted : Recounted settings s
  received (id : Nat) : Received id (told s.journal id)

namespace Admits

/-- Lines about a call on its way are written down. -/
theorem received_of_call (h : Admits settings s) (hc : s.call? id = some c)
    (lines : List JournalLine) (habout : ∀ l ∈ lines, l.occurrence.caller? = some id)
    (hjournal : t.journal = lines ++ s.journal) (j : Nat) : Received j (told t.journal j) := by
  have hpassed := (h.recounted.career_of_call hc).passed
  rw [hjournal, told_append, told_of_about habout]
  split
  · next hj =>
    rw [hj]
    exact .admitted c.isTrial (List.mem_append_right _ hpassed)
  · exact h.received j

/-- A call begins and is received. -/
theorem received_of_begins (h : Admits settings s) (lines : List JournalLine)
    (habout : ∀ l ∈ lines, l.occurrence.caller? = some s.asked)
    (hjournal : t.journal = lines ++ s.journal)
    (hreceived : Received s.asked (lines.map (·.occurrence))) (j : Nat) :
    Received j (told t.journal j) := by
  rw [hjournal, told_append, told_of_about habout]
  split
  · next hj =>
    rw [hj, h.recounted.unseen (Nat.le_refl _), List.append_nil]
    exact hreceived
  · exact h.received j

theorem received_begins [Scalar α] {r : Request} (h : Admits settings s) (hs : Begins now s r t)
    (j : Nat) : Received j (told t.journal j) := by
  cases hs with
  | @disposed =>
    exact h.received_of_begins
      [⟨now, .answered s.asked (.error .disposed)⟩, ⟨now, .asked s.asked r⟩]
      (by simp [Occurrence.caller?]) rfl (.turnedAway r none _) j
  | @invalid e =>
    exact h.received_of_begins
      [⟨now, .answered s.asked (.error e)⟩, ⟨now, .asked s.asked r⟩]
      (by simp [Occurrence.caller?]) rfl (.turnedAway r none _) j
  | limited =>
    exact h.received_of_begins
      [⟨now, .answered s.asked (.error (.rateLimited _))⟩, ⟨now, .rated s.asked false⟩,
        ⟨now, .asked s.asked r⟩]
      (by simp [Occurrence.caller?]) rfl (.turnedAway r (some false) _) j
  | @hit v =>
    exact h.received_of_begins
      [⟨now, .answered s.asked (.ok v)⟩, ⟨now, .rated s.asked true⟩, ⟨now, .asked s.asked r⟩]
      (by simp [Occurrence.caller?]) rfl (.turnedAway r (some true) _) j
  | refused =>
    exact h.received_of_begins
      [⟨now, .answered s.asked (.error .serviceUnavailable)⟩, ⟨now, .rated s.asked true⟩,
        ⟨now, .asked s.asked r⟩]
      (by simp [Occurrence.caller?]) rfl (.turnedAway r (some true) _) j
  | @passed isTrial =>
    obtain ⟨instant, stage, -, -, hjournal⟩ :=
      (tries_beginAttempt (s := ((s.arrive now r).meetCircuit now).note now
        (.passed s.asked isTrial)) now s.asked ⟨r, now, isTrial, 1, .pausing now⟩).goes_on
    refine h.received_of_begins ((stage.told s.asked r.cacheKey).map (⟨instant, ·⟩) ++
      [⟨now, .passed s.asked isTrial⟩, ⟨now, .rated s.asked true⟩, ⟨now, .asked s.asked r⟩])
      ?_ ?_ ?_ j
    · cases stage <;> simp [Stage.told, Occurrence.caller?]
    · rw [hjournal, List.append_assoc]
      rfl
    · exact .admitted isTrial (by simp)

theorem advance [Scalar α] {event : Event} (h : Admits settings s)
    (hs : Advance host now s event t) : Admits settings t where
  recounted := h.recounted.advance hs
  received := by
    cases hs with
    | began hbegins => exact h.received_begins hbegins
    | @granted id c limit hc =>
      exact h.received_of_call hc [⟨now, .invoked id c.request.cacheKey⟩]
        (by simp [Occurrence.caller?]) rfl
    | @resumed id c wakeAt hc =>
      obtain ⟨instant, stage, -, -, hjournal⟩ :=
        (tries_beginAttempt (s := s) now id { c with attempt := c.attempt + 1 }).goes_on
      refine h.received_of_call hc
        ((stage.told id c.request.cacheKey).map (⟨instant, ·⟩)) ?_ hjournal
      cases stage <;> simp [Stage.told, Occurrence.caller?]
    | @paused _ id c e delay hc =>
      exact h.received_of_call hc [⟨now, .attempted id (.error e)⟩]
        (by simp [Occurrence.caller?]) rfl
    | @failed _ id c e hc =>
      exact h.received_of_call hc
        [⟨now, .answered id (.error (RetryPolicy.exhausted c.attempt e).root)⟩,
          ⟨now, .recorded id false⟩, ⟨now, .attempted id (.error e)⟩]
        (by simp [Occurrence.caller?]) rfl
    | @succeeded _ id c v hc =>
      exact h.received_of_call hc
        [⟨now, .answered id (.ok v)⟩,
          ⟨now, .stored id c.request.cacheKey v (s.cache.insert now c.request.cacheKey v).2.isKept⟩,
          ⟨now, .recorded id true⟩, ⟨now, .attempted id (.ok v)⟩]
        (by simp [Occurrence.caller?]) rfl
    | @gaveUp _ id c o hc hgives =>
      refine h.received_of_call hc [⟨now, o⟩] ?_ rfl
      cases hgives <;> simp [Occurrence.caller?]
    | tended ht =>
      intro j
      rcases ht.journal_eq with hj | hj <;> rw [hj]
      · exact h.received j
      · exact h.received j

theorem run [Scalar α] (h : Admits settings s.quiet) (events : List (Nat × Event)) :
    Admits settings (s.run host events).quiet :=
  run_induction (fun _ _ _ _ h hs => h.advance hs) h

theorem start [Scalar α] (settings : ServiceSettings) (canReclaim background : Bool) (now : Nat) :
    Admits settings
      (Service.start host settings canReclaim background now : Service α).quiet where
  recounted := Recounted.start settings canReclaim background now
  received id := by
    rw [Service.start, quiet_report]
    cases background <;> exact .unseen

end Admits

end Received

/-! ## How many calls there are -/

section Asked

variable {host : Host} {now id : Nat} {r : Request} {c : Call} {t : Service α}

/-- Whether an event is a call that begins. -/
def Event.isAsk : Event → Bool
  | .ask _ => true
  | _ => false

theorem asked_beginAttempt : (s.beginAttempt now id c).asked = s.asked := by
  obtain ⟨lock, limit, heq | heq⟩ := beginAttempt_cases s now id c
  · rw [heq]
    rfl
  · rw [heq]
    rfl

theorem Begins.asked_eq [Scalar α] (h : Begins now s r t) : t.asked = s.asked + 1 := by
  cases h with
  | passed => exact asked_beginAttempt
  | _ => rfl

theorem Advance.asked_eq [Scalar α] {event : Event} (h : Advance host now s event t)
    (hevent : event.isAsk = false) : t.asked = s.asked := by
  cases h with
  | began => cases hevent
  | resumed => exact asked_beginAttempt
  | tended ht => exact ht.asked_eq
  | _ => rfl

/-- A call has a number of its own, and nothing else takes one. -/
theorem asked_step [Scalar α] (s : Service α) (now : Nat) (event : Event) :
    (s.step host now event).asked = s.asked + if event.isAsk then 1 else 0 := by
  cases hevent : event.isAsk with
  | true =>
    cases event with
    | ask r =>
      have hbegins : Begins now s.quiet r (s.ask host now r).quiet := begins_ask
      exact hbegins.asked_eq
    | _ => cases hevent
  | false =>
    have hs : Advance host now s.quiet event (s.step host now event).quiet := advance_step s event
    exact hs.asked_eq hevent

theorem asked_run [Scalar α] (s : Service α) (events : List (Nat × Event)) :
    (s.run host events).asked = s.asked + events.countP fun e => e.2.isAsk := by
  induction events generalizing s with
  | nil => rfl
  | cons e events ih =>
    have hstep : (s.step host e.1 e.2).asked = _ := asked_step s e.1 e.2
    have hrun := ih (s.step host e.1 e.2)
    rw [List.countP_cons]
    change (Service.run host (s.step host e.1 e.2) events).asked = _
    omega

theorem asked_start [Scalar α] (settings : ServiceSettings) (canReclaim background : Bool)
    (now : Nat) :
    (Service.start host settings canReclaim background now : Service α).asked = 0 := by
  rw [Service.start]
  cases background <;> rfl

end Asked

/-! ## All calls together -/

/-- What occurs to calls of a range occurs call by call. -/
theorem countP_told {p : Occurrence → Bool} {n : Nat} {ls : List JournalLine}
    (hcalls : ∀ l ∈ ls, p l.occurrence = true → ∃ id < n, l.occurrence.caller? = some id) :
    ls.countP (p ·.occurrence) = ∑ id ∈ Finset.range n, (told ls id).countP p := by
  induction ls with
  | nil => simp [told]
  | cons l ls ih =>
    obtain ⟨hl, hls⟩ := List.forall_mem_cons.mp hcalls
    -- the line is counted for its own caller and for no other
    have hcons (id : Nat) : (told (l :: ls) id).countP p =
        (told ls id).countP p +
          if l.occurrence.caller? = some id ∧ p l.occurrence = true then 1 else 0 := by
      simp only [told, List.map_cons, List.filter_cons]
      by_cases hid : l.occurrence.caller? = some id
      · simp [hid, List.countP_cons]
      · simp [hid]
    simp only [hcons, Finset.sum_add_distrib]
    rw [List.countP_cons, ih hls]
    congr 1
    cases hp : p l.occurrence with
    | false => simp
    | true =>
      obtain ⟨id, hid, hcaller⟩ := hl hp
      simp [hcaller, hid]

section Whole

variable {id : Nat} {settings : ServiceSettings} {result : Except Error CapabilitySet}

theorem told_history (s : Service α) (id : Nat) :
    told s.history id = (told s.quiet.journal id).reverse := by
  rw [history, told_reverse, ← told_filter]
  rfl

theorem Admits.settled (h : Admits settings s.quiet)
    (hanswered : .answered id result ∈ told s.history id) :
    (told s.history id).countP (·.outcome?.isSome) = 1 ∧
      (told s.history id).countP (·.report?.isSome) = (if s.isAdmitted id then 1 else 0) ∧
      if s.isAdmitted id then 1 ≤ s.attempts id else s.attempts id = 0 := by
  have hadmitted : s.isAdmitted id = (told s.quiet.journal id).any Occurrence.isPassage := by
    rw [isAdmitted, told_history, List.any_reverse]
    rfl
  have hattempts : s.attempts id = (results (told s.quiet.journal id)).length := by
    rw [attempts, told_history, results, List.filterMap_reverse, List.length_reverse, results]
  rw [hadmitted, hattempts]
  rw [told_history, List.mem_reverse] at hanswered
  simp only [told_history, List.countP_reverse]
  exact (h.received id).settled (h.recounted.career id) hanswered

/-- Lines are about calls that began. -/
theorem Admits.lt_asked (h : Admits settings s.quiet) {l : JournalLine} (hl : l ∈ s.history)
    (hcaller : l.occurrence.caller? = some id) : id < s.asked := by
  have htold : l.occurrence ∈ told s.history id :=
    List.mem_filter.mpr ⟨List.mem_map_of_mem hl, decide_eq_true hcaller⟩
  refine Nat.lt_of_not_le fun hle => ?_
  have hunseen : told s.quiet.journal id = [] := h.recounted.unseen hle
  rw [told_history, hunseen] at htold
  cases htold

/-- What occurs to calls is summed up over them. -/
theorem Admits.countP_history (h : Admits settings s.quiet) {p : Occurrence → Bool}
    (hp : ∀ o, p o = true → ∃ id, o.caller? = some id) :
    s.history.countP (p ·.occurrence) =
      ∑ id ∈ Finset.range s.asked, (told s.history id).countP p := by
  refine countP_told fun l hl ho => ?_
  obtain ⟨id, hcaller⟩ := hp _ ho
  exact ⟨id, h.lt_asked hl hcaller, hcaller⟩

/-- Every call that began is answered. -/
def AllAnswered (s : Service α) : Prop :=
  ∀ id < s.asked, ∃ result, .answered id result ∈ told s.history id

/-- There are as many outcomes as calls then. -/
theorem Admits.length_outcomes (h : Admits settings s.quiet) (hall : s.AllAnswered) :
    s.outcomes.length = s.asked := by
  have hcalls (o : Occurrence) (ho : o.outcome?.isSome = true) : ∃ id, o.caller? = some id := by
    cases o with
    | answered id => exact ⟨id, rfl⟩
    | _ => cases ho
  calc s.outcomes.length
      = s.history.countP (·.occurrence.outcome?.isSome) := List.length_filterMap_eq_countP
    _ = ∑ id ∈ Finset.range s.asked, (told s.history id).countP (·.outcome?.isSome) :=
        h.countP_history hcalls
    _ = ∑ id ∈ Finset.range s.asked, 1 := by
        refine Finset.sum_congr rfl fun id hid => ?_
        obtain ⟨result, hanswered⟩ := hall id (Finset.mem_range.mp hid)
        exact (h.settled hanswered).1
    _ = s.asked := by simp

/-- And each call that passed the circuit has one attempt that is the
last. -/
theorem Admits.countP_attempts (h : Admits settings s.quiet) (hall : s.AllAnswered) :
    s.history.countP (·.occurrence.result?.isSome) =
      (∑ id ∈ (Finset.range s.asked).filter (s.isAdmitted ·), (s.attempts id - 1)) +
        s.history.countP (·.occurrence.report?.isSome) := by
  have hattempted (o : Occurrence) (ho : o.result?.isSome = true) : ∃ id, o.caller? = some id := by
    cases o with
    | attempted id => exact ⟨id, rfl⟩
    | _ => cases ho
  have hrecorded (o : Occurrence) (ho : o.report?.isSome = true) : ∃ id, o.caller? = some id := by
    cases o with
    | recorded id => exact ⟨id, rfl⟩
    | _ => cases ho
  rw [h.countP_history hattempted, h.countP_history hrecorded, Finset.sum_filter,
    ← Finset.sum_add_distrib]
  refine Finset.sum_congr rfl fun id hid => ?_
  obtain ⟨result, hanswered⟩ := hall id (Finset.mem_range.mp hid)
  obtain ⟨-, hreports, hattempts⟩ := h.settled hanswered
  have hcount : (told s.history id).countP (·.result?.isSome) = s.attempts id :=
    List.length_filterMap_eq_countP.symm
  rw [hcount, hreports]
  cases hadmitted : s.isAdmitted id with
  | true =>
    rw [hadmitted, if_pos rfl] at hattempts
    simp only [if_true]
    omega
  | false =>
    rw [hadmitted, if_neg Bool.false_ne_true] at hattempts
    simp [hattempts]

/-- **What the metrics add up to.** After every history of a service, the
hits and misses are as many as the tokens that calls were given, and as
many as the cache itself has counted; the calls that were refused a token,
the answers, the errors but those of the shutdown, and the calls that ended
are counted too, each once. Where every call of the history is answered,
the requests are the calls, and the retries are the attempts of the calls
that passed the circuit, less one for each of these. -/
theorem metrics_add_up [Scalar α] (host : Host) (settings : ServiceSettings)
    (canReclaim background : Bool) (now : Nat) (events : List (Nat × Event)) :
    let s : Service α := (Service.start host settings canReclaim background now).run host events
    s.metric "huginn_cache_hits_total" + s.metric "huginn_cache_misses_total" =
        s.ratings.count true ∧
      s.cache.hits = s.metric "huginn_cache_hits_total" ∧
      s.cache.misses = s.metric "huginn_cache_misses_total" ∧
      s.metric "huginn_rate_limited_total" = s.ratings.count false ∧
      s.outcomes.countP (·.isOk) =
        s.metric "huginn_cache_hits_total" + s.emitted "capabilities.determined" ∧
      s.emitted "capabilities.failed" = s.outcomes.countP isFailure ∧
      s.metric "huginn_requests_total" = s.outcomes.length ∧
      s.asked = events.countP (fun e => e.2.isAsk) ∧
      (s.AllAnswered →
        s.metric "huginn_requests_total" = s.asked ∧
          (∀ id < s.asked, s.isAdmitted id = true → 1 ≤ s.attempts id) ∧
          s.metric "huginn_retries_total" =
            ∑ id ∈ (Finset.range s.asked).filter (s.isAdmitted ·), (s.attempts id - 1)) := by
  intro s
  have hadmits : Admits settings s.quiet := (Admits.start settings canReclaim background now).run _
  have hbalance (a : Account) : s.balance a = 0 :=
    (balance_run _ events).trans (balance_start settings canReclaim background now)
  have hcounted : Counted s := .of_balance hbalance
  have hasked : s.asked = events.countP fun e => e.2.isAsk := by
    have hrun : s.asked = _ + _ := asked_run _ events
    rw [hrun, asked_start, Nat.zero_add]
  refine ⟨hcounted.lookups_eq, hcounted.hits_eq, hcounted.misses_eq, hcounted.refusals_eq,
    hcounted.successes_eq, hcounted.failures_eq, hcounted.requests_eq, hasked, fun hall => ?_⟩
  refine ⟨hcounted.requests_eq.trans (hadmits.length_outcomes hall), fun id hid hadmitted => ?_, ?_⟩
  · obtain ⟨result, hanswered⟩ := hall id hid
    have hattempts := (hadmits.settled hanswered).2.2
    rwa [if_pos hadmitted] at hattempts
  · have hattempts := hadmits.countP_attempts hall
    have hretries := hcounted.retries_eq
    omega

/-- The patient service has one call, which is answered when it is tried
again: a request, and a retry. -/
theorem one_retry_is_counted :
    patientService.AllAnswered ∧ patientService.metric "huginn_requests_total" = 1 ∧
      patientService.metric "huginn_retries_total" = 1 := by
  have hasked : patientService.asked = 1 := by decide +kernel
  have hall : patientService.AllAnswered := by
    intro id hid
    obtain rfl : id = 0 := by omega
    have hany : ((told patientService.history 0).any (·.outcome?.isSome)) = true := by
      decide +kernel
    obtain ⟨o, ho, hisSome⟩ := List.any_eq_true.mp hany
    cases o with
    | answered id result =>
      obtain rfl : id = 0 := by simpa [Occurrence.caller?] using (List.mem_filter.mp ho).2
      exact ⟨result, ho⟩
    | _ => cases hisSome
  have hsums := metrics_add_up (α := Rat) silentHost {} false false 0
    [(0, .ask { configuration := some {} }), (0, .reply 0 (.done (.error (.capability "busy")))),
      (Duration.ofSecs 2, .poll 0), (Duration.ofSecs 2, .reply 0 (.done (.ok .empty)))]
  obtain ⟨-, -, -, -, -, -, -, -, hcalls⟩ := hsums
  obtain ⟨hrequests, -, hretries⟩ := hcalls hall
  have hsum : ∑ id ∈ (Finset.range patientService.asked).filter (patientService.isAdmitted ·),
      (patientService.attempts id - 1) = 1 := by decide +kernel
  exact ⟨hall, hrequests.trans hasked, hretries.trans hsum⟩

end Whole

end Service

end CapabilityBroker
