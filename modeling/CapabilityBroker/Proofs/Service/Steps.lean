import CapabilityBroker.Proofs.Cache.Contents
import CapabilityBroker.Proofs.Service.Quiet
/-!
# What an event does to a service

`Advance` lists everything that can happen in one step, one rule for each
thing, with the conditions under which it happens; reports are left out
(`quiet`). `advance_step` says that nothing else happens, and is the only
place where the course of a call is taken apart: a property of every
history is proved by going through the rules.
-/

namespace CapabilityBroker

namespace Service

variable {α : Type}

/-! ## How attempts and calls end -/

/-- How an attempt of a call ends, and by which event. -/
inductive AttemptEnds (now : Nat) (s : Service α) (id : Nat) (c : Call) :
    Event → Except Error CapabilitySet → Prop
  /-- The resolver replies. -/
  | replied {invocation since : Nat} {limit : Option WaitLimit}
      (result : Except Error CapabilitySet)
      (at_resolver : c.stage = .resolving invocation since limit) :
      AttemptEnds now s id c (.reply id (.done result)) result
  /-- The call has waited for the lock too long. -/
  | lockTimedOut {limit : Option WaitLimit} {after : Nat} (in_line : c.stage = .waiting limit)
      (is_late : (s.lock.look now id).2 = .timedOut after) :
      AttemptEnds now s id c (.poll id) (.error (.lockTimeout after))
  /-- The attempt has taken too long, in line or at the resolver. -/
  | timedOut {limit : Option WaitLimit}
      (on_its_way : c.stage = .waiting limit ∨ ∃ invocation since,
        c.stage = .resolving invocation since limit)
      (is_late : isOver now limit = true) :
      AttemptEnds now s id c (.poll id) (.error (attemptTimeout limit))

/-- How a call ends without a result, by which event, and what is written
down of it. -/
inductive GivesUp (id : Nat) (c : Call) : Event → Occurrence → Prop
  | panicked {invocation since : Nat} {limit : Option WaitLimit}
      (at_resolver : c.stage = .resolving invocation since limit) :
      GivesUp id c (.reply id .panicked) (.panicked id)
  | abandoned : GivesUp id c (.abandon id) (.abandoned id)

variable {host : Host} {s : Service α} {now id : Nat} {c : Call} {r : Request}

/-! ## Upkeep -/

/-- What upkeep leaves alone: the lock, the circuit and the calls. The
cache may have lost entries, the service may be shut down, and the journal
says if memory was asked to be reclaimed. -/
structure Tended (now : Nat) (s s' : Service α) : Prop where
  settings_eq : s'.settings = s.settings
  lock_eq : s'.lock = s.lock
  breaker_eq : s'.breaker = s.breaker
  calls_eq : s'.calls = s.calls
  asked_eq : s'.asked = s.asked
  cache_tended : s.cache.Tended now s'.cache
  isDisposed_mono : s.isDisposed = true → s'.isDisposed = true
  journal_eq : s'.journal = s.journal ∨ s'.journal = ⟨now, .reclaimed⟩ :: s.journal

theorem Tended.within_cache {s' : Service α} (h : Tended now s s') : s'.cache.Within s.cache :=
  h.cache_tended.within

theorem Tended.refl (now : Nat) (s : Service α) : Tended now s s :=
  ⟨rfl, rfl, rfl, rfl, rfl, .untouched, id, Or.inl rfl⟩

/-- The other parts may change as they like. -/
theorem Tended.of_parts {t : Service α} {bucket : TokenBucket α} {monitor : PressureMonitor}
    {sweeper watcher : Option Ticker}
    (h : Tended now { s with bucket, monitor, sweeper, watcher } t) : Tended now s t :=
  ⟨h.settings_eq, h.lock_eq, h.breaker_eq, h.calls_eq, h.asked_eq, h.cache_tended,
    h.isDisposed_mono, h.journal_eq⟩

theorem tended_clearCache : Tended now s.quiet s.clearCache.quiet :=
  ⟨rfl, rfl, rfl, rfl, rfl, .cleared, id, Or.inl rfl⟩

theorem tended_sweep : Tended now s.quiet (s.sweep now).quiet := by
  rw [sweep, quiet_report]
  exact ⟨rfl, rfl, rfl, rfl, rfl, .swept, id, Or.inl rfl⟩

theorem tended_dispose : Tended now s.quiet (s.dispose now).quiet := by
  rw [dispose]
  split
  · exact Tended.refl _ _
  · rw [quiet_report]
    exact ⟨rfl, rfl, rfl, rfl, rfl, .cleared, fun _ => rfl, Or.inl rfl⟩

theorem quiet_onPressure (level : PressureLevel) :
    (s.onPressure host now level).quiet = s.quiet.clearCache := by
  simp only [onPressure]
  rw [quiet_capture, quiet_report]
  rfl

theorem quiet_reclaim : (s.reclaim now).quiet = s.quiet.note now .reclaimed := by
  rw [reclaim, quiet_note rfl, quiet_report]

theorem tended_follow (f : PressureMonitor.Finding) :
    Tended now s.quiet (s.follow host now f).quiet := by
  simp only [follow]
  cases f.handled? with
  | none =>
    split
    · rw [quiet_reclaim, quiet_report]
      exact ⟨rfl, rfl, rfl, rfl, rfl, .untouched, id, Or.inr rfl⟩
    · rw [quiet_report]
      exact Tended.refl _ _
  | some level =>
    split
    · rw [quiet_reclaim, quiet_onPressure, quiet_report]
      exact ⟨rfl, rfl, rfl, rfl, rfl, .cleared, id, Or.inr rfl⟩
    · rw [quiet_onPressure, quiet_report]
      exact tended_clearCache

theorem tended_checkMemory (reading : Except Error MemoryUsage) :
    Tended now s.quiet (s.checkMemory host now reading).quiet :=
  .of_parts (tended_follow (s := { s with monitor := (s.monitor.check now reading).1 }) _)

theorem tended_sweepTick {t : Service α} (h : s.sweepTick? now = some t) :
    Tended now s.quiet t.quiet := by
  obtain ⟨_, -, hring⟩ := Option.bind_eq_some_iff.mp h
  obtain ⟨ticker, -, hsweep⟩ := Option.bind_eq_some_iff.mp hring
  obtain rfl := Option.some.inj hsweep
  exact .of_parts (tended_sweep (s := { s with sweeper := some ticker }))

theorem tended_watchTick {reading : Except Error MemoryUsage} {t : Service α}
    (h : s.watchTick? host now reading = some t) : Tended now s.quiet t.quiet := by
  obtain ⟨_, -, hring⟩ := Option.bind_eq_some_iff.mp h
  obtain ⟨ticker, -, hcheck⟩ := Option.bind_eq_some_iff.mp hring
  obtain rfl := Option.some.inj hcheck
  exact .of_parts (tended_checkMemory (s := { s with watcher := some ticker }) reading)

theorem tended_readBucket [Scalar α] : Tended now s.quiet (s.readBucket now).1.quiet :=
  .of_parts (.refl now { s.quiet with bucket := (s.bucket.available now).1 })

variable [Scalar α]

/-! ## How calls begin -/

/-- A call that begins is given a token. -/
def takeToken (s : Service α) (now : Nat) (r : Request) : Service α :=
  { (s.begin now r).note now (.rated s.asked true) with bucket := (s.bucket.consume now).1 }

/-- And then it looks in the cache. -/
def arrive (s : Service α) (now : Nat) (r : Request) : Service α :=
  (s.takeToken now r).lookUp now r.cacheKey

/-- A call that begins is refused a token. -/
def limit (s : Service α) (now : Nat) (r : Request) : Service α :=
  { (s.begin now r).note now (.rated s.asked false) with
    bucket := ((s.bucket.consume now).1.timeUntilNext now).1 }.finish now s.asked
      (.error (.rateLimited (some ((s.bucket.consume now).1.timeUntilNext now).2)))

/-- How far a call gets at once. -/
inductive Begins (now : Nat) (s : Service α) (r : Request) : Service α → Prop
  | disposed (is_disposed : s.isDisposed = true) :
      Begins now s r ((s.begin now r).finish now s.asked (.error .disposed))
  | invalid {e : Error} (not_disposed : s.isDisposed = false)
      (is_invalid : s.settings.validation.check r = .error e) :
      Begins now s r ((s.begin now r).finish now s.asked (.error e))
  | limited (not_disposed : s.isDisposed = false) (no_token : (s.bucket.consume now).2 = false) :
      Begins now s r (s.limit now r)
  | hit {v : CapabilitySet} (not_disposed : s.isDisposed = false)
      (token : (s.bucket.consume now).2 = true)
      (is_hit : (s.cache.get now r.cacheKey).2 = .hit v) :
      Begins now s r ((s.arrive now r).finish now s.asked (.ok v))
  | refused (not_disposed : s.isDisposed = false) (token : (s.bucket.consume now).2 = true)
      (no_hit : ∀ v, (s.cache.get now r.cacheKey).2 ≠ .hit v)
      (is_refused : (s.breaker.receive now).2 = .refused) :
      Begins now s r
        (((s.arrive now r).meetCircuit now).finish now s.asked (.error .serviceUnavailable))
  /-- It gets through the gates, and its first attempt begins. -/
  | passed {isTrial : Bool} (not_disposed : s.isDisposed = false)
      (token : (s.bucket.consume now).2 = true)
      (no_hit : ∀ v, (s.cache.get now r.cacheKey).2 ≠ .hit v)
      (is_passed : (s.breaker.receive now).2 = if isTrial then .trial else .passed) :
      Begins now s r
        ((((s.arrive now r).meetCircuit now).note now (.passed s.asked isTrial)).beginAttempt now
          s.asked ⟨r, now, isTrial, 1, .pausing now⟩)

theorem quiet_enterBucket_of_refused (h : (s.bucket.consume now).2 = false) :
    ((s.begin now r).enterBucket host now s.asked r).quiet = s.quiet.limit now r := by
  simp only [enterBucket, begin, note, h, Bool.false_eq_true, if_false]
  rw [quiet_answer, quiet_report]
  simp only [limit, begin, note, quiet]
  rfl

theorem enterBucket_of_passed (h : (s.bucket.consume now).2 = true) :
    (s.begin now r).enterBucket host now s.asked r =
      (s.takeToken now r).enterCache host now s.asked r := by
  simp only [enterBucket, begin, note, h, if_true, takeToken]

theorem begins_enterCircuit {t : Service α} (ht : t.quiet = s.quiet.arrive now r)
    (hdisposed : s.isDisposed = false) (htoken : (s.bucket.consume now).2 = true)
    (hmiss : ∀ v, (s.cache.get now r.cacheKey).2 ≠ .hit v) :
    Begins now s.quiet r (t.enterCircuit host now s.asked r).quiet := by
  have hbreaker : t.breaker = s.breaker := (congrArg breaker ht :)
  cases hreception : (s.breaker.receive now).2 with
  | refused =>
    rw [quiet_enterCircuit_of_refused (by rw [hbreaker, hreception]), ht]
    exact .refused hdisposed htoken hmiss hreception
  | passed =>
    rw [quiet_enterCircuit_of_passed false (by simp [hbreaker, hreception]), ht]
    exact .passed hdisposed htoken hmiss hreception
  | trial =>
    rw [quiet_enterCircuit_of_passed true (by simp [hbreaker, hreception]), ht]
    exact .passed hdisposed htoken hmiss hreception

theorem begins_enterBucket (hdisposed : s.isDisposed = false) :
    Begins now s.quiet r ((s.begin now r).enterBucket host now s.asked r).quiet := by
  cases htoken : (s.bucket.consume now).2 with
  | false =>
    rw [quiet_enterBucket_of_refused htoken]
    exact .limited hdisposed htoken
  | true =>
    rw [enterBucket_of_passed htoken]
    by_cases hhit : ∃ v, (s.cache.get now r.cacheKey).2 = .hit v
    · obtain ⟨v, hv⟩ := hhit
      rw [quiet_enterCache_of_hit (s := s.takeToken now r) hv]
      exact .hit hdisposed htoken hv
    · have hmiss : ∀ v, (s.cache.get now r.cacheKey).2 ≠ .hit v := fun v hv => hhit ⟨v, hv⟩
      obtain ⟨signals, heq⟩ := enterCache_of_miss (s := s.takeToken now r) hmiss
      rw [heq]
      exact begins_enterCircuit (quiet_report signals) hdisposed htoken hmiss

/-- **How a call begins.** It passes the gates in their order, as far as it
gets. -/
theorem begins_ask : Begins now s.quiet r (s.ask host now r).quiet := by
  change Begins now s.quiet r (if s.isDisposed then
    (s.begin now r).answer host now s.asked r now (.error .disposed) else _ : Service α).quiet
  by_cases hdisposed : s.isDisposed = true
  · rw [if_pos hdisposed, quiet_answer]
    exact .disposed hdisposed
  · have hopen : s.isDisposed = false := by simpa using hdisposed
    rw [if_neg hdisposed]
    split
    · next e hvalid =>
      rw [quiet_answer]
      exact .invalid (s := s.quiet) hopen hvalid
    · exact begins_enterBucket hopen

/-! ## Every event -/

/-- **What happens in one step**, apart from reports. -/
inductive Advance (host : Host) (now : Nat) (s : Service α) : Event → Service α → Prop
  | began {r : Request} {s' : Service α} (begins : Begins now s r s') :
      Advance host now s (.ask r) s'
  /-- A call finds that it has been handed the lock, and asks the resolver. -/
  | granted {id : Nat} {c : Call} {limit : Option WaitLimit} (is_call : s.call? id = some c)
      (in_line : c.stage = .waiting limit) (has_lock : (s.lock.look now id).2 = .acquired) :
      Advance host now s (.poll id)
        ({ s with lock := (s.lock.look now id).1 }.invoke now id c limit)
  /-- A pause is over, and the next attempt begins. -/
  | resumed {id : Nat} {c : Call} {wakeAt : Nat} (is_call : s.call? id = some c)
      (at_rest : c.stage = .pausing wakeAt) (is_time : wakeAt ≤ now) :
      Advance host now s (.poll id) (s.beginAttempt now id { c with attempt := c.attempt + 1 })
  | paused {event : Event} {id : Nat} {c : Call} {e : Error} {delay : Nat}
      (is_call : s.call? id = some c) (ends : AttemptEnds now s id c event (.error e))
      (verdict : s.settings.retry.verdict (host.draws id c.attempt) c.attempt
        (.error e : Except Error CapabilitySet) = .again delay) :
      Advance host now s event ((s.leaveLock id).pause now id c e (Instant.after now delay))
  | failed {event : Event} {id : Nat} {c : Call} {e : Error} (is_call : s.call? id = some c)
      (ends : AttemptEnds now s id c event (.error e))
      (verdict : s.settings.retry.verdict (host.draws id c.attempt) c.attempt
        (.error e : Except Error CapabilitySet) = .final) :
      Advance host now s event ((s.leaveLock id).fail now id c e)
  | succeeded {event : Event} {id : Nat} {c : Call} {v : CapabilitySet}
      (is_call : s.call? id = some c) (ends : AttemptEnds now s id c event (.ok v)) :
      Advance host now s event ((s.leaveLock id).succeed now id c.request.cacheKey v)
  | gaveUp {event : Event} {id : Nat} {c : Call} {o : Occurrence} (is_call : s.call? id = some c)
      (gives_up : GivesUp id c event o) : Advance host now s event (s.giveUp now id c o)
  /-- The service is tended, or the event cannot happen. -/
  | tended {event : Event} {s' : Service α} (tended : Tended now s s') :
      Advance host now s event s'

/-- An attempt that ends is the last one, or it is followed by another. -/
theorem advance_endAttempt {event : Event} {result : Except Error CapabilitySet}
    (hc : s.call? id = some c) (h : AttemptEnds now s.quiet id c event result) :
    Advance host now s.quiet event ((s.leaveLock id).endAttempt host now id c result).quiet := by
  cases result with
  | ok v =>
    rw [quiet_endAttempt_ok]
    exact .succeeded hc h
  | error e =>
    cases hverdict : s.settings.retry.verdict (host.draws id c.attempt) c.attempt
        (.error e : Except Error CapabilitySet) with
    | again delay =>
      rw [quiet_endAttempt_of_again (s := s.leaveLock id) hverdict]
      exact .paused hc h hverdict
    | final =>
      rw [quiet_endAttempt_of_final (s := s.leaveLock id) hverdict]
      exact .failed hc h hverdict

theorem advance_poll {t : Service α} (h : s.poll? host now id = some t) :
    Advance host now s.quiet (.poll id) t.quiet := by
  obtain ⟨c, hc, h⟩ := Option.bind_eq_some_iff.mp h
  split at h
  · next limit hstage =>
    -- in line, it first looks at the lock and then at the clock
    split at h
    · next lock hlook =>
      obtain rfl := Option.some.inj h
      rw [quiet_invoke]
      have hlocked : s.quiet.lock.look now id = (lock, .acquired) := hlook
      have hgranted : Advance host now s.quiet (.poll id) _ :=
        .granted hc hstage (congrArg (·.2) hlocked)
      rwa [hlocked] at hgranted
    · next lock after hlook =>
      obtain rfl := Option.some.inj h
      have hlate : (s.lock.look now id).2 = .timedOut after := by rw [hlook]
      have hleft : lock = s.lock.leave id := by
        rw [← Lock.look_of_timedOut hlate, hlook]
      rw [hleft]
      exact advance_endAttempt hc (.lockTimedOut hstage hlate)
    · split at h
      · next hover =>
        obtain rfl := Option.some.inj h
        exact advance_endAttempt hc (.timedOut (Or.inl hstage) hover)
      · cases h
  · next invocation since limit hstage =>
    split at h
    · next hover =>
      obtain rfl := Option.some.inj h
      exact advance_endAttempt hc (.timedOut (Or.inr ⟨_, _, hstage⟩) hover)
    · cases h
  · next wakeAt hstage =>
    split at h
    · cases h
    · next hnow =>
      obtain rfl := Option.some.inj h
      rw [quiet_beginAttempt]
      exact .resumed hc hstage (Nat.le_of_not_lt hnow)

theorem advance_reply {reply : Reply CapabilitySet} {t : Service α}
    (h : s.reply? host now id reply = some t) :
    Advance host now s.quiet (.reply id reply) t.quiet := by
  obtain ⟨c, hc, hreply⟩ := Option.bind_eq_some_iff.mp h
  split at hreply
  · next invocation since limit result hstage =>
    obtain rfl := Option.some.inj hreply
    exact advance_endAttempt hc (.replied result hstage)
  · next invocation since limit hstage =>
    obtain rfl := Option.some.inj hreply
    rw [quiet_giveUp rfl]
    exact .gaveUp hc (.panicked hstage)
  · cases hreply

theorem advance_abandon {t : Service α} (h : s.abandon? now id = some t) :
    Advance host now s.quiet (.abandon id) t.quiet := by
  obtain ⟨c, hc, h⟩ := Option.bind_eq_some_iff.mp h
  obtain rfl := Option.some.inj h
  rw [quiet_giveUp rfl]
  exact .gaveUp hc .abandoned

/-- An event that may not be able to happen. -/
theorem advance_getD {event : Event} {next? : Option (Service α)}
    (h : ∀ t, next? = some t → Advance host now s.quiet event t.quiet) :
    Advance host now s.quiet event (next?.getD s).quiet := by
  cases next? with
  | none => exact .tended (Tended.refl _ _)
  | some t => exact h t rfl

/-- **Nothing else happens.** Every event does one of these things to the
service, or changes nothing. -/
theorem advance_step (s : Service α) (event : Event) :
    Advance host now s.quiet event (s.step host now event).quiet := by
  cases event with
  | ask r => exact .began begins_ask
  | poll id => exact advance_getD fun _ => advance_poll
  | reply id reply => exact advance_getD fun _ => advance_reply
  | abandon id => exact advance_getD fun _ => advance_abandon
  | clearCache => exact .tended tended_clearCache
  | sweep => exact .tended tended_sweep
  | checkMemory reading => exact .tended (tended_checkMemory reading)
  | sweepTick => exact advance_getD fun _ h => .tended (tended_sweepTick h)
  | watchTick reading => exact advance_getD fun _ h => .tended (tended_watchTick h)
  | readBucket => exact .tended tended_readBucket
  | dispose => exact .tended tended_dispose

/-- **What every step keeps is true after every history.** -/
theorem run_induction {P : Service α → Prop} {events : List (Nat × Event)}
    (hstep : ∀ e ∈ events, ∀ s t, P s → Advance host e.1 s e.2 t → P t) (h : P s.quiet) :
    P (s.run host events).quiet := by
  induction events generalizing s with
  | nil => exact h
  | cons e events ih =>
    obtain ⟨he, hevents⟩ := List.forall_mem_cons.mp hstep
    exact ih hevents (he _ _ h (advance_step s e.2))

end Service

end CapabilityBroker
