import CapabilityBroker.Proofs.Breaker.Trials
import CapabilityBroker.Proofs.Service.Provenance
/-!
# Calls that end at a gate

Each gate can end a call, and then nothing behind it learns of the call.
`turnAway` is a service after a call that began and ended at once: it has
counted the call and written down its lines, and that is all. What a gate
itself changes is said next to it, one equation for each gate, so every
part that an equation does not name is as it was before: the lock, the
circuit, the other calls, the invocations of the resolver. The equations
hold in every state, whether a history leads there or not.
-/

namespace CapabilityBroker

/-- A bucket without a token is refilled and nothing else. -/
theorem TokenBucket.consume_of_no_token {α : Type} [Scalar α] {b : TokenBucket α} {now : Nat}
    (h : (b.consume now).2 = false) : (b.consume now).1 = b.refill now := by
  simp only [consume] at h ⊢
  split at h
  · cases h
  · next hnone => rw [if_neg hnone]

namespace Service

variable {α : Type}

/-- **A call ends where it began.** It is counted and answered. The lines
in between are about the token that it was given or refused, if it came so
far. -/
def turnAway (s : Service α) (now : Nat) (r : Request) (token : Option Bool)
    (result : Except Error CapabilitySet) : Service α :=
  { s with
    calls := s.calls.filter (·.1 ≠ s.asked)
    asked := s.asked + 1
    journal := ⟨now, .answered s.asked result⟩ ::
      ((token.map fun passes => (⟨now, .rated s.asked passes⟩ : JournalLine)).toList ++
        ⟨now, .asked s.asked r⟩ :: s.journal) }

variable {host : Host} {s : Service α} {now : Nat} {r : Request}

/-- A circuit that refuses a call is as it was. -/
theorem meetCircuit_of_refused (h : (s.breaker.receive now).2 = .refused) :
    s.meetCircuit now = s := by
  rw [meetCircuit, CircuitBreaker.receive_of_refused h]

variable [Scalar α]

/-- The first two gates. -/
theorem ask_eq : s.ask host now r =
    if s.isDisposed then (s.begin now r).answer host now s.asked r now (.error .disposed)
    else match s.settings.validation.check r with
      | .error e => (s.begin now r).answer host now s.asked r now (.error e)
      | .ok _ => (s.begin now r).enterBucket host now s.asked r := rfl

/-- A call whose request is fine comes to the rate limit. -/
theorem ask_of_valid (hopen : s.isDisposed = false)
    (hvalid : s.settings.validation.check r = .ok ()) :
    s.ask host now r = (s.begin now r).enterBucket host now s.asked r := by
  rw [ask_eq, if_neg (by simp [hopen]), hvalid]

/-- A call that is given a token comes to the cache. -/
theorem ask_of_token (hopen : s.isDisposed = false)
    (hvalid : s.settings.validation.check r = .ok ()) (htoken : (s.bucket.consume now).2 = true) :
    s.ask host now r = (s.takeToken now r).enterCache host now s.asked r := by
  rw [ask_of_valid hopen hvalid, enterBucket_of_passed htoken]

/-- What a call leaves in the cache by looking there. -/
theorem arrive_of_get {cache : Cache} (h : (s.cache.get now r.cacheKey).1 = cache) :
    s.arrive now r = { s.takeToken now r with cache } := by
  rw [← h]
  rfl

/-! ## The gates -/

/-- A service that is shut down answers so. -/
theorem quiet_ask_of_disposed (h : s.isDisposed = true) :
    (s.ask host now r).quiet = s.quiet.turnAway now r none (.error .disposed) := by
  rw [ask_eq, if_pos h, quiet_answer]
  rfl

/-- A request that is not fine is answered with what is wrong with it. -/
theorem quiet_ask_of_invalid {e : Error} (hopen : s.isDisposed = false)
    (hinvalid : s.settings.validation.check r = .error e) :
    (s.ask host now r).quiet = s.quiet.turnAway now r none (.error e) := by
  rw [ask_eq, if_neg (by simp [hopen]), hinvalid]
  exact quiet_answer _

/-- A call without a token is told when there will be one. The bucket is
refilled to see if there is one now, and again for the hint. -/
theorem quiet_ask_of_no_token (hopen : s.isDisposed = false)
    (hvalid : s.settings.validation.check r = .ok ())
    (hnone : (s.bucket.consume now).2 = false) :
    (s.ask host now r).quiet =
      { s.quiet.turnAway now r (some false)
          (.error (.rateLimited (some ((s.bucket.refill now).timeUntilNext now).2))) with
        bucket := (s.bucket.refill now).refill now } := by
  rw [ask_of_valid hopen hvalid, quiet_enterBucket_of_refused hnone]
  have hbucket : (s.quiet.bucket.consume now).1 = s.bucket.refill now :=
    TokenBucket.consume_of_no_token hnone
  simp only [limit, hbucket]
  rfl

/-- A call that finds its answer in the cache gets it, and the circuit is
not asked. -/
theorem quiet_ask_of_hit {v : CapabilitySet} (hopen : s.isDisposed = false)
    (hvalid : s.settings.validation.check r = .ok ()) (htoken : (s.bucket.consume now).2 = true)
    (hhit : (s.cache.get now r.cacheKey).2 = .hit v) :
    (s.ask host now r).quiet =
      { s.quiet.turnAway now r (some true) (.ok v) with
        bucket := (s.bucket.consume now).1
        cache := { s.cache with
          recency := s.cache.recency.touch r.cacheKey
          hits := s.cache.hits + 1 } } := by
  have hlooked := arrive_of_get (s := s.quiet) (Cache.get_of_hit hhit)
  rw [ask_of_token hopen hvalid htoken, quiet_enterCache_of_hit (s := s.takeToken now r) hhit]
  change (s.quiet.arrive now r).finish now s.asked (.ok v) = _
  rw [hlooked]
  rfl

/-- A call that the circuit refuses has looked in the cache in vain, and
that is all that is left of it there. -/
theorem quiet_ask_of_refused (hopen : s.isDisposed = false)
    (hvalid : s.settings.validation.check r = .ok ()) (htoken : (s.bucket.consume now).2 = true)
    (hmiss : ∀ v, (s.cache.get now r.cacheKey).2 ≠ .hit v)
    (hrefused : (s.breaker.receive now).2 = .refused) :
    (s.ask host now r).quiet =
      { s.quiet.turnAway now r (some true) (.error .serviceUnavailable) with
        bucket := (s.bucket.consume now).1
        cache := { s.cache.erase r.cacheKey with
          misses := s.cache.misses + 1
          evictions := s.cache.evictions +
            if (s.cache.find? r.cacheKey).isSome then 1 else 0 } } := by
  have hlooked := arrive_of_get (s := s.quiet) (Cache.get_of_not_hit hmiss).1
  have hmet := meetCircuit_of_refused (s := s.quiet.arrive now r) hrefused
  obtain ⟨signals, hmissed⟩ : ∃ signals, (s.takeToken now r).enterCache host now s.asked r =
      (((s.takeToken now r).lookUp now r.cacheKey).report now signals).enterCircuit host now
        s.asked r := enterCache_of_miss hmiss
  rw [ask_of_token hopen hvalid htoken, hmissed,
    quiet_enterCircuit_of_refused (s := ((s.takeToken now r).lookUp now r.cacheKey).report now
      signals) hrefused, quiet_report]
  change ((s.quiet.arrive now r).meetCircuit now).finish now s.asked _ = _
  rw [hmet, hlooked]
  rfl

/-- **What is behind a gate does not learn of a call that ends there.** In
every state of a service, a call that is shut out or whose request is not
fine changes none of its parts. One that is refused a token leaves the
bucket refilled and no more. A hit is answered wherever the circuit is, and
costs a token and a use of the entry. A call that the circuit refuses costs
a token, is counted as a miss and takes away the entry of its key, whose
time is over, if there is one. -/
theorem early_exits (host : Host) (s : Service α) (now : Nat) (r : Request) :
    (s.isDisposed = true →
      (s.ask host now r).quiet = s.quiet.turnAway now r none (.error .disposed)) ∧
    (s.isDisposed = false → ∀ e, s.settings.validation.check r = .error e →
      (s.ask host now r).quiet = s.quiet.turnAway now r none (.error e)) ∧
    (s.isDisposed = false → s.settings.validation.check r = .ok () →
      ((s.bucket.consume now).2 = false →
        (s.ask host now r).quiet =
          { s.quiet.turnAway now r (some false)
              (.error (.rateLimited (some ((s.bucket.refill now).timeUntilNext now).2))) with
            bucket := (s.bucket.refill now).refill now }) ∧
      ((s.bucket.consume now).2 = true →
        (∀ v, (s.cache.get now r.cacheKey).2 = .hit v →
          (s.ask host now r).quiet =
            { s.quiet.turnAway now r (some true) (.ok v) with
              bucket := (s.bucket.consume now).1
              cache := { s.cache with
                recency := s.cache.recency.touch r.cacheKey
                hits := s.cache.hits + 1 } }) ∧
        ((∀ v, (s.cache.get now r.cacheKey).2 ≠ .hit v) →
          (∀ e, s.cache.find? r.cacheKey = some e →
            e.isExpired s.cache.limits.ttl now = true) ∧
          ((s.breaker.receive now).2 = .refused →
            (s.ask host now r).quiet =
              { s.quiet.turnAway now r (some true) (.error .serviceUnavailable) with
                bucket := (s.bucket.consume now).1
                cache := { s.cache.erase r.cacheKey with
                  misses := s.cache.misses + 1
                  evictions := s.cache.evictions +
                    if (s.cache.find? r.cacheKey).isSome then 1 else 0 } })))) := by
  refine ⟨quiet_ask_of_disposed, fun hopen e => quiet_ask_of_invalid hopen,
    fun hopen hvalid => ⟨quiet_ask_of_no_token hopen hvalid, fun htoken => ?_⟩⟩
  refine ⟨fun v => quiet_ask_of_hit hopen hvalid htoken, fun hmiss => ⟨?_, ?_⟩⟩
  · exact (Cache.get_of_not_hit hmiss).2
  · exact quiet_ask_of_refused hopen hvalid htoken hmiss

/-- A service whose circuit waits for the outcome of a trial. -/
def tryingService : Service Rat :=
  { (Service.start silentHost {} false false 0 : Service Rat) with
    breaker := ⟨{}, .halfOpen, 5, 0, true⟩ }

/-- The next call costs a token and is counted as a miss, and the service is
as before but for that. -/
theorem trial_shuts_others_out :
    tryingService.isDisposed = false ∧
      tryingService.settings.validation.check { configuration := some {} } = .ok () ∧
      (tryingService.bucket.consume 0).2 = true ∧
      (tryingService.breaker.receive 0).2 = .refused ∧
      (tryingService.ask silentHost 0 { configuration := some {} }).quiet =
        { tryingService.quiet.turnAway 0 { configuration := some {} } (some true)
            (.error .serviceUnavailable) with
          bucket := (tryingService.bucket.consume 0).1
          cache := { Cache.new {} with misses := 1 } } := by
  have hvalid : tryingService.settings.validation.check { configuration := some {} } = .ok () := by
    have hok :
        (tryingService.settings.validation.check { configuration := some {} }).isOk = true := by
      decide +kernel
    cases hcheck : tryingService.settings.validation.check { configuration := some {} } with
    | ok => rfl
    | error e => simp [hcheck, Except.isOk, Except.toBool] at hok
  have htoken : (tryingService.bucket.consume 0).2 = true := by decide +kernel
  obtain ⟨-, -, hgates⟩ := early_exits silentHost tryingService 0 { configuration := some {} }
  obtain ⟨-, hrefused⟩ := ((hgates rfl hvalid).2 htoken).2 fun v hhit => nomatch hhit
  refine ⟨rfl, hvalid, htoken, rfl, ?_⟩
  exact hrefused rfl

end Service

end CapabilityBroker
