import CapabilityBroker.Proofs.Service.Careers
import CapabilityBroker.Proofs.Service.Provenance
import CapabilityBroker.Proofs.Service.Trials
/-!
# What comes of the attempts of a call

What a call returns is decided by what its attempts come to, in their
order, and by nothing else (`Returns`); while it is on its way, nothing has
come of it yet (`Strives`). Both are read off from what is told of the call.
What attempts come to is up to the resolver and the clock (`ComesTo`), and
what the cache is given is in the journal (`CacheMoves`).
-/

namespace CapabilityBroker

namespace Service

/-! ## What is looked for in a journal -/

/-- The result of an attempt that ends. -/
def Occurrence.result? : Occurrence → Option (Except Error CapabilitySet)
  | .attempted _ result => some result
  | _ => none

/-- The key for which the resolver is asked. -/
def Occurrence.asking? : Occurrence → Option CacheKey
  | .invoked _ k => some k
  | _ => none

/-- What the circuit learns. -/
def Occurrence.report? : Occurrence → Option Bool
  | .recorded _ succeeded => some succeeded
  | _ => none

/-- What is handed to the cache, and for which call and key. -/
def Occurrence.storing? : Occurrence → Option (Nat × CacheKey × CapabilitySet)
  | .stored id k v _ => some (id, k, v)
  | _ => none

variable {α : Type} {s t u : Service α} {host : Host} {now id limit : Nat} {k : CacheKey}
  {r : Request} {isTrial kept : Bool} {result : Except Error CapabilitySet}
  {attempts : List Attempt} {os : List Occurrence} {c : Call} {c? : Option Call}
  {journal : List JournalLine} {j : Nat}

/-- What is looked for in the lines about attempts. -/
theorem tried_selected (id : Nat) (r : Request) (isTrial : Bool) (attempts : List Attempt) :
    (tried id r isTrial attempts).filterMap Occurrence.result? = attempts.map (·.result) ∧
    (tried id r isTrial attempts).filterMap Occurrence.asking? =
      (attempts.filter (·.wasAsked)).map (fun _ => r.cacheKey) ∧
    (tried id r isTrial attempts).filterMap Occurrence.report? = [] ∧
    (tried id r isTrial attempts).filterMap Occurrence.storing? = [] := by
  induction attempts with
  | nil => exact ⟨rfl, rfl, rfl, rfl⟩
  | cons a attempts ih =>
    obtain ⟨hresults, haskings, hreports, hstorings⟩ := ih
    simp only [tried_cons, List.filterMap_append, hresults, haskings, hreports, hstorings,
      Attempt.told, List.filter_cons]
    cases a.wasAsked <;> exact ⟨rfl, rfl, rfl, rfl⟩

/-- And in the lines about the end of a call: what the circuit learns, and
an answer to store. -/
theorem ending_selected (id : Nat) (k : CacheKey) (kept : Bool)
    (result : Except Error CapabilitySet) :
    (ending id k kept result).filterMap Occurrence.result? = [] ∧
    (ending id k kept result).filterMap Occurrence.asking? = [] ∧
    (ending id k kept result).filterMap Occurrence.report? = [result.isOk] ∧
    (ending id k kept result).filterMap Occurrence.storing? =
      match result with
      | .ok v => [(id, k, v)]
      | .error _ => [] := by
  cases result <;> exact ⟨rfl, rfl, rfl, rfl⟩

/-! ## What a call returns -/

/-- The results of the attempts that are told of. -/
def results (os : List Occurrence) : List (Except Error CapabilitySet) :=
  os.filterMap Occurrence.result?

/-- **What a call returns** that passed the circuit, by what is told of it
from its beginning on. -/
structure Returns (limit id : Nat) (os : List Occurrence) (result : Except Error CapabilitySet) :
    Prop where
  /-- By any script that its attempts follow, it succeeds exactly if some
  attempt within the limit does after transient failures only. -/
  isOk_iff {script : Nat → Except Error CapabilitySet}
    (follows : RetryPolicy.Follows script (results os)) :
    result.isOk = true ↔ ∃ i, 1 ≤ i ∧ i ≤ limit ∧ (script i).isOk = true ∧
      ∀ j, 1 ≤ j → j < i → RetryPolicy.isTransient (script j) = true
  /-- The result is that of the last attempt, an error without wrappings. -/
  eq_last {script : Nat → Except Error CapabilitySet}
    (follows : RetryPolicy.Follows script (results os)) :
    RetryPolicy.Concludes limit script (results os).length ∧
      result = (script (results os).length).mapError Error.root
  not_wrapped (n : Nat) (e : Error) : result ≠ .error (.retryExhausted n e)
  askings_le : (os.filterMap Occurrence.asking?).length ≤ limit
  /-- The circuit learns once how it went. -/
  reports_eq : os.filterMap Occurrence.report? = [result.isOk]
  /-- An answer is stored under the key of the request, and nothing else. -/
  storings_eq : ∃ r, (∀ q, .asked id q ∈ os ↔ q = r) ∧ os.filterMap Occurrence.storing? =
    match result with
    | .ok v => [(id, r.cacheKey, v)]
    | .error _ => []

/-- A call on its way has used up some of its attempts, and nothing came of
them yet. -/
structure Strives (limit : Nat) (os : List Occurrence) : Prop where
  transient : ∀ result ∈ results os, RetryPolicy.isTransient result = true
  left : (results os).length < limit
  reports_eq : os.filterMap Occurrence.report? = []
  storings_eq : os.filterMap Occurrence.storing? = []

theorem asked_mem_tried {q : Request} : .asked id q ∈ tried id r isTrial attempts ↔ q = r := by
  simp [tried, Attempt.told]

theorem answered_mem_ending {answer : Except Error CapabilitySet} :
    .answered id answer ∈ ending id k kept result ↔ answer = result.mapError Error.root := by
  cases result <;> simp [ending, Except.mapError]

theorem asked_not_mem_ending {q : Request} : .asked id q ∉ ending id k kept result := by
  cases result <;> simp [ending]

theorem isOk_mapError : (result.mapError Error.root).isOk = result.isOk := by
  cases result <;> rfl

theorem mapError_ne_retryExhausted (n : Nat) (e : Error) :
    result.mapError Error.root ≠ .error (.retryExhausted n e) := by
  cases result with
  | ok v => exact nofun
  | error cause => simp [Except.mapError, Error.root_ne_retryExhausted]

theorem results_ended (last : Attempt) :
    results (ending id k kept last.result ++ tried id r isTrial (last :: attempts)).reverse =
      (attempts.map (·.result)).reverse ++ [last.result] := by
  rw [results, List.filterMap_reverse, List.filterMap_append, (ending_selected ..).1,
    (tried_selected ..).1]
  simp

/-- A call that has ended returns what its last attempt came to. -/
theorem returns_of_ended {last : Attempt}
    (htransient : ∀ a ∈ attempts, RetryPolicy.isTransient a.result = true)
    (hleft : attempts.length < limit)
    (hfinal : RetryPolicy.isTransient last.result = true → attempts.length + 1 = limit) :
    Returns limit id
      (ending id r.cacheKey kept last.result ++ tried id r isTrial (last :: attempts)).reverse
      (last.result.mapError Error.root) := by
  obtain ⟨-, haskings, hreports, hstorings⟩ := ending_selected id r.cacheKey kept last.result
  obtain ⟨-, haskings', hreports', hstorings'⟩ := tried_selected id r isTrial (last :: attempts)
  have hconcludes {script : Nat → Except Error CapabilitySet}
      (hfollows : RetryPolicy.Follows script ((attempts.map (·.result)).reverse ++ [last.result])) :
      RetryPolicy.Concludes limit script (attempts.length + 1) ∧
        script (attempts.length + 1) = last.result := by
    have h := RetryPolicy.Concludes.of_follows hfollows (by simpa using hleft)
      (by simpa using htransient) (by simpa using hfinal)
    simpa using h
  exact {
    isOk_iff := fun hfollows => by
      obtain ⟨hends, hlast⟩ := hconcludes (results_ended last ▸ hfollows)
      rw [isOk_mapError, ← hlast]
      exact hends.isOk_iff
    eq_last := fun hfollows => by
      obtain ⟨hends, hlast⟩ := hconcludes (results_ended last ▸ hfollows)
      have hlength : (results (ending id r.cacheKey kept last.result ++
          tried id r isTrial (last :: attempts)).reverse).length = attempts.length + 1 := by
        rw [results_ended]
        simp
      rw [hlength, hlast]
      exact ⟨hends, rfl⟩
    not_wrapped := mapError_ne_retryExhausted
    askings_le := by
      have hle := List.length_filter_le (·.wasAsked) (last :: attempts)
      rw [List.filterMap_reverse, List.filterMap_append, haskings, haskings']
      simp only [List.nil_append, List.length_reverse, List.length_map, List.length_cons] at hle ⊢
      omega
    reports_eq := by
      rw [List.filterMap_reverse, List.filterMap_append, hreports, hreports', isOk_mapError]
      rfl
    storings_eq := by
      refine ⟨r, fun q => ?_, ?_⟩
      · simp [asked_not_mem_ending, asked_mem_tried]
      · rw [List.filterMap_reverse, List.filterMap_append, hstorings, hstorings']
        cases last.result <;> rfl }

/-- A call that passed and is answered has ended. -/
theorem Career.returns (h : Career limit id c? os) (hpassed : .passed id isTrial ∈ os)
    (hanswered : .answered id result ∈ os) : Returns limit id os.reverse result := by
  cases h with
  | turnedAway hnot => exact absurd hpassed (hnot isTrial)
  | givenUp hnot _ => exact absurd hanswered (hnot result)
  | underway c attempts htransient hnumber hleft =>
    exact absurd hanswered (Career.underway c attempts htransient hnumber hleft).not_answered
  | ended r isTrial kept last attempts htransient hleft hfinal =>
    obtain rfl : result = last.result.mapError Error.root := by
      rcases List.mem_append.mp hanswered with hend | htried
      · exact answered_mem_ending.mp hend
      · exact absurd htried not_answered_tried
    exact returns_of_ended htransient hleft hfinal

/-- A call that passed and is not on its way any more was answered, or it
was given up. -/
theorem Career.ends (h : Career limit id none os) (hpassed : .passed id isTrial ∈ os) :
    (∃ result, .answered id result ∈ os) ∨ .abandoned id ∈ os ∨ .panicked id ∈ os := by
  cases h with
  | turnedAway hnot => exact absurd hpassed (hnot isTrial)
  | givenUp _ hgivenUp => exact .inr hgivenUp
  | ended _ _ _ last =>
    exact .inl ⟨_, List.mem_append_left _ (answered_mem_ending.mpr rfl)⟩

theorem Career.strives (h : Career limit id (some c) os) : Strives limit os.reverse := by
  cases h with
  | underway _ attempts htransient hnumber hleft =>
    obtain ⟨hresults, -, hreports, hstorings⟩ := tried_selected id c.request c.isTrial attempts
    have hstage : (c.stage.told id c.request.cacheKey).filterMap Occurrence.result? = [] ∧
        (c.stage.told id c.request.cacheKey).filterMap Occurrence.report? = [] ∧
        (c.stage.told id c.request.cacheKey).filterMap Occurrence.storing? = [] := by
      cases c.stage <;> exact ⟨rfl, rfl, rfl⟩
    constructor
    all_goals simp only [results, List.filterMap_reverse, List.filterMap_append]
    · rw [hstage.1, hresults]
      simpa using htransient
    · rw [hstage.1, hresults]
      simpa using hleft
    · rw [hstage.2.1, hreports]
      rfl
    · rw [hstage.2.2, hstorings]
      rfl

/-! ## What attempts come to -/

/-- What an attempt of a call comes to by an event: the reply of the
resolver, or a timeout in line for the lock or of the attempt. -/
inductive ComesTo (id : Nat) : Event → Except Error CapabilitySet → Prop
  | replied (result : Except Error CapabilitySet) : ComesTo id (.reply id (.done result)) result
  | lockTimedOut (after : Nat) : ComesTo id (.poll id) (.error (.lockTimeout after))
  | timedOut (after : Nat) : ComesTo id (.poll id) (.error (.timeout operation after))

theorem AttemptEnds.comesTo {event : Event} (h : AttemptEnds now s id c event result) :
    ComesTo id event result := by
  cases h with
  | replied => exact .replied _
  | lockTimedOut => exact .lockTimedOut _
  | timedOut => exact .timedOut _

/-- The result of an attempt of a call that ends. -/
def Occurrence.resultOf? (id : Nat) : Occurrence → Option (Except Error CapabilitySet)
  | .attempted j result => if j = id then some result else none
  | _ => none

theorem resultOf?_attempted : (Occurrence.attempted j result).resultOf? id =
    if j = id then some result else none := rfl

theorem results_told :
    results (told journal id) = journal.filterMap (·.occurrence.resultOf? id) := by
  rw [results, told, List.filterMap_filter, List.filterMap_map]
  congr 1
  funext l
  obtain ⟨t, o⟩ := l
  cases o <;> simp [Occurrence.caller?, Occurrence.result?, Occurrence.resultOf?]

/-- At most one attempt of a call ends by an event. The results are given
the latest first. -/
def EndsAttempt (event : Event) (id : Nat) (before after : List (Except Error CapabilitySet)) :
    Prop :=
  after = before ∨ ∃ result, ComesTo id event result ∧ after = result :: before

theorem endsAttempt_append {event : Event} (h : ComesTo j event result)
    (lines : List JournalLine) (hlines : results (told lines id) = []) :
    EndsAttempt event id (results (told journal id))
      (results (told (lines ++ ⟨now, .attempted j result⟩ :: journal) id)) := by
  rw [results_told] at hlines
  simp only [results_told, List.filterMap_append, hlines, List.nil_append, List.filterMap_cons,
    resultOf?_attempted]
  by_cases hj : j = id
  · rw [if_pos hj, ← hj]
    exact .inr ⟨result, h, rfl⟩
  · rw [if_neg hj]
    exact .inl rfl

theorem results_beginAttempt :
    results (told (s.beginAttempt now j c).journal id) = results (told s.journal id) := by
  obtain ⟨lock, limit, heq | heq⟩ := beginAttempt_cases s now j c
  all_goals
    rw [heq]
    simp only [results_told]
    rfl

theorem endsAttempt_advance [Scalar α] {event : Event} (hs : Advance host now s event t)
    (id : Nat) :
    EndsAttempt event id (results (told s.journal id)) (results (told t.journal id)) := by
  cases hs with
  | began hbegins =>
    refine .inl ?_
    cases hbegins with
    | passed =>
      rw [results_beginAttempt, results_told, results_told]
      rfl
    | _ =>
      rw [results_told, results_told]
      rfl
  | resumed => exact .inl results_beginAttempt
  | granted =>
    refine .inl ?_
    rw [results_told, results_told]
    rfl
  | paused _ hends => exact endsAttempt_append hends.comesTo [] rfl
  | @failed _ j c e _ hends =>
    exact endsAttempt_append hends.comesTo [⟨now, .answered j _⟩, ⟨now, .recorded j false⟩]
      (by rw [results_told]; rfl)
  | @succeeded _ j c v _ hends =>
    exact endsAttempt_append hends.comesTo
      [⟨now, .answered j (.ok v)⟩, ⟨now, .stored j _ v _⟩, ⟨now, .recorded j true⟩]
      (by rw [results_told]; rfl)
  | gaveUp _ hgives =>
    refine .inl ?_
    rw [results_told, results_told]
    cases hgives <;> rfl
  | tended ht =>
    refine .inl ?_
    rcases ht.journal_eq with hj | hj <;> rw [hj]
    rfl

/-! ## What the cache is given -/

/-- What was handed to the cache, the latest first. -/
def storings (journal : List JournalLine) : List (Nat × CacheKey × CapabilitySet) :=
  journal.filterMap (·.occurrence.storing?)

theorem storings_filter :
    storings (journal.filter fun l => !l.occurrence.isReport) = storings journal := by
  unfold storings
  rw [List.filterMap_filter]
  congr 1
  funext l
  cases l.occurrence <;> rfl

/-- The cache of a service changes only as the journal says: it loses
entries, or it is given an answer. -/
inductive CacheMoves (now : Nat) (s t : Service α) : Event → Prop
  | same {event : Event} (storings_eq : storings t.journal = storings s.journal)
      (within : t.cache.Within s.cache) : CacheMoves now s t event
  | given (id : Nat) (k : CacheKey) (v : CapabilitySet)
      (storings_eq : storings t.journal = (id, k, v) :: storings s.journal)
      (cache_eq : t.cache = (s.cache.insert now k v).1) :
      CacheMoves now s t (.reply id (.done (.ok v)))

/-- Reports make no difference to the cache. -/
theorem CacheMoves.of_quiet {event : Event} (h : CacheMoves now s.quiet t.quiet event) :
    CacheMoves now s t event := by
  cases h with
  | same hstorings hwithin =>
    exact .same (storings_filter.symm.trans (hstorings.trans storings_filter)) hwithin
  | given id k v hstorings hcache =>
    refine .given id k v (storings_filter.symm.trans (hstorings.trans ?_)) hcache
    exact congrArg _ storings_filter

theorem cacheMoves_beginAttempt {event : Event}
    (hstorings : storings u.journal = storings s.journal) (hwithin : u.cache.Within s.cache) :
    CacheMoves now s (u.beginAttempt now id c) event := by
  obtain ⟨lock, limit, heq | heq⟩ := beginAttempt_cases u now id c
  all_goals
    rw [heq]
    exact .same hstorings hwithin

theorem cacheMoves_advance [Scalar α] {event : Event} (hs : Advance host now s event t) :
    CacheMoves now s t event := by
  cases hs with
  | began hbegins =>
    cases hbegins with
    | disposed | invalid | limited => exact .same rfl (.refl _)
    | hit | refused => exact .same rfl Cache.within_get
    | passed => exact cacheMoves_beginAttempt rfl Cache.within_get
  | resumed => exact cacheMoves_beginAttempt rfl (.refl _)
  | granted | paused | failed => exact .same rfl (.refl _)
  | @succeeded _ id c v _ hends =>
    cases hends with
    | replied => exact .given id _ v rfl rfl
  | gaveUp _ hgives =>
    cases hgives <;> exact .same rfl (.refl _)
  | tended ht =>
    refine .same ?_ ht.within_cache
    rcases ht.journal_eq with hj | hj <;> rw [hj]
    rfl

/-- **What an admitted call returns.** After every history of a service,
whatever its settings are, let a call have passed the circuit and been
answered. By every script that its attempts follow, it succeeded exactly if
some attempt within the limit does after transient failures only; it
returned what the last attempt came to, an error without the wrappings of
other retries; it asked the resolver no more often than the limit says; the
circuit learnt once how it went; and its answer, if there was one, was
stored under its key, and nothing else was (`Returns`). A call that passed
is on its way or answered, unless its caller gave up or the resolver
panicked; while it is on its way, its attempts have failed in a transient
way only, and there are some left (`Strives`). The
circuit is where the journal has put it. By every further event the cache is
given an answer that is written down in the journal, or nothing, and at most
one attempt ends, which comes to the reply of the resolver or to a
timeout. -/
theorem admitted_call_returns [Scalar α] (host : Host) (settings : ServiceSettings)
    (canReclaim background : Bool) (start : Nat) (events : List (Nat × Event)) :
    let s := (Service.start host settings canReclaim background start : Service α).run host events
    let limit := min (settings.retry.maxRetries + 1) (2 ^ 32 - 1)
    (∀ id isTrial result, .passed id isTrial ∈ told s.history id →
      .answered id result ∈ told s.history id → Returns limit id (told s.history id) result) ∧
    (∀ id isTrial, .passed id isTrial ∈ told s.history id → s.call? id = none →
      (∃ result, .answered id result ∈ told s.history id) ∨
        .abandoned id ∈ told s.history id ∨ .panicked id ∈ told s.history id) ∧
    (∀ id c, s.call? id = some c → Strives limit (told s.history id)) ∧
    s.breaker = breakerAfter (.new settings.breaker start) s.journal ∧
    ∀ now event, let t := s.step host now event
      CacheMoves now s t event ∧
        ∀ id, EndsAttempt event id (results (told s.journal id)) (results (told t.journal id)) := by
  intro s limit
  have h : Recounted settings s.quiet :=
    (Recounted.start settings canReclaim background start).run events
  have htold : ∀ id, told s.history id = (told s.quiet.journal id).reverse := fun id => by
    rw [history, told_reverse, ← told_filter]
    rfl
  have hbreaker : s.quiet.breaker = breakerAfter (.new settings.breaker start) s.quiet.journal :=
    ((Manned.start settings canReclaim background start).run events).breaker_eq
  refine ⟨fun id isTrial result hpassed hanswered => ?_, fun id isTrial hpassed hc => ?_,
    fun id c hc => ?_, hbreaker.trans breakerAfter_filter, ?_⟩
  · rw [htold, List.mem_reverse] at hpassed hanswered
    rw [htold]
    exact (h.career id).returns hpassed hanswered
  · simp only [htold, List.mem_reverse] at hpassed ⊢
    have hcareer := h.career id
    rw [show s.quiet.call? id = none from hc] at hcareer
    exact hcareer.ends hpassed
  · rw [htold]
    exact (h.career_of_call hc).strives
  · intro now event t
    have hs : Advance host now s.quiet event t.quiet := advance_step s event
    refine ⟨(cacheMoves_advance hs).of_quiet, fun id => ?_⟩
    have hquiet : ∀ t : Service α, told t.quiet.journal id = told t.journal id :=
      fun _ => told_filter
    rw [← hquiet s, ← hquiet t]
    exact endsAttempt_advance hs id

/-- A service whose resolver is busy when it is asked first, and replies
when it is asked again after the pause. -/
def patientService : Service Rat :=
  (Service.start silentHost {} false false 0).run silentHost
    [(0, .ask { configuration := some {} }), (0, .reply 0 (.done (.error (.capability "busy")))),
      (Duration.ofSecs 2, .poll 0), (Duration.ofSecs 2, .reply 0 (.done (.ok .empty)))]

/-- The call returns the second reply, as the script of its attempts says. -/
theorem second_reply_returns :
    let os := told patientService.history 0
    .passed 0 false ∈ os ∧ .answered 0 (.ok .empty) ∈ os ∧ Returns 3 0 os (.ok .empty) ∧
      RetryPolicy.Follows
        (fun i => if i = 1 then .error (.capability "busy") else .ok .empty) (results os) := by
  intro os
  have hpassed : .passed 0 false ∈ os := by
    have hany : (os.any fun o => match o with
        | .passed id isTrial => id = 0 && isTrial = false
        | _ => false) = true := by decide +kernel
    obtain ⟨o, ho, hmatch⟩ := List.any_eq_true.mp hany
    cases o <;> simp at hmatch
    obtain ⟨rfl, rfl⟩ := hmatch
    exact ho
  have hanswered : .answered 0 (.ok .empty) ∈ os := by
    have hany : patientService.history.any
        (·.answer? = some (Duration.ofSecs 2, 0, .empty)) = true := by decide +kernel
    obtain ⟨l, hl, hanswer⟩ := List.any_eq_true.mp hany
    obtain rfl := JournalLine.answer?_eq_some (of_decide_eq_true hanswer)
    exact List.mem_filter.mpr ⟨List.mem_map_of_mem hl, rfl⟩
  have hresults : results os = [.error (.capability "busy"), .ok .empty] := by decide +kernel
  refine ⟨hpassed, hanswered, ?_, ?_⟩
  · exact (admitted_call_returns silentHost {} false false 0 _).1 0 false _ hpassed hanswered
  · rw [hresults]
    rfl

end Service

end CapabilityBroker
