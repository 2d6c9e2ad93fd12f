import CapabilityBroker.Proofs.Service.Steps
/-!
# Where answers come from

An answer is either what the resolver replied to the call itself, or what
the latest call with its key stored, not too long ago (`Origin`). What is
in the cache is tied to the journal: an entry is what the latest line about
its key says was stored (`Traced.entry_stored`). A call that is suspended
between its lookup and its own storing cannot come between the two, since
looking and answering are one step.
-/

namespace CapabilityBroker

namespace Service

/-! ## What a journal tells -/

/-- A call begins in a journal with a request. -/
def Asked (journal : List JournalLine) (id : Nat) (r : Request) : Prop :=
  ∃ t, (⟨t, .asked id r⟩ : JournalLine) ∈ journal

/-- The resolver replies to a call at an instant, and the call takes the
reply. -/
structure Replied (events : List (Nat × Event)) (journal : List JournalLine) (now id : Nat)
    (v : CapabilitySet) : Prop where
  event : (now, .reply id (.done (.ok v))) ∈ events
  line : ⟨now, .attempted id (.ok v)⟩ ∈ journal

/-- Whether an occurrence is that an answer is stored under a key, or is
refused by the cache. -/
def Occurrence.storesUnder (k : CacheKey) : Occurrence → Bool
  | .stored _ k' _ _ => k' = k
  | _ => false

/-- The latest line about a key. -/
def latestStored? (journal : List JournalLine) (k : CacheKey) : Option JournalLine :=
  journal.find? (·.occurrence.storesUnder k)

/-- **Where an answer comes from** that a call with a request gets at an
instant, after what stands in the journal. -/
inductive Origin (events : List (Nat × Event)) (ttl : Nat) (journal : List JournalLine)
    (now id : Nat) (r : Request) (v : CapabilitySet) : Prop
  /-- The resolver replies it to the call. -/
  | own (replied : Replied events journal now id v)
  /-- The resolver replied it to a call with the same key. It was stored
  and nothing was stored under the key since, and its time is not over. -/
  | shared {stored writer : Nat} {q : Request} (asked : Asked journal writer q)
      (same_key : q.cacheKey = r.cacheKey) (replied : Replied events journal stored writer v)
      (is_latest : latestStored? journal r.cacheKey =
        some ⟨stored, .stored writer r.cacheKey v true⟩)
      (is_fresh : now < stored + ttl)

/-- What the earlier lines of a journal have to tell for a line to stand
there. -/
def Supported (events : List (Nat × Event)) (ttl : Nat) (older : List JournalLine) :
    JournalLine → Prop
  | ⟨now, .answered id (.ok v)⟩ => ∃ r, Asked older id r ∧ Origin events ttl older now id r v
  | ⟨now, .stored id k v _⟩ =>
    ∃ r, Asked older id r ∧ r.cacheKey = k ∧ Replied events older now id v
  | _ => True

/-- Every line of a journal is supported by the earlier ones. -/
def Backed (events : List (Nat × Event)) (ttl : Nat) (journal : List JournalLine) : Prop :=
  ∀ newer l older, journal = newer ++ l :: older → Supported events ttl older l

/-- Whether an occurrence neither begins a call nor concerns the cache. -/
def Occurrence.isPlain : Occurrence → Bool
  | .asked .. => false
  | .stored .. => false
  | _ => true

variable {events : List (Nat × Event)} {ttl now id : Nat} {journal : List JournalLine}
  {l : JournalLine} {o : Occurrence} {r q : Request} {v : CapabilitySet} {k : CacheKey}

theorem backed_cons :
    Backed events ttl (l :: journal) ↔
      Supported events ttl journal l ∧ Backed events ttl journal := by
  refine ⟨fun h => ⟨h [] l journal rfl, fun newer m older hj => ?_⟩,
    fun ⟨hl, h⟩ newer m older hj => ?_⟩
  · exact h (l :: newer) m older (by rw [hj, List.cons_append])
  · cases newer with
    | nil =>
      obtain ⟨rfl, rfl⟩ := List.cons.inj hj
      exact hl
    | cons p newer =>
      obtain ⟨-, hj⟩ := List.cons.inj hj
      exact h newer m older hj

theorem asked_cons : Asked (⟨now, o⟩ :: journal) id r ↔ o = .asked id r ∨ Asked journal id r := by
  simp only [Asked, List.mem_cons, JournalLine.mk.injEq]
  refine ⟨?_, ?_⟩
  · rintro ⟨t, ⟨-, ho⟩ | h⟩
    · exact Or.inl ho.symm
    · exact Or.inr ⟨t, h⟩
  · rintro (rfl | ⟨t, h⟩)
    · exact ⟨now, Or.inl ⟨rfl, rfl⟩⟩
    · exact ⟨t, Or.inr h⟩

theorem Asked.mono {older : List JournalLine} (h : Asked older id r) (hsub : older ⊆ journal) :
    Asked journal id r :=
  let ⟨t, ht⟩ := h
  ⟨t, hsub ht⟩

theorem Asked.cons (h : Asked journal id r) : Asked (l :: journal) id r :=
  h.mono (List.subset_cons_self l journal)

theorem Replied.mono {older : List JournalLine} (h : Replied events older now id v)
    (hsub : older ⊆ journal) : Replied events journal now id v :=
  ⟨h.event, hsub h.line⟩

theorem Replied.cons (h : Replied events journal now id v) :
    Replied events (l :: journal) now id v :=
  h.mono (List.subset_cons_self l journal)

theorem asked_cons_of_plain (h : o.isPlain = true) :
    Asked (⟨now, o⟩ :: journal) id r ↔ Asked journal id r := by
  rw [asked_cons, or_iff_right]
  rintro rfl
  cases h

theorem latestStored?_cons_of_plain (h : o.isPlain = true) :
    latestStored? (⟨now, o⟩ :: journal) k = latestStored? journal k := by
  cases o with
  | stored => cases h
  | _ => rfl

/-! ## The invariant -/

variable {α : Type} {s t : Service α} {host : Host} {c : Call} {limits : CacheLimits}

/-- **What ties a service to its journal.** -/
structure Traced (events : List (Nat × Event)) (limits : CacheLimits) (s : Service α) : Prop where
  limits_eq : s.cache.limits = limits
  /-- Every call begins once, and is numbered when it does. -/
  asked_lt {id : Nat} {r : Request} : Asked s.journal id r → id < s.asked
  asked_unique {id : Nat} {r q : Request} : Asked s.journal id r → Asked s.journal id q → q = r
  asked_of_call {id : Nat} {c : Call} : s.call? id = some c → Asked s.journal id c.request
  /-- What is in the cache is what the latest line about its key tells. -/
  entry_stored {k : CacheKey} {e : Cache.Entry} : s.cache.find? k = some e →
    ∃ writer, latestStored? s.journal k = some ⟨e.createdAt, .stored writer k e.value true⟩
  backed : Backed events limits.ttl s.journal

/-- A call has begun when it looks in the cache. -/
theorem asked_arrive [Scalar α] : Asked (s.arrive now r).journal s.asked r :=
  ⟨now, List.mem_cons_of_mem _ List.mem_cons_self⟩

namespace Traced

/-- Nothing but the cache, the calls and the journal matters. -/
theorem of_eq (h : Traced events limits s) (hcache : t.cache.Within s.cache)
    (hcalls : t.calls = s.calls) (hasked : t.asked = s.asked) (hjournal : t.journal = s.journal) :
    Traced events limits t where
  limits_eq := hcache.limits_eq.trans h.limits_eq
  asked_lt hr := by
    rw [hasked]
    exact h.asked_lt (hjournal ▸ hr)
  asked_unique hr hq := h.asked_unique (hjournal ▸ hr) (hjournal ▸ hq)
  asked_of_call hc := by
    rw [call?, hcalls] at hc
    exact hjournal ▸ h.asked_of_call hc
  entry_stored he := by
    rw [hjournal]
    exact h.entry_stored (hcache.find? he)
  backed := by
    rw [hjournal]
    exact h.backed

/-- A plain line is written down. -/
theorem note (h : Traced events limits s) (now : Nat) (o : Occurrence) (hplain : o.isPlain = true)
    (hsupported : Supported events limits.ttl s.journal ⟨now, o⟩) :
    Traced events limits (s.note now o) where
  limits_eq := h.limits_eq
  asked_lt hr := h.asked_lt ((asked_cons_of_plain hplain).mp hr)
  asked_unique hr hq :=
    h.asked_unique ((asked_cons_of_plain hplain).mp hr) ((asked_cons_of_plain hplain).mp hq)
  asked_of_call hc := (asked_cons_of_plain hplain).mpr (h.asked_of_call hc)
  entry_stored he := by
    rw [Service.note, latestStored?_cons_of_plain hplain]
    exact h.entry_stored he
  backed := backed_cons.mpr ⟨hsupported, h.backed⟩

theorem setCall (h : Traced events limits s) (hc : Asked s.journal id c.request) :
    Traced events limits (s.setCall id c) :=
  { h with
    asked_of_call := fun {j d} hd => by
      rw [call?_setCall] at hd
      split at hd
      · next hj =>
        obtain rfl := Option.some.inj hd
        exact hj ▸ hc
      · exact h.asked_of_call hd }

theorem dropCall (h : Traced events limits s) : Traced events limits (s.dropCall id) :=
  { h with
    asked_of_call := fun {j d} hd => by
      rw [call?_dropCall] at hd
      split at hd
      · cases hd
      · exact h.asked_of_call hd }

/-- A call begins, under a number that no call had before. -/
theorem begin (h : Traced events limits s) (now : Nat) (r : Request) :
    Traced events limits (s.begin now r) where
  limits_eq := h.limits_eq
  asked_lt hq := by
    rcases asked_cons.mp hq with ho | hq
    · cases ho
      exact Nat.lt_succ_self _
    · exact Nat.lt_succ_of_lt (h.asked_lt hq)
  asked_unique hr hq := by
    rcases asked_cons.mp hr with hr | hr <;> rcases asked_cons.mp hq with hq | hq
    · cases hr
      cases hq
      rfl
    · cases hr
      exact absurd (h.asked_lt hq) (Nat.lt_irrefl _)
    · cases hq
      exact absurd (h.asked_lt hr) (Nat.lt_irrefl _)
    · exact h.asked_unique hr hq
  asked_of_call hc := asked_cons.mpr (Or.inr (h.asked_of_call hc))
  entry_stored he := h.entry_stored he
  backed := backed_cons.mpr ⟨trivial, h.backed⟩

/-- An answer of the resolver is stored. -/
theorem store (h : Traced events limits s) (hr : Asked s.journal id r)
    (hv : Replied events s.journal now id v) :
    Traced events limits ({ s with cache := (s.cache.insert now r.cacheKey v).1 }.note now
      (.stored id r.cacheKey v (s.cache.insert now r.cacheKey v).2.isKept)) where
  limits_eq := Cache.limits_insert.trans h.limits_eq
  asked_lt hq := h.asked_lt (by simpa [Service.note, asked_cons] using hq)
  asked_unique hq hq' := h.asked_unique (by simpa [Service.note, asked_cons] using hq)
    (by simpa [Service.note, asked_cons] using hq')
  asked_of_call hc := asked_cons.mpr (Or.inr (h.asked_of_call hc))
  entry_stored {k e} he := by
    rcases Cache.find?_insert he with ⟨rfl, hvalue, hcreated, hkept⟩ | ⟨hne, he⟩
    -- under its key the new line is the latest, and it tells what is kept
    · refine ⟨id, ?_⟩
      simp [latestStored?, Service.note, Occurrence.storesUnder, hvalue, hcreated, hkept]
    -- under every other key it tells nothing
    · obtain ⟨writer, hlatest⟩ := h.entry_stored he
      refine ⟨writer, ?_⟩
      have hother : ¬ r.cacheKey = k := fun hk => hne hk.symm
      simpa [latestStored?, Service.note, Occurrence.storesUnder, hother] using hlatest
  backed := backed_cons.mpr ⟨⟨r, hr, rfl, hv⟩, h.backed⟩

/-! ## The parts of a step -/

/-- A call ends with a result that is supported. -/
theorem finish {result : Except Error CapabilitySet} (h : Traced events limits s)
    (hsupported : Supported events limits.ttl s.journal ⟨now, .answered id result⟩) :
    Traced events limits (s.finish now id result) :=
  h.dropCall.note now _ rfl hsupported

theorem invoke {limit : Option WaitLimit} (h : Traced events limits s)
    (hc : Asked s.journal id c.request) : Traced events limits (s.invoke now id c limit) := by
  have hcount : Traced events limits { s with invocations := s.invocations + 1 } :=
    h.of_eq (Cache.Within.refl _) rfl rfl rfl
  exact (hcount.setCall (c := { c with stage := .resolving s.invocations now limit }) hc).note now
    (.invoked id c.request.cacheKey) rfl trivial

/-- The lock has nothing to do with it. -/
theorem withLock (h : Traced events limits s) (lock : Lock Nat) :
    Traced events limits { s with lock } :=
  h.of_eq (Cache.Within.refl _) rfl rfl rfl

/-- And neither has the circuit. -/
theorem withBreaker (h : Traced events limits s) (breaker : CircuitBreaker) :
    Traced events limits { s with breaker } :=
  h.of_eq (Cache.Within.refl _) rfl rfl rfl

theorem beginAttempt (h : Traced events limits s) (hc : Asked s.journal id c.request) :
    Traced events limits (s.beginAttempt now id c) := by
  obtain ⟨lock, limit, heq | heq⟩ := beginAttempt_cases s now id c
  · rw [heq]
    exact (h.withLock _).setCall hc
  · rw [heq]
    exact (h.withLock _).invoke hc

theorem pause {e : Error} {wakeAt : Nat} (h : Traced events limits s)
    (hc : Asked s.journal id c.request) : Traced events limits (s.pause now id c e wakeAt) :=
  (h.note now (.attempted id (.error e)) rfl trivial).setCall hc.cons

theorem fail {e : Error} (h : Traced events limits s) :
    Traced events limits (s.fail now id c e) := by
  have hended := h.note now (.attempted id (.error e)) rfl trivial
  have hrecorded := (hended.withBreaker (s.breaker.recordFailure now)).note now
    (.recorded id false) rfl trivial
  exact hrecorded.finish trivial

theorem giveUp (h : Traced events limits s) (ho : o.isPlain = true)
    (hsupported : Supported events limits.ttl s.journal ⟨now, o⟩) :
    Traced events limits (s.giveUp now id c o) :=
  ((h.withLock _).withBreaker _).dropCall.note now o ho hsupported

/-- The resolver replies to a call, the reply is stored, and the call is
answered with it. -/
theorem succeed (h : Traced events limits s) (hr : Asked s.journal id r)
    (hevent : (now, .reply id (.done (.ok v))) ∈ events) :
    Traced events limits (s.succeed now id r.cacheKey v) := by
  have hended := h.note now (.attempted id (.ok v)) rfl trivial
  have hreplied : Replied events (s.note now (.attempted id (.ok v))).journal now id v :=
    ⟨hevent, List.mem_cons_self⟩
  have hrecorded := (hended.withBreaker (s.breaker.recordSuccess now)).note now
    (.recorded id true) rfl trivial
  have hstored := hrecorded.store hr.cons.cons hreplied.cons
  exact hstored.finish ⟨r, hr.cons.cons.cons, .own hreplied.cons.cons⟩

/-- An entry of the cache is the reply to a call with its key. -/
theorem replied_of_entry {e : Cache.Entry} (h : Traced events limits s)
    (he : s.cache.find? k = some e) :
    ∃ writer q, Asked s.journal writer q ∧ q.cacheKey = k ∧
      Replied events s.journal e.createdAt writer e.value ∧
      latestStored? s.journal k = some ⟨e.createdAt, .stored writer k e.value true⟩ := by
  obtain ⟨writer, hlatest⟩ := h.entry_stored he
  -- the line about the entry stands in the journal, and is supported there
  obtain ⟨newer, older, hjournal⟩ := List.append_of_mem (List.mem_of_find?_eq_some hlatest)
  obtain ⟨q, hq, hkey, hreplied⟩ := h.backed newer _ older hjournal
  have hsub : older ⊆ s.journal := by
    rw [hjournal]
    exact fun l hl => List.mem_append_right _ (List.mem_cons_of_mem _ hl)
  exact ⟨writer, q, hq.mono hsub, hkey, hreplied.mono hsub, hlatest⟩

/-- A call that is given a token has looked in the cache. -/
theorem arrive [Scalar α] (h : Traced events limits s) : Traced events limits (s.arrive now r) :=
  ((h.begin now r).note now (.rated s.asked true) rfl trivial).of_eq Cache.within_get rfl rfl rfl

/-- A call that is answered from the cache is answered by a call with the
same key. -/
theorem hit [Scalar α] (h : Traced events limits s) (hv : (s.cache.get now r.cacheKey).2 = .hit v) :
    Traced events limits ((s.arrive now r).finish now s.asked (.ok v)) := by
  obtain ⟨e, he, rfl, hfresh⟩ := Cache.hit_get hv
  obtain ⟨writer, q, hq, hkey, hreplied, hlatest⟩ := h.replied_of_entry he
  rw [h.limits_eq] at hfresh
  -- the two lines since the lookup do not concern the cache
  exact h.arrive.finish
    ⟨r, asked_arrive, .shared hq.cons.cons hkey hreplied.cons.cons hlatest hfresh⟩

/-- A call begins. -/
theorem begins [Scalar α] (h : Traced events limits s) (hs : Begins now s r t) :
    Traced events limits t := by
  have hbegun := h.begin now r
  cases hs with
  | disposed => exact hbegun.finish trivial
  | invalid => exact hbegun.finish trivial
  | limited =>
    have hrated := hbegun.note now (.rated s.asked false) rfl trivial
    exact finish (hrated.of_eq (Cache.Within.refl _) rfl rfl rfl) trivial
  | hit _ _ hv => exact h.hit hv
  | refused => exact (h.arrive.withBreaker _).finish trivial
  | @passed isTrial =>
    have harrived : Traced events limits (s.arrive now r) := h.arrive
    have hpassed := (harrived.withBreaker (s.breaker.receive now).1).note now
      (.passed s.asked isTrial) rfl trivial
    exact hpassed.beginAttempt asked_arrive.cons

/-- **A step keeps a service tied to its journal.** -/
theorem advance [Scalar α] {event : Event} (h : Traced events limits s)
    (hevent : (now, event) ∈ events) (hs : Advance host now s event t) :
    Traced events limits t := by
  cases hs with
  | began hbegins => exact h.begins hbegins
  | granted hc => exact (h.withLock _).invoke (h.asked_of_call hc)
  | resumed hc =>
    have hasked := h.asked_of_call hc
    exact h.beginAttempt hasked
  | paused hc => exact (h.withLock _).pause (h.asked_of_call hc)
  | failed => exact (h.withLock _).fail
  | succeeded hc hends =>
    -- an attempt that ends well has been replied to at this very step
    cases hends with
    | replied => exact (h.withLock _).succeed (h.asked_of_call hc) hevent
  | gaveUp hc hgives =>
    cases hgives with
    | panicked => exact h.giveUp rfl trivial
    | abandoned => exact h.giveUp rfl trivial
  | tended ht =>
    rcases ht.journal_eq with hj | hj
    · exact h.of_eq ht.within_cache ht.calls_eq ht.asked_eq hj
    · exact (h.note now .reclaimed rfl trivial).of_eq ht.within_cache
        ht.calls_eq ht.asked_eq hj

/-- **And so does a history.** -/
theorem run [Scalar α] {es : List (Nat × Event)} (h : Traced events limits s.quiet)
    (hes : es ⊆ events) : Traced events limits (s.run host es).quiet := by
  induction es generalizing s with
  | nil => exact h
  | cons e es ih =>
    obtain ⟨he, hes⟩ := List.cons_subset.mp hes
    exact ih (h.advance he (advance_step s e.2)) hes

/-- A service starts with nothing in its cache and nothing in its journal. -/
theorem start [Scalar α] (settings : ServiceSettings) (canReclaim background : Bool) (now : Nat) :
    Traced events settings.cache
      (Service.start host settings canReclaim background now : Service α).quiet := by
  have hidle : Traced events settings.cache (idle settings canReclaim now : Service α).quiet := {
    limits_eq := rfl
    asked_lt := fun ⟨_, hr⟩ => nomatch hr
    asked_unique := fun ⟨_, hr⟩ => nomatch hr
    asked_of_call := fun hc => nomatch hc
    entry_stored := fun he => nomatch he
    backed := fun newer l older hj => by simp [quiet, idle] at hj }
  rw [Service.start, quiet_report]
  cases background with
  | true => exact hidle.of_eq (Cache.Within.refl _) rfl rfl rfl
  | false => exact hidle

end Traced

/-! ## Every answer -/

/-- Reports tell nothing of requests, -/
theorem asked_quiet : Asked s.quiet.journal id r ↔ Asked s.journal id r := by
  simp [Asked, quiet, Occurrence.isReport]

/-- and nothing of what is stored. -/
theorem latestStored?_filter :
    latestStored? (journal.filter fun l => !l.occurrence.isReport) k = latestStored? journal k := by
  rw [latestStored?, List.find?_filter, latestStored?]
  congr
  funext l
  cases l.occurrence <;> simp [Occurrence.isReport, Occurrence.storesUnder]

theorem Origin.of_filter
    (h : Origin events ttl (journal.filter fun l => !l.occurrence.isReport) now id r v) :
    Origin events ttl journal now id r v := by
  cases h with
  | own hreplied => exact .own (hreplied.mono List.filter_sublist.subset)
  | shared hq hkey hreplied hlatest hfresh =>
    exact .shared (hq.mono List.filter_sublist.subset) hkey
      (hreplied.mono List.filter_sublist.subset) (latestStored?_filter ▸ hlatest) hfresh

/-- **Every answer has an origin.** After every history of a service, whatever
its settings are, a call that got an answer began with one request, and the
answer is the reply of the resolver to that call, or it is the reply to the
call that was the latest to store anything under the key of the request,
less than the time to live before. -/
theorem answers_have_origin [Scalar α] (host : Host) (settings : ServiceSettings)
    (canReclaim background : Bool) (start : Nat) (events : List (Nat × Event)) :
    let s := (Service.start host settings canReclaim background start : Service α).run host events
    ∀ (newer older : List JournalLine) (now id : Nat) (v : CapabilitySet),
      s.journal = newer ++ ⟨now, .answered id (.ok v)⟩ :: older →
        ∃ r, (∀ q, Asked s.journal id q ↔ q = r) ∧
          Origin events settings.cache.ttl older now id r v := by
  intro s newer older now id v hjournal
  -- the line stands where it stood when the reports are left out
  have h : Traced events settings.cache s.quiet :=
    (Traced.start settings canReclaim background start).run (List.Subset.refl events)
  have hquiet : s.quiet.journal = (newer.filter fun l => !l.occurrence.isReport) ++
      ⟨now, .answered id (.ok v)⟩ :: older.filter fun l => !l.occurrence.isReport := by
    simp [quiet, hjournal, Occurrence.isReport]
  obtain ⟨r, hr, horigin⟩ := h.backed _ _ _ hquiet
  refine ⟨r, fun q => ?_, horigin.of_filter⟩
  have hr' : Asked s.quiet.journal id r := by
    rw [hquiet]
    exact hr.mono fun l hl => List.mem_append_right _ (List.mem_cons_of_mem _ hl)
  rw [← asked_quiet]
  exact ⟨fun hq => h.asked_unique hr' hq, fun hq => hq ▸ hr'⟩

/-- The answer that a line of the journal tells of, with its instant and
its call. -/
def JournalLine.answer? : JournalLine → Option (Nat × Nat × CapabilitySet)
  | ⟨now, .answered id (.ok v)⟩ => some (now, id, v)
  | _ => none

theorem JournalLine.answer?_eq_some (h : l.answer? = some (now, id, v)) :
    l = ⟨now, .answered id (.ok v)⟩ := by
  unfold answer? at h
  split at h
  · obtain ⟨rfl, rfl, rfl⟩ : _ = now ∧ _ = id ∧ _ = v := by simpa using h
    rfl
  · cases h

/-- Surroundings that keep silent and leave nothing to chance. -/
def silentHost : Host := ⟨"static", .silent, fun _ => false, fun _ _ => ⟨0, false⟩⟩

/-- A call is answered by the resolver, and the next one with its key from
the cache. -/
def twoCalls : List (Nat × Event) :=
  [(0, .ask { configuration := some {} }), (1, .reply 0 (.done (.ok .empty))),
    (2, .ask { configuration := some {} })]

theorem second_answer_has_origin :
    ∃ newer older, ((Service.start silentHost {} false false 0 : Service Rat).run silentHost
        twoCalls).journal = newer ++ ⟨2, .answered 1 (.ok .empty)⟩ :: older ∧
      ∃ r, (∀ q, Asked ((Service.start silentHost {} false false 0 : Service Rat).run silentHost
        twoCalls).journal 1 q ↔ q = r) ∧
        Origin twoCalls ({} : ServiceSettings).cache.ttl older 2 1 r .empty := by
  have hany : ((Service.start silentHost {} false false 0 : Service Rat).run silentHost
      twoCalls).journal.any (·.answer? = some (2, 1, .empty)) = true := by decide +kernel
  obtain ⟨l, hl, hanswer⟩ := List.any_eq_true.mp hany
  obtain rfl := JournalLine.answer?_eq_some (of_decide_eq_true hanswer)
  obtain ⟨newer, older, hjournal⟩ := List.append_of_mem hl
  exact ⟨newer, older, hjournal,
    answers_have_origin silentHost {} false false 0 twoCalls newer older 2 1 .empty hjournal⟩

end Service

end CapabilityBroker
