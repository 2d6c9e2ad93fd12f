import CapabilityBroker.Proofs.Catalog.Flags
import CapabilityBroker.Proofs.Service.Provenance
/-!
# A service over the catalog

If the resolver is the catalog, an answer is what the catalog gives to some
request with the same key (`catalog_answers_by_key`). It need not be what
the catalog gives to the request itself, since the flags that were reported
are not in the key: a service tells the caller of a model what was reported
to an earlier caller.
-/

namespace CapabilityBroker

namespace Service

/-- Whether an occurrence is that a call begins with a request. -/
def Occurrence.asks (id : Nat) (r : Request) : Occurrence → Bool
  | .asked id' r' => id' = id && r' = r
  | _ => false

theorem asked_iff_any {journal : List JournalLine} {id : Nat} {r : Request} :
    Asked journal id r ↔ journal.any (·.occurrence.asks id r) = true := by
  rw [List.any_eq_true]
  constructor
  · rintro ⟨t, ht⟩
    exact ⟨_, ht, by simp [Occurrence.asks]⟩
  · rintro ⟨⟨t, o⟩, hl, hasks⟩
    cases o with
    | asked id' r' =>
      obtain ⟨rfl, rfl⟩ : id' = id ∧ r' = r := by simpa [Occurrence.asks] using hasks
      exact ⟨t, hl⟩
    | _ => cases hasks

/-- The replies to the calls of a journal are those of the catalog. -/
def RepliesByCatalog (strict : Bool) (events : List (Nat × Event)) (journal : List JournalLine) :
    Prop :=
  ∀ now id reply r, (now, .reply id reply) ∈ events → Asked journal id r →
    reply = .done (Catalog.resolve strict r)

variable {events : List (Nat × Event)} {journal older : List JournalLine} {ttl now id : Nat}
  {strict : Bool} {r : Request} {v : CapabilitySet}

theorem RepliesByCatalog.resolve_eq (h : RepliesByCatalog strict events journal)
    (hasked : Asked journal id r) (hreplied : Replied events older now id v) :
    Catalog.resolve strict r = .ok v :=
  (Reply.done.inj (h _ _ _ _ hreplied.event hasked)).symm

/-- An answer with an origin is what the catalog gives to a request with
its key. -/
theorem RepliesByCatalog.of_origin (h : RepliesByCatalog strict events journal)
    (hsub : older ⊆ journal) (hasked : Asked journal id r)
    (horigin : Origin events ttl older now id r v) :
    ∃ writer q, Asked journal writer q ∧ q.cacheKey = r.cacheKey ∧
      Catalog.resolve strict q = .ok v := by
  cases horigin with
  | own hreplied => exact ⟨id, r, hasked, rfl, h.resolve_eq hasked hreplied⟩
  | shared hq hkey hreplied =>
    have hwriter := hq.mono hsub
    exact ⟨_, _, hwriter, hkey, h.resolve_eq hwriter hreplied⟩

/-- **Answers from the catalog.** Requests with one key are answered alike
by the catalog exactly if they are granted the same, or if it is strict and
does not know their model. After every history of a service that asks the
catalog, whatever its settings are, a call is answered with what the
catalog gives to some request with the same key; and that is what it gives
to the request of the call exactly if the two are granted the same. -/
theorem catalog_answers_by_key {α : Type} [Scalar α] (host : Host) (settings : ServiceSettings)
    (canReclaim background : Bool) (start : Nat) (strict : Bool) (events : List (Nat × Event)) :
    (∀ p q : Request, p.cacheKey = q.cacheKey →
      (Catalog.resolve strict p = Catalog.resolve strict q ↔
        (strict = true ∧ Catalog.lookup p.modelId = none) ∨
          ∀ c, Catalog.grants p c = Catalog.grants q c)) ∧
    let s := (Service.start host settings canReclaim background start : Service α).run host events
    RepliesByCatalog strict events s.journal →
      ∀ now id v, ⟨now, .answered id (.ok v)⟩ ∈ s.journal →
        ∃ r, Asked s.journal id r ∧
          ∃ writer q, Asked s.journal writer q ∧ q.cacheKey = r.cacheKey ∧
            Catalog.resolve strict q = .ok v ∧
            (Catalog.resolve strict r = .ok v ↔ ∀ c, Catalog.grants q c = Catalog.grants r c) := by
  refine ⟨fun p q hkey => Catalog.resolve_eq_iff strict hkey, ?_⟩
  intro s hcatalog now id v hanswered
  have h : Traced events settings.cache s.quiet :=
    (Traced.start settings canReclaim background start).run (List.Subset.refl events)
  have hquiet : ⟨now, .answered id (.ok v)⟩ ∈ s.quiet.journal :=
    List.mem_filter.mpr ⟨hanswered, rfl⟩
  obtain ⟨newer, older, hjournal⟩ := List.append_of_mem hquiet
  obtain ⟨r, hr, horigin⟩ := h.backed _ _ _ hjournal
  have hsub : older ⊆ s.journal := by
    have hquieter : s.quiet.journal ⊆ s.journal := List.filter_sublist.subset
    rw [hjournal] at hquieter
    exact fun l hl => hquieter (List.mem_append_right _ (List.mem_cons_of_mem _ hl))
  have hasked := hr.mono hsub
  obtain ⟨writer, q, hq, hkey, hgiven⟩ := hcatalog.of_origin hsub hasked horigin
  refine ⟨r, hasked, writer, q, hq, hkey, hgiven, ?_⟩
  rw [← hgiven, eq_comm, Catalog.resolve_eq_iff strict hkey, or_iff_right]
  -- an answer was given, so the model is known or need not be
  rintro hunknown
  rw [Catalog.resolve_eq, if_pos hunknown] at hgiven
  cases hgiven

/-- A request about a model of which the provider reports that it
understands images, and one about the same model without a report. -/
def reportedRequest : Request :=
  { configuration := some {}
    modelInfo := some { supportsImages := some true } }

def plainRequest : Request := { configuration := some {} }

/-- What is known of the model and what was reported. -/
def reportedAnswer : CapabilitySet :=
  (CapabilitySet.empty.insert .toolUse).insert .imageAnalysis

theorem resolve_reportedRequest :
    Catalog.resolve false reportedRequest = .ok reportedAnswer := by
  have hunknown : Catalog.lookup reportedRequest.modelId = none := by decide +kernel
  have hset : (Catalog.known reportedRequest).granting (Catalog.grants reportedRequest)
      = reportedAnswer := by decide +kernel
  rw [Catalog.resolve_eq, if_neg (by simp), hset]

/-- The call with the report is answered by the catalog, and the one
without it from the cache. -/
def twoModelCalls : List (Nat × Event) :=
  [(0, .ask reportedRequest), (1, .reply 0 (.done (.ok reportedAnswer))), (2, .ask plainRequest)]

def twoModelService : Service Rat :=
  (Service.start silentHost {} false false 0).run silentHost twoModelCalls

theorem plain_call_answered_by_report :
    RepliesByCatalog false twoModelCalls twoModelService.journal ∧
      (⟨2, .answered 1 (.ok reportedAnswer)⟩ : JournalLine) ∈ twoModelService.journal ∧
        ∃ r, Asked twoModelService.journal 1 r ∧
          ∃ writer q, Asked twoModelService.journal writer q ∧ q.cacheKey = r.cacheKey ∧
            Catalog.resolve false q = .ok reportedAnswer ∧
            (Catalog.resolve false r = .ok reportedAnswer ↔
              ∀ c, Catalog.grants q c = Catalog.grants r c) := by
  have hlines : (twoModelService.journal.any (·.occurrence.asks 0 reportedRequest) &&
      twoModelService.journal.any (·.answer? = some (2, 1, reportedAnswer))) = true := by
    decide +kernel
  obtain ⟨hfirst, hsecond⟩ := Bool.and_eq_true_iff.mp hlines
  have hcatalog : RepliesByCatalog false twoModelCalls twoModelService.journal := by
    intro now id reply r hmem hasked
    obtain ⟨rfl, rfl, rfl⟩ : now = 1 ∧ id = 0 ∧ reply = .done (.ok reportedAnswer) := by
      simpa [twoModelCalls] using hmem
    have htraced : Traced twoModelCalls ({} : ServiceSettings).cache twoModelService.quiet :=
      (Traced.start {} false false 0).run (List.Subset.refl _)
    rw [htraced.asked_unique (asked_quiet.mpr (asked_iff_any.mpr hfirst))
      (asked_quiet.mpr hasked), resolve_reportedRequest]
  have hanswered : (⟨2, .answered 1 (.ok reportedAnswer)⟩ : JournalLine)
      ∈ twoModelService.journal := by
    obtain ⟨l, hl, hanswer⟩ := List.any_eq_true.mp hsecond
    exact JournalLine.answer?_eq_some (of_decide_eq_true hanswer) ▸ hl
  exact ⟨hcatalog, hanswered, (catalog_answers_by_key silentHost {} false false 0 false
    twoModelCalls).2 hcatalog 2 1 reportedAnswer hanswered⟩

/-- **The key does not tell what the catalog answers.** -/
theorem one_key_two_answers :
    ¬ ∀ (strict : Bool) (p q : Request), p.cacheKey = q.cacheKey →
      Catalog.resolve strict p = Catalog.resolve strict q := by
  intro h
  have heq := h false reportedRequest plainRequest (by decide +kernel)
  rw [Catalog.resolve_eq_iff false (by decide +kernel)] at heq
  rcases heq with ⟨hstrict, -⟩ | hgrants
  · cases hstrict
  · have himages := hgrants .imageAnalysis
    revert himages
    decide +kernel

end Service

end CapabilityBroker
