import CapabilityBroker.Proofs.Request.Acceptance
/-!
# Blank ids

A blank id names no model. But of the two ids of a request one is taken
first, and then it is seen whether it names anything, so a blank id in the
configuration hides the one that the provider reported (`HidesReport`). A
request is about the first model that is named in it exactly if no id is
hidden (`modelId_eq_firstNamed_iff`), and that is when a blank id in the
configuration does as much as none.
-/

namespace CapabilityBroker

namespace Request

/-- The first model that is named, by the configuration or else by what
was reported; the default one if none is. -/
def firstNamed (r : Request) : String :=
  ((r.configured?.bind named?).or (r.reported?.bind named?)).getD defaultModelId

/-- **A blank id hides the reported one**, which names another model than
the default one. -/
def HidesReport (r : Request) : Prop :=
  (∃ id ∈ r.configured?, Text.IsBlankText id)
    ∧ ∃ model ∈ r.reported?.bind named?, model ≠ defaultModelId

instance (r : Request) : Decidable r.HidesReport := inferInstanceAs (Decidable (_ ∧ _))

variable {r : Request} {id : String} {c : Configuration}

/-- With a blank id, a request is about the default model, whatever was
reported. -/
theorem modelId_of_blank (hid : r.configured? = some id) (hblank : Text.IsBlankText id) :
    r.modelId = defaultModelId := by
  rw [modelId_eq, hid, Option.some_or, Option.bind_some, named?_of_blank hblank, Option.getD_none]

theorem firstNamed_of_blank (hid : r.configured? = some id) (hblank : Text.IsBlankText id) :
    r.firstNamed = (r.reported?.bind named?).getD defaultModelId := by
  rw [firstNamed, hid, Option.bind_some, named?_of_blank hblank, Option.none_or]

/-- What was reported is the default model, or nothing. -/
theorem default_eq_firstNamed_iff (hid : r.configured? = some id)
    (hblank : Text.IsBlankText id) : defaultModelId = r.firstNamed ↔ ¬ r.HidesReport := by
  have hconfigured : ∃ id ∈ r.configured?, Text.IsBlankText id := ⟨id, hid, hblank⟩
  rw [firstNamed_of_blank hid hblank, HidesReport, and_iff_right hconfigured]
  cases r.reported?.bind named? with
  | none => simp
  | some model => simp [eq_comm]

/-- **The first model that is named counts** unless it is hidden. -/
theorem modelId_eq_firstNamed_iff (r : Request) :
    r.modelId = r.firstNamed ↔ ¬ r.HidesReport := by
  cases hid : r.configured? with
  | none =>
    have hnot : ¬ r.HidesReport := by simp [HidesReport, hid]
    refine iff_of_true ?_ hnot
    rw [modelId_eq, firstNamed, hid, Option.none_or, Option.bind_none, Option.none_or]
  | some id =>
    by_cases hblank : Text.IsBlankText id
    · rw [modelId_of_blank hid hblank, default_eq_firstNamed_iff hid hblank]
    · have hnot : ¬ r.HidesReport := by simp [HidesReport, hid, hblank]
      have hnamed : named? id = some (Text.trim id) := if_neg hblank
      refine iff_of_true ?_ hnot
      rw [modelId_eq, firstNamed, hid, Option.some_or, Option.bind_some, hnamed, Option.some_or]

/-- Without the blank id, the reported one is not hidden. -/
theorem modelId_naming_none (hid : r.configured? = some id) (hblank : Text.IsBlankText id) :
    (r.naming none).modelId = r.firstNamed := by
  obtain ⟨c, hc, -⟩ := Option.bind_eq_some_iff.mp hid
  rw [modelId_eq, configured?_naming hc, reported?_naming, Option.none_or,
    firstNamed_of_blank hid hblank]

end Request

/-! ## The checks -/

namespace RequestLimits

variable {limits : RequestLimits} {r : Request} {c : Configuration} {e : Error}

/-- A check of an identifier blames the field that it is of. -/
theorem exists_reason_of_checkIdentifier {field id : String}
    (h : limits.checkIdentifier field id = .error e) : ∃ reason, e = .validation field reason := by
  simp only [checkIdentifier] at h
  split at h
  · exact ⟨_, (Except.error.inj h).symm⟩
  · split at h
    · exact ⟨_, (Except.error.inj h).symm⟩
    · cases h

/-- Of two checks before a third, the first tells apart what is told apart
in the end, if the third blames something else. -/
theorem bind_left_inj {a b p : Except Error Unit}
    (h : ∀ e, p = .error e → a ≠ .error e ∧ b ≠ .error e) :
    (a >>= fun _ => p) = (b >>= fun _ => p) ↔ a = b := by
  cases a with
  | error d => cases b with
    | error e => exact Iff.rfl
    | ok _ => exact iff_of_false (fun hp => (h d hp.symm).1 rfl) (by simp)
  | ok _ => cases b with
    | error e => exact iff_of_false (fun hp => (h e hp).2 rfl) (by simp)
    | ok _ => exact iff_of_true rfl rfl

/-- **Another id in the configuration** makes a difference to the checks
apart from that of the size if the two models are not judged alike. -/
theorem checkIdentifiers_naming_iff (hc : r.configuration = some c) (id : Option String) :
    limits.checkIdentifiers r = limits.checkIdentifiers (r.naming id) ↔
      limits.checkIdentifier "model_id" r.modelId
        = limits.checkIdentifier "model_id" (r.naming id).modelId := by
  have hnaming : (r.naming id).configuration = some { c with modelId := id } := by
    simp [Request.naming, hc]
  simp only [checkIdentifiers, hc, hnaming]
  refine bind_left_inj fun e he => ?_
  have hfield : ∃ reason, e = .validation "provider" reason := by
    cases hprovider : c.provider with
    | none => simp [hprovider, pure, Except.pure] at he
    | some provider =>
      rw [hprovider] at he
      exact exists_reason_of_checkIdentifier he
  obtain ⟨reason, rfl⟩ := hfield
  refine ⟨fun h => ?_, fun h => ?_⟩ <;>
  · obtain ⟨_, hother⟩ := exists_reason_of_checkIdentifier h
    simp at hother

end RequestLimits

/-! ## When a blank id does as much as none -/

/-- **A blank id does as much as none** exactly if it hides nothing. A
request is about the first model that is named in it unless a blank id in
the configuration hides one that was reported. With a blank id, taking it
out of the configuration leaves the id of the model and the key as they are
exactly if nothing is hidden, and the checks apart from that of the size if
the limits judge the default model as they judge the first one named. -/
theorem Request.blank_id_harmless_iff (r : Request) :
    (r.modelId = r.firstNamed ↔ ¬ r.HidesReport)
      ∧ ∀ id, r.configured? = some id → Text.IsBlankText id →
          (r.naming none).modelId = r.firstNamed
          ∧ (r.modelId = (r.naming none).modelId ↔ ¬ r.HidesReport)
          ∧ (r.cacheKey = (r.naming none).cacheKey ↔ ¬ r.HidesReport)
          ∧ ∀ limits : RequestLimits,
              (∀ q, limits.check q =
                limits.checkIdentifiers q >>= fun _ => limits.checkPayload q)
              ∧ (limits.checkIdentifiers r = limits.checkIdentifiers (r.naming none) ↔
                  limits.checkIdentifier "model_id" defaultModelId
                    = limits.checkIdentifier "model_id" r.firstNamed) := by
  refine ⟨modelId_eq_firstNamed_iff r, fun id hid hblank => ?_⟩
  have hnone : (r.naming none).modelId = r.firstNamed := modelId_naming_none hid hblank
  have hmodel : r.modelId = (r.naming none).modelId ↔ ¬ r.HidesReport := by
    rw [hnone, modelId_eq_firstNamed_iff]
  obtain ⟨c, hc, -⟩ := Option.bind_eq_some_iff.mp hid
  refine ⟨hnone, hmodel, ?_, fun limits => ⟨limits.check_eq, ?_⟩⟩
  · rw [← hmodel, cacheKey, cacheKey, CacheKey.mk.injEq]
    exact and_iff_left rfl
  · rw [RequestLimits.checkIdentifiers_naming_iff hc, hnone, modelId_of_blank hid hblank]

/-- Where the reported id is blank as well, nothing is hidden. -/
theorem Request.two_blank_ids :
    let r : Request := ⟨some ⟨none, some "\t"⟩, some { id := some "\u3000" }, true⟩
    r.configured? = some "\t" ∧ Text.IsBlankText "\t" ∧ ¬ r.HidesReport
      ∧ r.cacheKey = (r.naming none).cacheKey ∧ r.cacheKey = ⟨"default", true⟩ := by
  intro r
  have hblank : Text.IsBlankText "\t" := by decide
  have hnot : ¬ r.HidesReport := by decide
  exact ⟨rfl, hblank, hnot, ((r.blank_id_harmless_iff.2 _ rfl hblank).2.2.1).mpr hnot, by decide⟩

/-- **A blank id hides a model.** The provider reports a model, and the id
in the configuration is three spaces: the request is about the default model
and would be about the reported one without the spaces, which limits can
tell apart. -/
theorem Request.spaces_hide_reported_model :
    let r : Request := ⟨some ⟨none, some "   "⟩, some { id := some "claude-3" }, false⟩
    let limits : RequestLimits := { maxIdentifierLength := 7 }
    (r.modelId = "default" ∧ (r.naming none).modelId = "claude-3" ∧ r.firstNamed = "claude-3")
      ∧ r.cacheKey ≠ (r.naming none).cacheKey
      ∧ limits.checkIdentifiers r = .ok ()
      ∧ limits.checkIdentifiers (r.naming none)
        = .error (.validation "model_id" "length 8 exceeds 7")
      ∧ ¬ ∀ (r : Request) (id : String), r.configured? = some id → Text.IsBlankText id →
          r.modelId = (r.naming none).modelId := by
  intro r limits
  have hmodels : r.modelId = "default" ∧ (r.naming none).modelId = "claude-3" := by
    decide +kernel
  refine ⟨⟨hmodels.1, hmodels.2, by decide +kernel⟩, by decide +kernel, by decide +kernel,
    by decide +kernel, fun h => ?_⟩
  have hsame := h r "   " rfl (by decide)
  rw [hmodels.1, hmodels.2] at hsame
  exact absurd hsame (by decide)

end CapabilityBroker
