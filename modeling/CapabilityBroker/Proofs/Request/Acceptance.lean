import CapabilityBroker.Proofs.Request.Injection
import CapabilityBroker.Proofs.Request.ModelIds
import CapabilityBroker.Request.Validation
/-!
# Which requests are accepted

A request is accepted exactly if it has a configuration, its identifiers
are short and free of what is listed (`Admits`), and it is small as a whole
(`check_eq_ok_iff`). The identifiers are checked first (`check_eq`), and the
id that is checked is the one that answers are kept under and that the
catalog looks up, not one that is trimmed later.
-/

namespace CapabilityBroker

namespace RequestLimits

/-- The limits admit an identifier: it is short, and nothing that is listed
occurs in it. -/
structure Admits (limits : RequestLimits) (id : String) : Prop where
  short : id.toList.length ≤ limits.maxIdentifierLength
  clean : ∀ before m after : String, id = before ++ m ++ after → ¬ Injection.IsListed m.toList

/-- The check of a request apart from its size. -/
def checkIdentifiers (limits : RequestLimits) (r : Request) : Except Error Unit :=
  match r.configuration with
  | none => .error (.validation "configuration" "is required")
  | some c => do
    limits.checkIdentifier "model_id" r.modelId
    match c.provider with
    | none => pure ()
    | some provider => limits.checkIdentifier "provider" provider

variable {limits : RequestLimits} {r : Request} {c : Configuration} {id : String}

/-! ## One check after the other -/

theorem bind_eq_ok_iff {x y : Except Error Unit} :
    (x >>= fun _ => y) = .ok () ↔ x = .ok () ∧ y = .ok () := by
  cases x <;> simp [bind, Except.bind]

theorem check_eq (limits : RequestLimits) (r : Request) :
    limits.check r = limits.checkIdentifiers r >>= fun _ => limits.checkPayload r := by
  unfold check checkIdentifiers
  cases r.configuration with
  | none => rfl
  | some c =>
    dsimp only
    cases limits.checkIdentifier "model_id" r.modelId with
    | error e => rfl
    | ok _ => cases c.provider <;> rfl

/-! ## What passes -/

/-- **An identifier passes** if it is admitted. -/
theorem checkIdentifier_eq_ok_iff (field : String) :
    limits.checkIdentifier field id = .ok () ↔ limits.Admits id := by
  have hclean : Injection.contains id = false ↔
      ∀ before m after : String, id = before ++ m ++ after → ¬ Injection.IsListed m.toList := by
    rw [← Bool.not_eq_true, Injection.contains_iff]
    simp only [not_exists, not_and]
  simp only [checkIdentifier]
  split
  · next hlong => exact iff_of_false (by simp) fun h => Nat.not_lt.mpr h.short hlong
  · next hshort =>
    split
    · next hcontains =>
      refine iff_of_false (by simp) fun h => ?_
      rw [hclean.mpr h.clean] at hcontains
      cases hcontains
    · next hfree =>
      exact iff_of_true rfl ⟨Nat.not_lt.mp hshort, hclean.mp (by simpa using hfree)⟩

theorem checkPayload_eq_ok_iff :
    limits.checkPayload r = .ok () ↔ r.render.utf8ByteSize ≤ limits.maxPayloadBytes := by
  simp only [checkPayload]
  split <;> simp [*, Nat.not_lt.mp]

/-- The model and the provider pass if they are admitted. -/
theorem checkIdentifiers_eq_ok_iff : limits.checkIdentifiers r = .ok () ↔
    ∃ c, r.configuration = some c ∧ limits.Admits r.modelId
      ∧ ∀ provider, c.provider = some provider → limits.Admits provider := by
  unfold checkIdentifiers
  cases r.configuration with
  | none => simp
  | some c =>
    simp only [bind_eq_ok_iff, checkIdentifier_eq_ok_iff, Option.some.injEq, exists_eq_left']
    refine and_congr_right fun _ => ?_
    cases c.provider with
    | none => simp [pure, Except.pure]
    | some provider => simp [checkIdentifier_eq_ok_iff]

/-- **A request is accepted** exactly if it keeps every limit. -/
theorem check_eq_ok_iff : limits.check r = .ok () ↔
    (∃ c, r.configuration = some c ∧ limits.Admits r.modelId
      ∧ ∀ provider, c.provider = some provider → limits.Admits provider)
    ∧ r.render.utf8ByteSize ≤ limits.maxPayloadBytes := by
  rw [check_eq, bind_eq_ok_iff, checkIdentifiers_eq_ok_iff, checkPayload_eq_ok_iff]

/-- **Nothing that is listed passes.** A text is flagged exactly if
something that is listed occurs in it, at any place, and stays flagged with
anything around it. A request is accepted exactly if it has a configuration,
the limits admit the model and the provider, and its JSON text is within
the limit; what is admitted is short, and nothing listed occurs in it. The
model that is checked is the one in the key of the request, and the catalog
answers as if just this model had been named. -/
theorem nothing_listed_passes :
    (∀ s : String, Injection.contains s = true ↔
        ∃ before m after : String, s = before ++ m ++ after ∧ Injection.IsListed m.toList)
      ∧ (∀ s before after : String, Injection.contains s = true →
          Injection.contains (before ++ s ++ after) = true)
      ∧ ∀ (limits : RequestLimits) (r : Request),
          (limits.check r = .ok () ↔
            (∃ c, r.configuration = some c ∧ limits.Admits r.modelId
              ∧ ∀ provider, c.provider = some provider → limits.Admits provider)
            ∧ r.render.utf8ByteSize ≤ limits.maxPayloadBytes)
          ∧ (limits.check r = .ok () → limits.Admits r.cacheKey.model
              ∧ ∀ strict, Catalog.resolve strict (r.naming (some r.cacheKey.model))
                  = Catalog.resolve strict r) := by
  refine ⟨fun _ => Injection.contains_iff, fun _ before after =>
    Injection.contains_append before after, fun limits r => ⟨check_eq_ok_iff, fun h => ?_⟩⟩
  obtain ⟨⟨c, hc, hmodel, -⟩, -⟩ := check_eq_ok_iff.mp h
  exact ⟨hmodel, Request.resolve_naming_modelId hc⟩

/-- A request for a model with blanks around its id, which the id that is
checked, kept under and looked up does not have. -/
theorem padded_model_accepted :
    let r : Request := ⟨some ⟨some "openrouter", some "\u3000 anthropic/claude-sonnet-4.5\t"⟩,
      none, false⟩
    let limits : RequestLimits := { maxIdentifierLength := 27 }
    limits.check r = .ok () ∧ r.cacheKey.model = "anthropic/claude-sonnet-4.5"
      ∧ limits.Admits "anthropic/claude-sonnet-4.5"
      ∧ Catalog.resolve true (r.naming (some "anthropic/claude-sonnet-4.5"))
        = Catalog.resolve true r := by
  intro r limits
  have hcheck : limits.check r = .ok () := by decide +kernel
  have hmodel : r.cacheKey.model = "anthropic/claude-sonnet-4.5" := by decide +kernel
  have haccepted := (nothing_listed_passes.2.2 limits r).2 hcheck
  rw [hmodel] at haccepted
  exact ⟨hcheck, hmodel, haccepted.1, haccepted.2 true⟩

end RequestLimits

end CapabilityBroker
