import CapabilityBroker.Proofs.Capability.Merging
import CapabilityBroker.Proofs.Json.RoundTrip
/-!
# Unions of sets that were read

A set that was read from a text may give a strength for a capability that
it does not support. The union compares strengths only, so such a set can
keep a capability of the other one out of it (`Masks`). This is the one way
in which the union fails to support what either set supports
(`supports_merge_iff`). Whatever the second set does contribute comes with
a version and a strength.
-/

namespace CapabilityBroker

namespace CapabilitySet

/-- **A set masks a capability of another** that supports it: it gives a
strength that the other one does not exceed, without supporting the
capability itself. -/
structure Masks (a b : CapabilitySet) (c : Capability) : Prop where
  unsupported : a.supports c = false
  supported : b.supports c = true
  matched : ∃ x, a.strength c = some x ∧ b.offered c ≤ x

variable {a b : CapabilitySet} {c : Capability}

/-- The second set decides on what it supports, unless the first one gives
a strength that it does not exceed. -/
theorem decides_eq_false_iff (hb : b.supports c = true) :
    decides a b c = false ↔ ∃ x, a.strength c = some x ∧ b.offered c ≤ x := by
  rw [decides, hb, Bool.true_and]
  cases a.strength c with
  | none => simp [prevails]
  | some x => simp [Bool.eq_false_iff, prevails_iff]

theorem Masks.decides_eq_false (h : a.Masks b c) : decides a b c = false :=
  (decides_eq_false_iff h.supported).mpr h.matched

/-- **The union supports what either set does**, apart from what is masked. -/
theorem supports_merge_iff : (a.merge b).supports c = true ↔
    (a.supports c = true ∨ b.supports c = true) ∧ ¬ a.Masks b c := by
  refine ⟨fun h => ⟨?_, fun hmasks => ?_⟩, fun ⟨heither, hunmasked⟩ => ?_⟩
  · rcases Bool.or_eq_true_iff.mp h with ha | hdecides
    · exact Or.inl ha
    · exact Or.inr (Bool.and_eq_true_iff.mp hdecides).1
  · rw [(merge_of_not_decides hmasks.decides_eq_false).1, hmasks.unsupported] at h
    cases h
  · -- what only the second set supports is decided by it, or masked
    cases ha : a.supports c with
    | true => simp [merge, ha]
    | false =>
      have hb : b.supports c = true := heither.resolve_left (by simp [ha])
      have hdecides : decides a b c = true := by
        by_contra hnot
        exact hunmasked ⟨ha, hb, (decides_eq_false_iff hb).mp (Bool.eq_false_iff.mpr hnot)⟩
      simp [merge, hdecides]

/-- **What the second set contributes** comes in its version and at its
strength, or in the first version and at the basic strength if it gives
none. -/
theorem merge_of_contributed (ha : a.supports c = false)
    (h : (a.merge b).supports c = true) :
    (a.merge b).version c = some ((b.version c).getD defaultVersion) ∧
      (a.merge b).strength c = some (b.offered c) := by
  have hdecides : decides a b c = true := by simpa [merge, ha] using h
  simp [merge, hdecides]

/-- The first set masks nothing of any set if it supports whatever it gives
a strength for. -/
theorem forall_not_masks_iff : (∀ b c, ¬ a.Masks b c) ↔
    ∀ c, (a.strength c).isSome = true → a.supports c = true := by
  refine ⟨fun h c hstrength => ?_, fun h b c hmasks => ?_⟩
  · obtain ⟨x, hx⟩ := Option.isSome_iff_exists.mp hstrength
    by_contra hsupports
    -- any strength masks the capability at the basic one
    have hoffered : (empty.insert c).offered c = .basic := by simp [offered, insert, insertWith]
    refine h (empty.insert c) c ⟨Bool.eq_false_iff.mpr hsupports, ?_, x, hx, ?_⟩
    · simp [insert, insertWith]
    · rw [hoffered]
      cases x <;> decide
  · obtain ⟨x, hx, -⟩ := hmasks.matched
    have hsupports := h c (hx ▸ rfl)
    rw [hmasks.unsupported] at hsupports
    cases hsupports

/-- **The union supports what either set does, unless it is masked.** Every
set can be read from a text. Whatever the two sets are, their union
supports a capability exactly if one of them does and the first does not
mask it of the second. Of what is masked the union says what the first set
says. What is supported through the second set alone has a version and a
strength in the union. A first set masks nothing of any other exactly if it
gives no strength without support. -/
theorem merge_supports_unless_masked (a b : CapabilitySet) :
    ofText? a.render = some a ∧
    (∀ c : Capability,
      ((a.merge b).supports c = true ↔
        (a.supports c = true ∨ b.supports c = true) ∧ ¬ a.Masks b c) ∧
      (a.Masks b c → (a.merge b).version c = a.version c ∧
        (a.merge b).strength c = a.strength c) ∧
      (a.supports c = false → (a.merge b).supports c = true →
        (a.merge b).version c = some ((b.version c).getD defaultVersion) ∧
          (a.merge b).strength c = some (b.offered c))) ∧
    ((∀ d c, (a.merge d).supports c = true ↔ a.supports c = true ∨ d.supports c = true) ↔
      ∀ c, (a.strength c).isSome = true → a.supports c = true) := by
  refine ⟨ofText?_render a, fun c => ⟨supports_merge_iff, fun hmasks => ?_,
    merge_of_contributed⟩, ?_⟩
  · exact (merge_of_not_decides hmasks.decides_eq_false).2
  · rw [← forall_not_masks_iff]
    refine forall_congr' fun d => forall_congr' fun c => ?_
    rw [supports_merge_iff, and_iff_left_iff_imp]
    refine ⟨fun h hmasks => h (Or.inr hmasks.supported) hmasks, fun h _ => h⟩

/-- A set that gives a strength for tools and supports nothing. -/
def strengthOnly : CapabilitySet :=
  { empty with strength := fun c => if c = .toolUse then some .basic else none }

/-- Images are not masked by it, and tools are. -/
theorem images_contributed_tools_masked :
    strengthOnly.supports .imageAnalysis = false ∧
    (strengthOnly.merge (empty.insert .imageAnalysis)).supports .imageAnalysis = true ∧
    (strengthOnly.merge (empty.insert .imageAnalysis)).version .imageAnalysis = some "1.0" ∧
    (strengthOnly.merge (empty.insert .imageAnalysis)).strength .imageAnalysis = some .basic ∧
    strengthOnly.Masks (empty.insert .toolUse) .toolUse ∧
    (strengthOnly.merge (empty.insert .toolUse)).version .toolUse = none ∧
    (strengthOnly.merge (empty.insert .toolUse)).strength .toolUse = some .basic := by
  have hcontributed := ((merge_supports_unless_masked strengthOnly (empty.insert .imageAnalysis)).2.1
    .imageAnalysis).2.2 (by decide) (by decide)
  have hmasks : strengthOnly.Masks (empty.insert .toolUse) .toolUse :=
    ⟨by decide, by decide, .basic, by decide, by decide⟩
  have hmasked := ((merge_supports_unless_masked strengthOnly (empty.insert .toolUse)).2.1
    .toolUse).2.1 hmasks
  exact ⟨by decide, by decide, hcontributed.1, hcontributed.2, hmasks, hmasked.1, hmasked.2⟩

/-- **Support is lost** in the union of two sets that were read. -/
theorem supported_tools_lost :
    ¬ ∀ (t u : String) (a b : CapabilitySet), ofText? t = some a → ofText? u = some b →
      ∀ c : Capability,
        ((a.merge b).supports c = true ↔ a.supports c = true ∨ b.supports c = true) ∧
        (b.supports c = true → a.supports c = false →
          ((a.merge b).version c).isSome = true ∧ ((a.merge b).strength c).isSome = true) := by
  intro h
  have hlost := (h _ _ strengthOnly (empty.insert .toolUse) (ofText?_render _) (ofText?_render _)
    .toolUse).1
  revert hlost
  decide

end CapabilitySet

end CapabilityBroker
