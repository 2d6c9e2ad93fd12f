import CapabilityBroker.Catalog
import CapabilityBroker.Proofs.Text.Letters
import Mathlib.Data.List.Infix
/-!
# How the id of a model is spelled

Entries are matched with an id in small letters, so capitals make no
difference to them. Providers are taken off before the letters are made
small, and a provider that is spelled with a capital stays; then no entry
matches, since no stem begins like a provider. So the catalog answers for
an id what it answers for the id in small letters if the providers in front
are in small letters (`SmallProviders`), and nothing otherwise
(`lookup_eq`).
-/

namespace CapabilityBroker

namespace Catalog

open Text

/-- The providers that are taken off the front of an id, up to a number of
them. -/
def carried (n : Nat) (id : List Char) : List Char :=
  id.take (id.length - (stripProviders n id).length)

/-- **The providers in front of an id are in small letters**: those that
the id carries in small letters, it begins with as it is. -/
def SmallProviders (id : String) : Prop :=
  carried 2 (small (trimChars id.toList)) <+: trimChars id.toList

variable {n : Nat} {p q id rest : List Char}

/-! ## One provider -/

/-- No provider begins another one, -/
theorem eq_of_isPrefix (hp : p ∈ providers) (hq : q ∈ providers) (h : p <+: q) : p = q := by
  have hall : ∀ p ∈ providers, ∀ q ∈ providers, p.isPrefixOf q = true → p = q := by decide
  exact hall p hp q hq (List.isPrefixOf_iff_prefix.mpr h)

/-- so an id begins with one of them at most. -/
theorem eq_of_begin (hp : p ∈ providers) (hq : q ∈ providers) (hpid : p <+: id)
    (hqid : q <+: id) : p = q := by
  rcases List.prefix_or_prefix_of_prefix hpid hqid with h | h
  · exact eq_of_isPrefix hp hq h
  · exact (eq_of_isPrefix hq hp h).symm

/-- They are all in small letters. -/
theorem small_provider (hp : p ∈ providers) : small p = p := by
  have hall : ∀ p ∈ providers, small p = p := by decide
  exact hall p hp

theorem without?_eq_some_iff : without? p id = some rest ↔ id = p ++ rest := by
  unfold without?
  by_cases h : p.isPrefixOf id = true
  · obtain ⟨t, rfl⟩ := List.isPrefixOf_iff_prefix.mp h
    simp
  · have hne : id ≠ p ++ rest := by
      rintro rfl
      exact h (List.isPrefixOf_iff_prefix.mpr (List.prefix_append p rest))
    simp [h, hne]

/-- **Taking off a provider.** -/
theorem stripProvider?_eq_some_iff :
    stripProvider? id = some rest ↔ ∃ p ∈ providers, id = p ++ rest := by
  refine ⟨fun h => ?_, ?_⟩
  · obtain ⟨p, hp, hrest⟩ := List.exists_of_findSome?_eq_some h
    exact ⟨p, hp, without?_eq_some_iff.mp hrest⟩
  · rintro ⟨p, hp, rfl⟩
    -- some provider is taken off, and there is no other than this one
    cases h : stripProvider? (p ++ rest) with
    | none =>
      have hnone := List.findSome?_eq_none_iff.mp h p hp
      rw [without?_eq_some_iff.mpr rfl] at hnone
      cases hnone
    | some t =>
      obtain ⟨q, hq, ht⟩ := List.exists_of_findSome?_eq_some h
      have hrest := without?_eq_some_iff.mp ht
      obtain rfl := eq_of_begin hp hq (List.prefix_append p rest) (hrest ▸ List.prefix_append q t)
      rw [List.append_cancel_left hrest]

theorem stripProvider?_eq_none_iff :
    stripProvider? id = none ↔ ∀ p ∈ providers, ¬ p <+: id := by
  rw [Option.eq_none_iff_forall_ne_some]
  refine ⟨fun h p hp => ?_, fun h rest hrest => ?_⟩
  · rintro ⟨rest, rfl⟩
    exact h rest (stripProvider?_eq_some_iff.mpr ⟨p, hp, rfl⟩)
  · obtain ⟨p, hp, rfl⟩ := stripProvider?_eq_some_iff.mp hrest
    exact h p hp (List.prefix_append p rest)

/-! ## Several providers -/

theorem stripProviders_of_none (h : stripProvider? id = none) (n : Nat) :
    stripProviders n id = id := by
  cases n with
  | zero => rfl
  | succ n => rw [stripProviders, h]

theorem stripProviders_append (hp : p ∈ providers) :
    stripProviders (n + 1) (p ++ rest) = stripProviders n rest := by
  rw [stripProviders, stripProvider?_eq_some_iff.mpr ⟨p, hp, rfl⟩]

/-- What is left is the end of the id. -/
theorem stripProviders_isSuffix (n : Nat) (id : List Char) : stripProviders n id <:+ id := by
  induction n generalizing id with
  | zero => exact List.suffix_rfl
  | succ n ih =>
    cases h : stripProvider? id with
    | none => rw [stripProviders_of_none h]
    | some rest =>
      obtain ⟨p, hp, rfl⟩ := stripProvider?_eq_some_iff.mp h
      rw [stripProviders_append hp]
      exact (ih rest).trans (List.suffix_append p rest)

theorem carried_append_stripProviders (n : Nat) (id : List Char) :
    carried n id ++ stripProviders n id = id := by
  have hrest := List.suffix_iff_eq_drop.mp (stripProviders_isSuffix n id)
  rw [carried]
  nth_rewrite 2 [hrest]
  exact List.take_append_drop _ _

theorem carried_of_none (h : stripProvider? id = none) (n : Nat) : carried n id = [] := by
  simp [carried, stripProviders_of_none h]

theorem carried_append (hp : p ∈ providers) :
    carried (n + 1) (p ++ rest) = p ++ carried n rest := by
  have hwhole := carried_append_stripProviders (n + 1) (p ++ rest)
  rw [stripProviders_append hp] at hwhole
  refine List.append_cancel_right (hwhole.trans ?_)
  rw [List.append_assoc, carried_append_stripProviders]

/-! ## Capitals -/

/-- A provider that is taken off an id is taken off it in small letters. -/
theorem isPrefix_small (hp : p ∈ providers) (h : p <+: id) : p <+: small id := by
  obtain ⟨rest, rfl⟩ := h
  rw [small_append, small_provider hp]
  exact List.prefix_append p (small rest)

theorem stripProvider?_of_small (h : stripProvider? (small id) = none) :
    stripProvider? id = none :=
  stripProvider?_eq_none_iff.mpr fun p hp hstart =>
    stripProvider?_eq_none_iff.mp h p hp (isPrefix_small hp hstart)

/-- **Providers and capitals.** If an id begins with the providers that it
carries in small letters, they are taken off it as well. If it does not, a
provider is left in front. -/
theorem small_stripProviders (n : Nat) (id : List Char) :
    if carried n (small id) <+: id then small (stripProviders n id) = stripProviders n (small id)
    else ∃ p ∈ providers, p <+: small (stripProviders n id) := by
  induction n generalizing id with
  | zero => simp [carried, stripProviders]
  | succ n ih =>
    cases h : stripProvider? (small id) with
    | none =>
      rw [carried_of_none h, if_pos List.nil_prefix, stripProviders_of_none h,
        stripProviders_of_none (stripProvider?_of_small h)]
    | some rest =>
      obtain ⟨p, hp, hsmall⟩ := stripProvider?_eq_some_iff.mp h
      obtain ⟨front, back, rfl, hfront, rfl⟩ := small_eq_append_iff.mp hsmall
      rw [hsmall, stripProviders_append hp, carried_append hp]
      by_cases hspelling : front = p
      · subst hspelling
        rw [stripProviders_append hp]
        simpa only [List.prefix_append_right_inj] using ih back
      · -- a provider that is spelled with a capital stays in front
        have hcapital : ¬ p <+: front ++ back := by
          intro hstart
          have hlength : front.length = p.length := by rw [← hfront, length_small]
          rcases List.prefix_or_prefix_of_prefix (List.prefix_append front back) hstart with h | h
          · exact hspelling (h.eq_of_length hlength)
          · exact hspelling (h.eq_of_length hlength.symm).symm
        have hfirst : p <+: small (front ++ back) := hsmall ▸ List.prefix_append p (small back)
        have hstays : stripProvider? (front ++ back) = none :=
          stripProvider?_eq_none_iff.mpr fun q hq hstart =>
            hcapital (eq_of_begin hq hp (isPrefix_small hq hstart) hfirst ▸ hstart)
        rw [if_neg fun hstart => hcapital ((List.prefix_append p _).trans hstart),
          stripProviders_of_none hstays]
        exact ⟨p, hp, hfirst⟩

/-! ## Entries -/

/-- No stem begins like a provider. -/
theorem find?_of_provider {bare : List Char} (hp : p ∈ providers) (h : p <+: bare) :
    entries.find? (·.matches bare) = none := by
  have hall : ∀ e ∈ entries, ∀ p ∈ providers,
      e.stem.isPrefixOf p = false ∧ p.isPrefixOf e.stem = false := by decide
  refine List.find?_eq_none.mpr fun e he hmatches => ?_
  obtain ⟨hstem, hprovider⟩ := hall e he p hp
  rcases List.prefix_or_prefix_of_prefix (List.isPrefixOf_iff_prefix.mp hmatches) h with hle | hle
  · rw [List.isPrefixOf_iff_prefix.mpr hle] at hstem
    cases hstem
  · rw [List.isPrefixOf_iff_prefix.mpr hle] at hprovider
    cases hprovider

instance (id : String) : Decidable (SmallProviders id) :=
  inferInstanceAs (Decidable (_ <+: _))

theorem toList_toLower (s : String) : s.toLower.toList = small s.toList := String.toList_map

/-- In small letters an id matches as its providers are taken off it. -/
theorem bareId_toLower (s : String) :
    bareId s.toLower = stripProviders 2 (small (trimChars s.toList)) := by
  have hsmall := small_stripProviders 2 (small (trimChars s.toList))
  have hstart := carried_append_stripProviders 2 (small (trimChars s.toList))
  rw [small_small, if_pos ⟨_, hstart⟩] at hsmall
  rw [bareId, toList_toLower, trimChars_small]
  exact hsmall

/-- **What the catalog answers for an id** is what it answers for the id in
small letters, if its providers are in small letters. -/
theorem lookup_eq (s : String) :
    lookup s = if SmallProviders s then lookup s.toLower else none := by
  have hbare := small_stripProviders 2 (trimChars s.toList)
  split at hbare
  · next h =>
    have hsmall : SmallProviders s := h
    rw [if_pos hsmall, lookup, lookup, find?, find?, bareId_toLower, ← hbare]
    rfl
  · next h =>
    have hcapital : ¬ SmallProviders s := h
    obtain ⟨p, hp, hstart⟩ := hbare
    have hnone : find? s = none := find?_of_provider hp hstart
    rw [if_neg hcapital, lookup, hnone]
    rfl

/-- **Spellings are looked up alike** if their providers are. An id is
looked up as it is in small letters if the providers in front of it, of
which two count at most, are in small letters, and is not found otherwise.
So two ids that differ only in capitals are answered alike exactly if the
id is not found in small letters either, or if the providers of both are in
small letters, or those of neither. -/
theorem lookup_of_respelled (s t : String) :
    (lookup s = if SmallProviders s then lookup s.toLower else none) ∧
    (Respells s.toList t.toList →
      (lookup s = lookup t ↔
        lookup s.toLower = none ∨ (SmallProviders s ↔ SmallProviders t))) := by
  refine ⟨lookup_eq s, fun h => ?_⟩
  have hsame : s.toLower = t.toLower := by
    rw [← String.toList_inj, toList_toLower, toList_toLower, h.small_eq]
  rw [lookup_eq s, lookup_eq t, ← hsame]
  by_cases hs : SmallProviders s <;> by_cases ht : SmallProviders t <;>
    simp [hs, ht, eq_comm]

/-- Capitals in the name of the model do no harm, -/
theorem capital_model_found :
    Respells "openai/GPT-4o".toList "openai/gpt-4O".toList ∧
    (lookup "openai/gpt-4o").isSome = true ∧
    (lookup "openai/GPT-4o" = lookup "openai/gpt-4O" ↔
      lookup "openai/GPT-4o".toLower = none ∨
        (SmallProviders "openai/GPT-4o" ↔ SmallProviders "openai/gpt-4O")) ∧
    lookup "openai/GPT-4o" = lookup "openai/gpt-4O" := by
  have hrespells : Respells "openai/GPT-4o".toList "openai/gpt-4O".toList := by
    unfold Respells
    decide +kernel
  have hlookup := (lookup_of_respelled _ _).2 hrespells
  have hsmall : SmallProviders "openai/GPT-4o" ∧ SmallProviders "openai/gpt-4O" := by
    decide +kernel
  exact ⟨hrespells, by decide +kernel, hlookup,
    hlookup.mpr (Or.inr (iff_of_true hsmall.1 hsmall.2))⟩

/-- **A capital in the name of a provider hides the model.** -/
theorem capital_provider_not_found :
    ¬ ∀ s t : String, Respells s.toList t.toList → lookup s = lookup t := by
  intro h
  have hsame := h "anthropic/claude-sonnet-4" "Anthropic/claude-sonnet-4" (by
    unfold Respells
    decide +kernel)
  revert hsame
  decide +kernel

end Catalog

end CapabilityBroker
