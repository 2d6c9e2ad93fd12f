import CapabilityBroker.Catalog
import Mathlib.Data.List.Infix
import Mathlib.Data.List.Nodup
/-!
# Which entry speaks of a model

Several entries may speak of one id. Of two stems that an id begins with,
one begins the other, so where no stem begins that of a later entry
(`SpecialFirst`), the first entry that matches has the longest of all the
stems that the id begins with (`SpecialFirst.find?_eq_some_iff`), and no
entry is hidden by an earlier one (`SpecialFirst.find?_stem`). The entries
of the catalog are in such an order.
-/

namespace CapabilityBroker

namespace Catalog

/-- An entry is the most special one for an id: the id begins with its
stem, and every other stem that it begins with is shorter. -/
structure IsMostSpecial (es : List Entry) (bare : List Char) (e : Entry) : Prop where
  mem : e ∈ es
  begins : e.stem <+: bare
  longest : ∀ f ∈ es, f.stem <+: bare → f ≠ e → f.stem.length < e.stem.length

/-- Special entries come first: no stem begins that of a later entry. -/
def SpecialFirst (es : List Entry) : Prop := es.Pairwise fun e f => ¬ e.stem <+: f.stem

instance (es : List Entry) : Decidable (SpecialFirst es) :=
  inferInstanceAs (Decidable (List.Pairwise _ _))

variable {es : List Entry} {bare : List Char} {e f : Entry}

theorem matches_iff : e.matches bare = true ↔ e.stem <+: bare := List.isPrefixOf_iff_prefix

/-- There is one most special entry at most. -/
theorem IsMostSpecial.unique (he : IsMostSpecial es bare e) (hf : IsMostSpecial es bare f) :
    e = f := by
  by_contra hne
  have hfe := he.longest f hf.mem hf.begins (Ne.symm hne)
  have hef := hf.longest e he.mem he.begins hne
  omega

namespace SpecialFirst

/-- The first entry that matches is the most special one. -/
theorem isMostSpecial (h : SpecialFirst es) (hfirst : es.find? (·.matches bare) = some e) :
    IsMostSpecial es bare e := by
  obtain ⟨he, before, after, rfl, hbefore⟩ := List.find?_eq_some_iff_append.mp hfirst
  have hbegins : e.stem <+: bare := matches_iff.mp he
  refine ⟨by simp, hbegins, fun f hf hmatches hne => ?_⟩
  have hlater : f ∈ after := by
    rcases List.mem_append.mp hf with hf | hf
    · have hnot := hbefore f hf
      simp [matches_iff.mpr hmatches] at hnot
    · exact (List.mem_cons.mp hf).resolve_left hne
  have hnot : ¬ e.stem <+: f.stem :=
    (List.pairwise_cons.mp (List.pairwise_append.mp h).2.1).1 f hlater
  -- so of the two stems, the one that begins the other is the later one
  rcases List.prefix_or_prefix_of_prefix hbegins hmatches with hle | hle
  · exact absurd hle hnot
  · refine lt_of_le_of_ne hle.length_le fun hlength => hnot ?_
    rw [hle.eq_of_length hlength]

/-- **The first match is the most special one**, and there is a match if
any stem matches. -/
theorem find?_eq_some_iff (h : SpecialFirst es) :
    es.find? (·.matches bare) = some e ↔ IsMostSpecial es bare e := by
  refine ⟨h.isMostSpecial, fun he => ?_⟩
  cases hfirst : es.find? (·.matches bare) with
  | none => exact absurd (matches_iff.mpr he.begins) (List.find?_eq_none.mp hfirst e he.mem)
  | some f => rw [he.unique (h.isMostSpecial hfirst)]

/-- No two entries have one stem. -/
theorem nodup_stems (h : SpecialFirst es) : (es.map (·.stem)).Nodup :=
  List.pairwise_map.mpr (h.imp fun hnot hsame => hnot (by rw [hsame]))

/-- **No entry is hidden**: for its own stem it is the one that is found. -/
theorem find?_stem (h : SpecialFirst es) (he : e ∈ es) :
    es.find? (·.matches e.stem) = some e := by
  refine h.find?_eq_some_iff.mpr ⟨he, List.prefix_rfl, fun f hf hbegins hne => ?_⟩
  refine lt_of_le_of_ne hbegins.length_le fun hlength => hne ?_
  exact List.inj_on_of_nodup_map h.nodup_stems hf he (hbegins.eq_of_length hlength)

end SpecialFirst

theorem specialFirst_entries : SpecialFirst entries := by decide

/-- The stems are ids as they are matched with. -/
theorem bareId_stem (he : e ∈ entries) : bareId (String.ofList e.stem) = e.stem := by
  have hall : ∀ e ∈ entries, bareId (String.ofList e.stem) = e.stem := by decide +kernel
  exact hall e he

/-- **The most special entry is found.** For every id, the entry that is
looked up is the one with the longest of all the stems that the id begins
with; nothing is found exactly if it begins with none. No stem begins that
of a later entry, and every entry is found for its own stem. -/
theorem most_special_found (id : String) :
    (∀ e, find? id = some e ↔ IsMostSpecial entries (bareId id) e)
      ∧ (∀ s, lookup id = some s ↔
          ∃ e, IsMostSpecial entries (bareId id) e ∧ .ofStrengths e.capabilities = s)
      ∧ (lookup id = none ↔ ∀ e ∈ entries, ¬ e.stem <+: bareId id)
      ∧ SpecialFirst entries
      ∧ ∀ e ∈ entries, find? (String.ofList e.stem) = some e := by
  have hfind (e : Entry) : find? id = some e ↔ IsMostSpecial entries (bareId id) e :=
    specialFirst_entries.find?_eq_some_iff
  refine ⟨hfind, fun s => ?_, ?_, specialFirst_entries, fun e he => ?_⟩
  · simp only [lookup, Option.map_eq_some_iff, hfind]
  · simp only [lookup, find?, Option.map_eq_none_iff, List.find?_eq_none, matches_iff]
  · rw [find?, bareId_stem he]
    exact specialFirst_entries.find?_stem he

/-- Two stems match, and the longer one decides. -/
theorem gpt_4o_found_before_gpt_4 :
    "gpt-4".toList <+: bareId "openrouter/openai/GPT-4o-mini"
      ∧ "gpt-4o".toList <+: bareId "openrouter/openai/GPT-4o-mini"
      ∧ lookup "openrouter/openai/GPT-4o-mini"
        = some (.ofStrengths [(.imageAnalysis, .advanced), (.toolUse, .advanced)]) := by
  have hbare : bareId "openrouter/openai/GPT-4o-mini" = "gpt-4o-mini".toList := by
    decide +kernel
  rw [hbare]
  refine ⟨by decide, by decide, (most_special_found _).2.1 _ |>.mpr
    ⟨entry "gpt-4o" [(.imageAnalysis, .advanced), (.toolUse, .advanced)],
      ⟨by decide, ?_, ?_⟩, rfl⟩⟩
  · rw [hbare]
    decide
  · rw [hbare]
    decide

end Catalog

end CapabilityBroker
