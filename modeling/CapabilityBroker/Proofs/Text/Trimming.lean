import CapabilityBroker.Text.Blank
import Mathlib.Data.List.DropRight
/-!
# Trimming

Nothing is left of a text exactly if there was nothing but blanks in it
(`trim_eq_empty_iff`). What is left has no blanks at its ends, so trimming
it again changes nothing (`trim_trim`).
-/

namespace CapabilityBroker

namespace Text

/-- A text of nothing but blanks, as the empty one is. -/
def IsBlankText (s : String) : Prop := ∀ c ∈ s.toList, isBlank c = true

instance (s : String) : Decidable (IsBlankText s) := List.decidableBAll _ s.toList

variable {cs : List Char} {s : String}

theorem trimRight_eq (cs : List Char) : trimRight cs = cs.rdropWhile isBlank := rfl

theorem trimChars_eq_nil_iff : trimChars cs = [] ↔ ∀ c ∈ cs, isBlank c = true := by
  rw [trimChars, trimRight_eq, List.rdropWhile_eq_nil_iff, trimLeft]
  constructor
  · intro h c hc
    rw [← List.takeWhile_append_dropWhile (p := isBlank) (l := cs)] at hc
    rcases List.mem_append.mp hc with hc | hc
    · exact List.mem_takeWhile_imp hc
    · exact h c hc
  · intro h c hc
    exact h c ((List.dropWhile_suffix _).subset hc)

/-- What is left begins with no blank. -/
theorem trimLeft_trimChars (cs : List Char) : trimLeft (trimChars cs) = trimChars cs := by
  refine List.dropWhile_eq_self_iff.mpr fun hpos => ?_
  have hbegins : trimChars cs <+: trimLeft cs := List.rdropWhile_prefix _ _
  rw [hbegins.getElem hpos]
  exact List.dropWhile_get_zero_not _ _ _

theorem trimChars_trimChars (cs : List Char) : trimChars (trimChars cs) = trimChars cs := by
  rw [trimChars, trimLeft_trimChars, trimChars, trimRight_eq, trimRight_eq,
    List.rdropWhile_idempotent]

/-- **Nothing is left** of blanks, and of nothing else. -/
theorem trim_eq_empty_iff : trim s = "" ↔ IsBlankText s := by
  rw [trim, ← String.toList_inj, String.toList_ofList]
  exact trimChars_eq_nil_iff

/-- **Trimming twice** is trimming once. -/
theorem trim_trim (s : String) : trim (trim s) = trim s := by
  simp only [trim, String.toList_ofList, trimChars_trimChars]

end Text

end CapabilityBroker
