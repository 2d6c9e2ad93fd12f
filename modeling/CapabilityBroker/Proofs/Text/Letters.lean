import CapabilityBroker.Text.Blank
import Mathlib.Data.List.Forall2
import Mathlib.Tactic.SplitIfs
/-!
# Capitals and small letters

The letters here are the ASCII ones. A text in small letters (`small`) is
the same for all spellings of it that differ in capitals only
(`Respells.small_eq`), and blanks are trimmed from it as from any of them.
-/

namespace CapabilityBroker

namespace Text

/-- A text in small letters. -/
def small (cs : List Char) : List Char := cs.map Char.toLower

/-- Two texts differ at most in which of their letters are capitals. -/
def Respells (cs ds : List Char) : Prop :=
  List.Forall₂ (fun c d => d = c ∨ d = c.toLower ∨ d = c.toUpper) cs ds

variable {cs ds : List Char}

/-! ## Characters -/

/-- The capitals come 32 places before the small letters. -/
theorem toNat_toLower (c : Char) :
    c.toLower.toNat = if 65 ≤ c.toNat ∧ c.toNat ≤ 90 then c.toNat + 32 else c.toNat := by
  have hrange : (c.val ≥ 'A'.val ∧ c.val ≤ 'Z'.val) ↔ (65 ≤ c.toNat ∧ c.toNat ≤ 90) := by
    simp only [ge_iff_le, UInt32.le_iff_toNat_le]
    rfl
  have hshift : ('a'.val - 'A'.val).toNat = 32 := rfl
  unfold Char.toLower
  by_cases h : 65 ≤ c.toNat ∧ c.toNat ≤ 90
  · rw [dif_pos (hrange.mpr h), if_pos h]
    change (c.val + ('a'.val - 'A'.val)).toNat = c.val.toNat + 32
    change 65 ≤ c.val.toNat ∧ c.val.toNat ≤ 90 at h
    rw [UInt32.toNat_add]
    omega
  · rw [dif_neg (mt hrange.mp h), if_neg h]

theorem toNat_toUpper (c : Char) :
    c.toUpper.toNat = if 97 ≤ c.toNat ∧ c.toNat ≤ 122 then c.toNat - 32 else c.toNat := by
  have hrange : ('a'.val ≤ c.val ∧ c.val ≤ 'z'.val) ↔ (97 ≤ c.toNat ∧ c.toNat ≤ 122) := by
    simp only [UInt32.le_iff_toNat_le]
    rfl
  -- words wrap around, so this takes 32 away
  have hshift : ('A'.val - 'a'.val).toNat = 2 ^ 32 - 32 := rfl
  unfold Char.toUpper
  by_cases h : 97 ≤ c.toNat ∧ c.toNat ≤ 122
  · rw [dif_pos (hrange.mpr h), if_pos h]
    change (c.val + ('A'.val - 'a'.val)).toNat = c.val.toNat - 32
    change 97 ≤ c.val.toNat ∧ c.val.toNat ≤ 122 at h
    rw [UInt32.toNat_add]
    omega
  · rw [dif_neg (mt hrange.mp h), if_neg h]

theorem toLower_toLower (c : Char) : c.toLower.toLower = c.toLower := by
  refine Char.toNat_inj.mp ?_
  simp only [toNat_toLower]
  split_ifs <;> omega

theorem toLower_toUpper (c : Char) : c.toUpper.toLower = c.toLower := by
  refine Char.toNat_inj.mp ?_
  simp only [toNat_toLower, toNat_toUpper]
  split_ifs <;> omega

/-- No letter is a blank. -/
theorem isBlank_toLower (c : Char) : isBlank c.toLower = isBlank c := by
  have hletters : ∀ n < 123, 65 ≤ n → inRanges blankRanges n = false := by decide
  simp only [isBlank, toNat_toLower]
  split_ifs with h
  · rw [hletters _ (by omega) (by omega), hletters _ (by omega) (by omega)]
  · rfl

/-! ## Texts -/

theorem length_small : (small cs).length = cs.length := List.length_map _

theorem small_append : small (cs ++ ds) = small cs ++ small ds := List.map_append

/-- What is written one after another in small letters is spelled one after
another. -/
theorem small_eq_append_iff {xs ys : List Char} : small cs = xs ++ ys ↔
    ∃ front back, cs = front ++ back ∧ small front = xs ∧ small back = ys :=
  List.map_eq_append_iff

theorem small_small : small (small cs) = small cs := by
  rw [small, small, List.map_map]
  exact List.map_congr_left fun c _ => toLower_toLower c

/-- All spellings of a text are the same in small letters. -/
theorem Respells.small_eq (h : Respells cs ds) : small cs = small ds := by
  induction h with
  | nil => rfl
  | @cons c d cs ds hc _ ih =>
    have hsame : c.toLower = d.toLower := by
      rcases hc with rfl | rfl | rfl
      · rfl
      · exact (toLower_toLower c).symm
      · exact (toLower_toUpper c).symm
    change c.toLower :: small cs = d.toLower :: small ds
    rw [hsame, ih]

/-- Blanks are trimmed alike from all spellings of a text. -/
theorem trimChars_small (cs : List Char) : trimChars (small cs) = small (trimChars cs) := by
  have hblank : isBlank ∘ Char.toLower = isBlank := funext isBlank_toLower
  have hleft (ds : List Char) : (small ds).dropWhile isBlank = small (ds.dropWhile isBlank) := by
    rw [small, List.dropWhile_map, hblank, small]
  have hreverse (ds : List Char) : (small ds).reverse = small ds.reverse := List.map_reverse.symm
  rw [trimChars, trimRight, trimLeft, hleft, hreverse, hleft, hreverse]
  rfl

end Text

end CapabilityBroker
