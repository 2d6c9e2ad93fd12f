import CapabilityBroker.Proofs.Text.Letters
import CapabilityBroker.Request.Injection
import Mathlib.Data.List.Infix
/-!
# Where forbidden pieces occur

A text is flagged exactly if a forbidden piece occurs somewhere in it
(`occursIn_iff`). What the pieces are is said here once more without the
functions that look for them (`IsListed`, `piece_iff`): a spelling of a
word is one character after another a case of the word's (`Spells`), which
is what folding comes to for words that are folded already
(`map_fold_eq_iff`).
-/

namespace CapabilityBroker

namespace Text

/-- The cases of a character: itself and its capital, and of the letters s
and k also the long s and the Kelvin sign. -/
def IsCaseOf (w c : Char) : Prop :=
  c = w ∨ c = w.toUpper ∨ (w = 's' ∧ c = longS) ∨ (w = 'k' ∧ c = kelvinSign)

/-- The spellings of a word. -/
def Spells (word m : List Char) : Prop := List.Forall₂ IsCaseOf word m

instance (w c : Char) : Decidable (IsCaseOf w c) := inferInstanceAs (Decidable (_ ∨ _))

variable {w c : Char} {word m : List Char}

/-- A character that is folded already is no capital, and neither of the
two signs that fold onto a letter. -/
theorem toLower_of_fold (hw : fold w = w) : w.toLower = w ∧ w ≠ longS ∧ w ≠ kelvinSign := by
  have hlong : w ≠ longS := by
    rintro rfl
    exact absurd hw (by decide)
  have hkelvin : w ≠ kelvinSign := by
    rintro rfl
    exact absurd hw (by decide)
  rw [fold, if_neg hlong, if_neg hkelvin] at hw
  exact ⟨hw, hlong, hkelvin⟩

/-- A small letter comes from itself and from its capital. -/
theorem toLower_eq_iff (hw : w.toLower = w) : c.toLower = w ↔ c = w ∨ c = w.toUpper := by
  constructor
  · intro h
    have hnat : c.toLower.toNat = w.toNat := by rw [h]
    rw [toNat_toLower] at hnat
    split_ifs at hnat with hcapital
    · right
      refine Char.toNat_inj.mp ?_
      rw [toNat_toUpper]
      split_ifs <;> omega
    · exact .inl (Char.toNat_inj.mp hnat)
  · rintro (rfl | rfl)
    · exact hw
    · rw [toLower_toUpper, hw]

/-- **What folds onto a character.** -/
theorem fold_eq_iff (hw : fold w = w) : fold c = w ↔ IsCaseOf w c := by
  obtain ⟨hsmall, hlong, hkelvin⟩ := toLower_of_fold hw
  -- the two signs are cases of their letters only, since neither is a capital
  have hcapital {x : Char} (hx : x.toLower = x) (hne : w ≠ x) : x ≠ w.toUpper := by
    rintro rfl
    rw [toLower_toUpper, hsmall] at hx
    exact hne hx
  unfold fold IsCaseOf
  split_ifs with hc hc'
  · subst hc
    have hupper : longS ≠ w.toUpper := hcapital (by decide) hlong
    have hsigns : longS ≠ kelvinSign := by decide
    simp [Ne.symm hlong, hupper, hsigns, eq_comm]
  · subst hc'
    have hupper : kelvinSign ≠ w.toUpper := hcapital (by decide) hkelvin
    have hsigns : kelvinSign ≠ longS := by decide
    simp [Ne.symm hkelvin, hupper, hsigns, eq_comm]
  · simp [toLower_eq_iff hsmall, hc, hc']

/-- What folds onto a word is a spelling of it. -/
theorem map_fold_eq_iff (hword : word.map fold = word) : m.map fold = word ↔ Spells word m := by
  unfold Spells
  induction word generalizing m with
  | nil => simp
  | cons w word ih =>
    obtain ⟨hw, hword⟩ := List.cons_eq_cons.mp hword
    cases m with
    | nil => simp
    | cons c m => simp [List.forall₂_cons, fold_eq_iff hw, ih hword]

end Text

namespace Injection

open Text

/-- **What may not occur in an identifier**: a metacharacter, a control
character, a step to a parent directory, or the scheme of a script or data
address in any spelling. -/
def IsListed (m : List Char) : Prop :=
  (∃ c, m = [c] ∧
      (c ∈ metacharacters ∨ c.toNat ≤ 0x1F ∨ 0x7F ≤ c.toNat ∧ c.toNat ≤ 0x9F))
    ∨ m = "../".toList ∨ Spells "javascript:".toList m ∨ Spells "data:".toList m

variable {c : Char} {cs m : List Char} {s : String}

theorem isForbidden_iff : isForbidden c = true ↔
    c ∈ metacharacters ∨ c.toNat ≤ 0x1F ∨ 0x7F ≤ c.toNat ∧ c.toNat ≤ 0x9F := by
  simp [isForbidden, isControl]

theorem map_fold_mem_schemes_iff : m.map fold ∈ schemes ↔
    Spells "javascript:".toList m ∨ Spells "data:".toList m := by
  rw [← map_fold_eq_iff (by decide), ← map_fold_eq_iff (by decide)]
  simp [schemes]

/-- **The forbidden pieces** are what is listed. -/
theorem piece_iff : Piece m ↔ IsListed m := by
  unfold IsListed
  rw [← map_fold_mem_schemes_iff]
  constructor
  · rintro (h | h | _)
    · exact .inl ⟨_, rfl, isForbidden_iff.mp h⟩
    · exact .inr (.inr h)
    · exact .inr (.inl rfl)
  · rintro (⟨c, rfl, h⟩ | rfl | h)
    · exact .char (isForbidden_iff.mpr h)
    · exact .parent
    · exact .scheme h

/-- No piece is empty. -/
theorem not_piece_nil : ¬ Piece [] := by
  rintro (_ | h)
  exact absurd h (by decide)

/-! ## At the beginning -/

/-- A text begins with a spelling of a scheme. -/
theorem any_schemes_iff : schemes.any (beginsWithSpelling · cs) = true ↔
    ∃ m, m.map fold ∈ schemes ∧ m <+: cs := by
  simp only [List.any_eq_true, beginsWithSpelling_iff]
  constructor
  · rintro ⟨_, hword, m, rest, rfl, rfl⟩
    exact ⟨m, hword, List.prefix_append m rest⟩
  · rintro ⟨m, hword, rest, rfl⟩
    exact ⟨_, hword, m, rest, rfl, rfl⟩

/-- **A text begins with a piece.** -/
theorem beginsForbidden_iff : beginsForbidden cs = true ↔ ∃ m, Piece m ∧ m <+: cs := by
  cases cs with
  | nil =>
    simp only [beginsForbidden, Bool.false_eq_true, List.prefix_nil, false_iff]
    rintro ⟨m, hm, rfl⟩
    exact not_piece_nil hm
  | cons c cs =>
    rw [beginsForbidden, Bool.or_eq_true, Bool.or_eq_true, any_schemes_iff,
      List.isPrefixOf_iff_prefix]
    constructor
    · rintro ((h | ⟨m, hm, hbegins⟩) | h)
      · exact ⟨[c], .char h, cs, rfl⟩
      · exact ⟨m, .scheme hm, hbegins⟩
      · exact ⟨parentStep, .parent, h⟩
    · rintro ⟨m, hm, hbegins⟩
      cases hm with
      | char h =>
        obtain ⟨rfl, -⟩ := List.cons_prefix_cons.mp hbegins
        exact .inl (.inl h)
      | scheme h => exact .inl (.inr ⟨m, h, hbegins⟩)
      | parent => exact .inr hbegins

/-! ## Anywhere -/

/-- **A piece occurs in a text**, wherever it begins: no place is passed
over. -/
theorem occursIn_iff : occursIn cs = true ↔ ∃ m, Piece m ∧ m <:+: cs := by
  induction cs with
  | nil =>
    simp only [occursIn, Bool.false_eq_true, List.infix_nil, false_iff]
    rintro ⟨m, hm, rfl⟩
    exact not_piece_nil hm
  | cons c cs ih =>
    simp only [occursIn, Bool.or_eq_true, beginsForbidden_iff, ih, List.infix_cons_iff, and_or_left,
      exists_or]

/-- The same for strings. -/
theorem contains_iff : contains s = true ↔
    ∃ before m after : String, s = before ++ m ++ after ∧ IsListed m.toList := by
  rw [contains, occursIn_iff]
  constructor
  · rintro ⟨m, hm, before, after, h⟩
    refine ⟨.ofList before, .ofList m, .ofList after, ?_, by simpa using piece_iff.mp hm⟩
    rw [← String.toList_inj]
    simp [h]
  · rintro ⟨before, m, after, rfl, hm⟩
    refine ⟨m.toList, piece_iff.mpr hm, before.toList, after.toList, ?_⟩
    simp

/-- **What is flagged stays flagged**, whatever is put around it. -/
theorem contains_append (before after : String) (h : contains s = true) :
    contains (before ++ s ++ after) = true := by
  obtain ⟨front, m, back, rfl, hm⟩ := contains_iff.mp h
  refine contains_iff.mpr ⟨before ++ front, m, back ++ after, ?_, hm⟩
  simp only [String.append_assoc]

end Injection

end CapabilityBroker
