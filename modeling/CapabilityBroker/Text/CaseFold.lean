/-!
# Case folding onto ASCII

Simple case folding sends a character to the one that stands for all its
cases. Here it is given for the characters that fold onto an ASCII
letter: the capitals, the long s and the Kelvin sign. Every other
character is left as it is, so a text folds onto an ASCII word exactly
when it is a spelling of that word.
-/

namespace CapabilityBroker

namespace Text

/-- The long s, a small s. -/
def longS : Char := '\u017f'

/-- The Kelvin sign, a capital K. -/
def kelvinSign : Char := '\u212a'

/-- The case folding of a character, as far as it is an ASCII letter. -/
def fold (c : Char) : Char :=
  if c = longS then 's' else if c = kelvinSign then 'k' else c.toLower

/-- Whether a text begins with a spelling of a word given in small
letters. -/
def beginsWithSpelling : List Char → List Char → Bool
  | [], _ => true
  | _ :: _, [] => false
  | w :: ws, c :: cs => fold c = w && beginsWithSpelling ws cs

/-- A text begins with a spelling of a word exactly when its first
characters fold onto the word. -/
theorem beginsWithSpelling_iff {ws cs : List Char} :
    beginsWithSpelling ws cs = true ↔ ∃ m rest, cs = m ++ rest ∧ m.map fold = ws := by
  induction ws generalizing cs with
  | nil => simp [beginsWithSpelling]
  | cons w ws ih =>
    cases cs with
    | nil => simp [beginsWithSpelling]
    | cons c cs =>
      simp only [beginsWithSpelling, Bool.and_eq_true, decide_eq_true_eq, ih]
      constructor
      · rintro ⟨rfl, m, rest, rfl, rfl⟩
        exact ⟨c :: m, rest, rfl, rfl⟩
      · rintro ⟨m, rest, h, hm⟩
        cases m with
        | nil => simp at hm
        | cons x m =>
          simp only [List.cons_append, List.cons.injEq, List.map_cons] at h hm
          obtain ⟨rfl, rfl⟩ := h
          exact ⟨hm.1, m, rest, rfl, hm.2⟩

end Text

end CapabilityBroker
