/-!
# Blank characters

The characters with the Unicode property `White_Space`, and the three
ways a text is cut along them: trimmed at both ends, split into words,
split into lines.
-/

namespace CapabilityBroker

namespace Text

/-- The code points with the property `White_Space`, as closed ranges. -/
def blankRanges : List (Nat × Nat) :=
  [(0x09, 0x0D), (0x20, 0x20), (0x85, 0x85), (0xA0, 0xA0), (0x1680, 0x1680),
   (0x2000, 0x200A), (0x2028, 0x2029), (0x202F, 0x202F), (0x205F, 0x205F),
   (0x3000, 0x3000)]

/-- Whether a code point lies in one of the ranges. -/
def inRanges (ranges : List (Nat × Nat)) (n : Nat) : Bool :=
  ranges.any fun r => r.1 ≤ n && n ≤ r.2

/-- Whether a character is white space. -/
def isBlank (c : Char) : Bool := inRanges blankRanges c.toNat

/-- A text without the blanks it begins with. -/
def trimLeft (cs : List Char) : List Char := cs.dropWhile isBlank

/-- A text without the blanks it ends with. -/
def trimRight (cs : List Char) : List Char := (cs.reverse.dropWhile isBlank).reverse

/-- A text without the blanks at either end. -/
def trimChars (cs : List Char) : List Char := trimRight (trimLeft cs)

/-- A string without the blanks at either end. -/
def trim (s : String) : String := String.ofList (trimChars s.toList)

/-- The first word of a text and what follows it: the leading blanks are
dropped, and the word runs to the next blank. -/
def nextWord (cs : List Char) : List Char × List Char :=
  let rest := trimLeft cs
  (rest.takeWhile (!isBlank ·), rest.dropWhile (!isBlank ·))

/-- The lines of a text. A line ends at a line feed, which is not part of
it, and neither is one carriage return just before; the last line may
lack its line feed. -/
def lines (cs : List Char) : List (List Char) :=
  go [] cs
where
  go (current : List Char) : List Char → List (List Char)
    | [] => if current.isEmpty then [] else [current.reverse]
    | '\n' :: rest => (dropReturn current).reverse :: go [] rest
    | c :: rest => go (c :: current) rest
  dropReturn : List Char → List Char
    | '\r' :: rest => rest
    | cs => cs

/-- What the core library counts as white space is blank. -/
theorem isBlank_of_isWhitespace {c : Char} (h : c.isWhitespace = true) : isBlank c = true := by
  simp only [Char.isWhitespace, Bool.or_eq_true, decide_eq_true_eq] at h
  rcases h with ((rfl | rfl) | rfl) | rfl <;> decide

/-- A text that begins with no blank keeps its beginning. -/
theorem trimLeft_cons {c : Char} {cs : List Char} (h : isBlank c = false) :
    trimLeft (c :: cs) = c :: cs := by
  simp [trimLeft, h]

/-- Blanks in front are dropped. -/
theorem trimLeft_blank {c : Char} {cs : List Char} (h : isBlank c = true) :
    trimLeft (c :: cs) = trimLeft cs := by
  simp [trimLeft, h]

/-- A zero width space is not a blank, and neither is a byte order mark. -/
example : isBlank '\u200b' = false ∧ isBlank '\ufeff' = false ∧ isBlank '\u3000' = true := by
  decide

end Text

end CapabilityBroker
