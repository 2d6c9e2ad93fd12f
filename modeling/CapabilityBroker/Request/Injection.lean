import CapabilityBroker.Text.CaseFold
/-!
# Injection patterns

Which texts may not be an identifier: those that contain markup or shell
metacharacters, control characters, the scheme of a script or data
address, or a step to a parent directory. What an identifier does need,
such as `/`, `.`, `:`, `-`, `_` and `@`, is allowed.
-/

namespace CapabilityBroker

namespace Injection

/-- Metacharacters of markup and of shells. The number is that of the
grave accent. -/
def metacharacters : List Char :=
  ['<', '>', '"', '\'', '\x60', ';', '$', '\\', '\x7b', '\x7d', '|', '&']

/-- Whether a character is a control character. -/
def isControl (c : Char) : Bool := c.toNat ≤ 0x1F || (0x7F ≤ c.toNat && c.toNat ≤ 0x9F)

/-- Whether a character is forbidden wherever it stands. -/
def isForbidden (c : Char) : Bool := metacharacters.contains c || isControl c

/-- The words that are forbidden in any spelling. -/
def schemes : List (List Char) :=
  [['j', 'a', 'v', 'a', 's', 'c', 'r', 'i', 'p', 't', ':'], ['d', 'a', 't', 'a', ':']]

/-- The step to a parent directory. -/
def parentStep : List Char := ['.', '.', '/']

/-- Whether a text begins with a forbidden piece. -/
def beginsForbidden : List Char → Bool
  | [] => false
  | c :: cs =>
    isForbidden c || schemes.any (Text.beginsWithSpelling · (c :: cs))
      || parentStep.isPrefixOf (c :: cs)

/-- Whether a text contains a forbidden piece. -/
def occursIn : List Char → Bool
  | [] => false
  | c :: cs => beginsForbidden (c :: cs) || occursIn cs

/-- The pieces that are forbidden: a forbidden character, a spelling of a
scheme, or a step to a parent directory. -/
inductive Piece : List Char → Prop where
  | char {c : Char} (h : isForbidden c = true) : Piece [c]
  | scheme {m : List Char} (h : m.map Text.fold ∈ schemes) : Piece m
  | parent : Piece parentStep

/-- Whether a string contains a forbidden piece. -/
def contains (s : String) : Bool := occursIn s.toList

end Injection

end CapabilityBroker
