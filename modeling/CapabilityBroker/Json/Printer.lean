import CapabilityBroker.Decimal.Shortest
import CapabilityBroker.Json.Basic
/-!
# JSON text

The compact text of a JSON value: no blanks, members in their order, and
every character as itself except the two that need a backslash and the
controls. The text is a list of characters, so that what is written can
be compared with what is read one character at a time.
-/

namespace CapabilityBroker

namespace Json

/-- The hexadecimal digit of a number below sixteen. -/
def hexDigit (n : Nat) : Char :=
  if n < 10 then Char.ofNat (0x30 + n) else Char.ofNat (0x57 + n)

/-- How one character is written inside a string. -/
def escapeChar (c : Char) : List Char :=
  if c = '"' then ['\\', '"']
  else if c = '\\' then ['\\', '\\']
  else if c = '\x08' then ['\\', 'b']
  else if c = '\x0c' then ['\\', 'f']
  else if c = '\n' then ['\\', 'n']
  else if c = '\r' then ['\\', 'r']
  else if c = '\t' then ['\\', 't']
  else if c.toNat < 0x20 then
    ['\\', 'u', '0', '0', hexDigit (c.toNat / 16), hexDigit (c.toNat % 16)]
  else [c]

/-- A string between quotes. -/
def stringText (cs : List Char) : List Char :=
  '"' :: (cs.flatMap escapeChar ++ ['"'])

/-- Floating-point numbers are positional from `10 ^ -5` up to `10 ^ 16`,
and beyond that have an exponent with its sign. -/
def floatLayout : FloatLayout where
  leastPositional := -5
  greatestPositional := 15
  plusInExponent := true

/-- The text of a number; `null` where JSON has none. -/
def Number.text : Number → List Char
  | .integer (.ofNat n) => Nat.toDigits 10 n
  | .integer (.negSucc n) => '-' :: Nat.toDigits 10 (n + 1)
  | .float x => (floatLayout.text? x).getD ['n', 'u', 'l', 'l']

mutual

/-- The compact text of a value. -/
def text : Json → List Char
  | .null => ['n', 'u', 'l', 'l']
  | .bool true => ['t', 'r', 'u', 'e']
  | .bool false => ['f', 'a', 'l', 's', 'e']
  | .number n => n.text
  | .string s => stringText s.toList
  | .array [] => ['[', ']']
  | .array (v :: vs) => '[' :: (text v ++ itemsText vs)
  | .object [] => ['\x7b', '\x7d']
  | .object ((n, v) :: ms) =>
    '\x7b' :: (stringText n.toList ++ ':' :: (text v ++ membersText ms))

/-- The items after the first, and the bracket that closes the array. -/
def itemsText : List Json → List Char
  | [] => [']']
  | v :: vs => ',' :: (text v ++ itemsText vs)

/-- The members after the first, and the brace that closes the object. -/
def membersText : List (String × Json) → List Char
  | [] => ['\x7d']
  | (n, v) :: ms => ',' :: (stringText n.toList ++ ':' :: (text v ++ membersText ms))

end

/-- The compact text of a value as a string. -/
def render (j : Json) : String := String.ofList j.text

/-- The length of the compact text in bytes. -/
def byteSize (j : Json) : Nat := j.render.utf8ByteSize

end Json

end CapabilityBroker
