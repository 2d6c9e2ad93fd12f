/-!
# TOML strings

The four forms of a string: between double quotes with escapes, between
single quotes without, and each of the two over several lines between
three quotes. A reader is given what follows the opening quotes, and
returns the characters and what follows the closing ones.
-/

namespace CapabilityBroker

namespace Toml

/-- Whether a character is beyond ASCII. -/
def isForeign (c : Char) : Bool := 0x80 ≤ c.toNat

/-- Whether a character may stand in a comment or a literal string, a
single quote not considered. -/
def isPrintable (c : Char) : Bool :=
  c = '\t' || (0x20 ≤ c.toNat && c.toNat ≤ 0x7E) || isForeign c

/-- The two blanks of a line. -/
def isBlank (c : Char) : Bool := c = ' ' || c = '\t'

/-- A text without the blanks it begins with. -/
def skipBlanks (cs : List Char) : List Char := cs.dropWhile isBlank

/-- What follows the line break a text begins with. -/
def newline? : List Char → Option (List Char)
  | '\n' :: rest => some rest
  | '\r' :: '\n' :: rest => some rest
  | _ => none

/-- The value of a digit in some base up to sixteen. -/
def digitIn? (base : Nat) (c : Char) : Option Nat :=
  let n := c.toNat
  let v :=
    if 0x30 ≤ n ∧ n ≤ 0x39 then some (n - 0x30)
    else if 0x61 ≤ n ∧ n ≤ 0x66 then some (n - 0x57)
    else if 0x41 ≤ n ∧ n ≤ 0x46 then some (n - 0x37)
    else none
  v.filter (· < base)

/-- The character of a number, unless it is half of a surrogate pair or
too large. -/
def scalar? (n : Nat) : Option Char := if n.isValidChar then some (Char.ofNat n) else none

/-- The character whose number is written with exactly so many hexadecimal
digits, and what follows them. -/
def readScalar (width : Nat) (cs : List Char) : Option (Char × List Char) := do
  let digits ← (cs.take width).mapM (digitIn? 16)
  if digits.length < width then none
  else
    let c ← scalar? (digits.foldl (fun n d => 16 * n + d) 0)
    return (c, cs.drop width)

/-- The character that a letter after a backslash stands for. -/
def escaped? (c : Char) : Option Char :=
  if c = 'b' then some '\x08'
  else if c = 't' then some '\t'
  else if c = 'n' then some '\n'
  else if c = 'f' then some '\x0c'
  else if c = 'r' then some '\r'
  else if c = '"' then some '"'
  else if c = '\\' then some '\\'
  else none

/-- The character that the text after a backslash begins with, and what
follows it. -/
def readEscape : List Char → Option (Char × List Char)
  | 'u' :: rest => readScalar 4 rest
  | 'U' :: rest => readScalar 8 rest
  | c :: rest => (escaped? c).map (·, rest)
  | [] => none

/-- A text with one more character in front. -/
def before (c : Char) (r : Option (List Char × List Char)) : Option (List Char × List Char) :=
  r.map fun r => (c :: r.1, r.2)

/-- A string with escapes on one line. The bound is the length of the
text. -/
def readBasic : Nat → List Char → Option (List Char × List Char)
  | 0, _ => none
  | _, [] => none
  | bound + 1, c :: rest =>
    if c = '"' then some ([], rest)
    else if c = '\\' then do
      let (e, rest) ← readEscape rest
      before e (readBasic bound rest)
    else if isPrintable c then before c (readBasic bound rest)
    else none

/-- A string without escapes on one line. -/
def readLiteral : List Char → Option (List Char × List Char)
  | [] => none
  | c :: rest =>
    if c = '\'' then some ([], rest)
    else if isPrintable c then before c (readLiteral rest)
    else none

/-- What follows the closing quotes of a string over several lines, if a
text begins with them. Up to two quotes before the closing ones belong to
the string. -/
def closing? (quote : Char) (cs : List Char) : Option (List Char × List Char) :=
  let quotes := min 5 (cs.takeWhile (· = quote)).length
  if quotes < 3 then none else some (List.replicate (quotes - 3) quote, cs.drop quotes)

/-- What follows a line break, all further line breaks and the blanks
between them. -/
def skipLines : Nat → List Char → List Char
  | 0, cs => cs
  | bound + 1, cs =>
    match newline? (skipBlanks cs) with
    | some rest => skipLines bound rest
    | none => skipBlanks cs

/-- A string with escapes over several lines. A backslash at the end of a
line leaves out the line break and all blanks and line breaks after it. -/
def readBasicLines : Nat → List Char → Option (List Char × List Char)
  | 0, _ => none
  | _, [] => none
  | bound + 1, c :: rest =>
    match closing? '"' (c :: rest), newline? (c :: rest) with
    | some done, _ => some done
    | none, some rest => before '\n' (readBasicLines bound rest)
    | none, none =>
      if c = '\\' then
        match newline? (skipBlanks rest) with
        | some rest => readBasicLines bound (skipLines rest.length rest)
        | none => do
          let (e, rest) ← readEscape rest
          before e (readBasicLines bound rest)
      else if isPrintable c then before c (readBasicLines bound rest)
      else none

/-- A string without escapes over several lines. -/
def readLiteralLines : Nat → List Char → Option (List Char × List Char)
  | 0, _ => none
  | _, [] => none
  | bound + 1, c :: rest =>
    match closing? '\'' (c :: rest), newline? (c :: rest) with
    | some done, _ => some done
    | none, some rest => before '\n' (readLiteralLines bound rest)
    | none, none => if isPrintable c then before c (readLiteralLines bound rest) else none

/-- The text after the line break that may follow opening quotes. -/
def afterNewline (cs : List Char) : List Char := (newline? cs).getD cs

/-- A string of any form, and what follows it. -/
def readString (cs : List Char) : Option (List Char × List Char) :=
  match cs with
  | '"' :: '"' :: '"' :: rest => readBasicLines (rest.length + 1) (afterNewline rest)
  | '"' :: rest => readBasic (rest.length + 1) rest
  | '\'' :: '\'' :: '\'' :: rest => readLiteralLines (rest.length + 1) (afterNewline rest)
  | '\'' :: rest => readLiteral rest
  | _ => none

/-! ## Keys -/

/-- Whether a character may stand in a bare key. -/
def isBare (c : Char) : Bool := c.isAlphanum || c = '_' || c = '-'

/-- One name of a key, and what follows it. -/
def readName (cs : List Char) : Option (String × List Char) :=
  match cs with
  | '"' :: rest => (readBasic (rest.length + 1) rest).map fun r => (String.ofList r.1, r.2)
  | '\'' :: rest => (readLiteral rest).map fun r => (String.ofList r.1, r.2)
  | _ =>
    match cs.takeWhile isBare with
    | [] => none
    | name => some (String.ofList name, cs.dropWhile isBare)

/-- The names of a dotted key, blanks around them left out, and what
follows it. -/
def readNames : Nat → List Char → Option (List String × List Char)
  | 0, _ => none
  | bound + 1, cs => do
    let (name, rest) ← readName (skipBlanks cs)
    match skipBlanks rest with
    | '.' :: rest =>
      let (names, rest) ← readNames bound rest
      return (name :: names, rest)
    | rest => return ([name], rest)

/-- The greatest number of names in a key. -/
def nameLimit : Nat := 79

/-- A key, as its path and its last name, and what follows it. -/
def readKey (cs : List Char) : Option ((List String × String) × List Char) := do
  let (names, rest) ← readNames (cs.length + 1) cs
  if nameLimit < names.length then none
  else
    let last ← names.getLast?
    return ((names.dropLast, last), rest)

end Toml

end CapabilityBroker
