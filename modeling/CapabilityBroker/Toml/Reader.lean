import CapabilityBroker.Toml.Build
import CapabilityBroker.Toml.Numbers
/-!
# Reading TOML

A TOML document is a list of lines: keys with values, headers of tables,
and repeated headers, with comments and blank lines between them. The
lines are read first, and then the document is built from what they say.
-/

namespace CapabilityBroker

namespace Toml

/-! ## Between the lexemes -/

/-- What follows the comment a text begins with, if it begins with one. -/
def skipComment (cs : List Char) : List Char :=
  match cs with
  | '#' :: rest => rest.dropWhile isPrintable
  | _ => cs

/-- What follows the end of a line: blanks, a comment, and a line break
unless the text ends. -/
def endOfLine? (cs : List Char) : Option (List Char) :=
  match skipComment (skipBlanks cs) with
  | [] => some []
  | rest => newline? rest

/-- What follows the blanks, line breaks and comments between the items of
an array. A comment ends with its line. -/
def skipGap : Nat → List Char → Option (List Char)
  | 0, cs => some cs
  | bound + 1, cs =>
    match skipBlanks cs with
    | '#' :: rest => do skipGap bound (← newline? (rest.dropWhile isPrintable))
    | rest =>
      match newline? rest with
      | some rest => skipGap bound rest
      | none => some rest

/-- What follows a gap. -/
def gap (cs : List Char) : Option (List Char) := skipGap (cs.length + 1) cs

/-! ## Values -/

/-- A reader of a value: the value, and what follows it. -/
abbrev ValueReader := List Char → Option (Toml × List Char)

/-- The items of an array up to its bracket. A comma may follow the last
one. -/
def readItems (read : ValueReader) : Nat → List Char → Option (List Toml × List Char)
  | 0, _ => none
  | bound + 1, cs => do
    match ← gap cs with
    | ']' :: rest => return ([], rest)
    | cs =>
      let (v, rest) ← read cs
      match ← gap rest with
      | ',' :: rest =>
        let (vs, rest) ← readItems read bound rest
        return (v :: vs, rest)
      | ']' :: rest => return ([v], rest)
      | _ => none

/-- A key, its value, and what follows them. -/
def readPair (read : ValueReader) (cs : List Char) :
    Option ((List String × String × Toml) × List Char) := do
  let ((path, key), rest) ← readKey cs
  let rest ← expect '=' rest
  let (v, rest) ← read (skipBlanks rest)
  return ((path, key, v), rest)

/-- The pairs of an inline table up to its brace. No comma follows the
last one. -/
def readPairs (read : ValueReader) :
    Nat → List Char → Option (List (List String × String × Toml) × List Char)
  | 0, _ => none
  | bound + 1, cs => do
    let (p, rest) ← readPair read cs
    match skipBlanks rest with
    | ',' :: rest =>
      let (ps, rest) ← readPairs read bound rest
      return (p :: ps, rest)
    | '\x7d' :: rest => return ([p], rest)
    | _ => none

/-- An array after its bracket. -/
def readArray (read : ValueReader) (cs : List Char) : Option (Toml × List Char) := do
  let (items, rest) ← readItems read (cs.length + 1) cs
  return (.array items, rest)

/-- An inline table after its brace. -/
def readInline (read : ValueReader) (cs : List Char) : Option (Toml × List Char) := do
  match skipBlanks cs with
  | '\x7d' :: rest => return (.table .inline [], rest)
  | cs =>
    let (pairs, rest) ← readPairs read (cs.length + 1) cs
    return (← ofPairs? pairs, rest)

/-- How deep values are nested at most. -/
def nestingLimit : Nat := 80

/-- A value and what follows it. Arrays and inline tables are nested up to
a depth. -/
def readValue : Nat → ValueReader
  | 0, _ => none
  | depth + 1, cs =>
    match cs with
    | '"' :: _ => (readString cs).map fun r => (.string (String.ofList r.1), r.2)
    | '\'' :: _ => (readString cs).map fun r => (.string (String.ofList r.1), r.2)
    | 't' :: 'r' :: 'u' :: 'e' :: rest => some (.boolean true, rest)
    | 'f' :: 'a' :: 'l' :: 's' :: 'e' :: rest => some (.boolean false, rest)
    | '[' :: rest => if depth = 0 then none else readArray (readValue depth) rest
    | '\x7b' :: rest => if depth = 0 then none else readInline (readValue depth) rest
    | _ => readScalarValue cs

/-! ## Lines -/

/-- What a line says, and what follows the line. -/
def readStatement (cs : List Char) : Option (Statement × List Char) :=
  match cs with
  | '[' :: '[' :: rest => do
    let ((path, key), rest) ← readKey rest
    let rest ← endOfLine? (← expect ']' (← expect ']' rest))
    return (.nextHeader path key, rest)
  | '[' :: rest => do
    let ((path, key), rest) ← readKey rest
    let rest ← endOfLine? (← expect ']' rest)
    return (.header path key, rest)
  | _ => do
    let ((path, key, v), rest) ← readPair (readValue nestingLimit) cs
    return (.entry path key v, ← endOfLine? rest)

/-- What all lines say. -/
def readStatements : Nat → List Char → Option (List Statement)
  | 0, _ => none
  | bound + 1, cs =>
    match skipBlanks cs with
    | [] => some []
    | cs =>
      match endOfLine? cs with
      | some rest => readStatements bound rest
      | none => do
        let (s, rest) ← readStatement cs
        return s :: (← readStatements bound rest)

/-- A text without the mark it may begin with. -/
def skipMark (cs : List Char) : List Char :=
  match cs with
  | '\ufeff' :: rest => rest
  | _ => cs

/-- The document that a text is. -/
def ofString? (text : String) : Option Toml := do
  let cs := skipMark text.toList
  ofStatements? (← readStatements (cs.length + 1) cs)

/-! ## Records -/

/-- The fields of a record, in the order of their names: a table, all of
whose keys have to be names of fields, or an array of the fields. Fields
may be missing, and items behind the last field are left out. -/
def record? (names : List String) : Toml → Option (List (Option Toml))
  | .table _ entries =>
    if entries.all fun e => names.contains e.1 then some (names.map (Entries.find? entries))
    else none
  | .array items =>
    some ((items.map some ++ List.replicate (names.length - items.length) none).take names.length)
  | _ => none

/-- A natural number up to a limit. -/
def nat? (limit : Nat) : Toml → Option Nat
  | .integer (.ofNat n) => if n ≤ limit then some n else none
  | _ => none

/-- A number, which may be written as an integer. -/
def number? : Toml → Option Float
  | .float x => some x
  | .integer (.ofNat n) => some n.toUInt64.toFloat
  | .integer (.negSucc n) => some (-(n + 1).toUInt64.toFloat)
  | _ => none

/-- A truth value. -/
def boolean? : Toml → Option Bool
  | .boolean b => some b
  | _ => none

/-- The value of a field that may be missing. -/
def field? {α : Type} (read : Toml → Option α) (default : α) : Option Toml → Option α
  | none => some default
  | some v => read v

end Toml

end CapabilityBroker
