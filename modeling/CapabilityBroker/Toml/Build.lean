import CapabilityBroker.Toml.Basic
/-!
# Building tables

How the lines of a TOML document make up its tables. Every key is defined
once: a table is opened by one header only, a dotted key adds only to
tables that dotted keys made, and nothing adds to a table that is written
as a value.
-/

namespace CapabilityBroker

namespace Toml

/-- What is done to a table, which depends on how it came to be. -/
abbrev Change := Origin → Entries → Option Entries

/-- Changes the table at a path below a table. Tables that are missing on
the way are made; of repeated tables the latest is the one on the way. A
dotted path does not lead through a table that has a header. -/
def within (dotted : Bool) (change : Change) : List String → Change
  | [], origin, es => change origin es
  | key :: path, _, es =>
    match es.find? key with
    | none =>
      let origin := if dotted then Origin.dotted else .implied
      (within dotted change path origin []).map fun t => es.set key (.table origin t)
    | some (.table origin t) =>
      if origin = .inline || (dotted && origin = .header) then none
      else (within dotted change path origin t).map fun t => es.set key (.table origin t)
    | some (.tables ts) =>
      match ts.getLast? with
      | none => none
      | some t =>
        (within dotted change path .header t).map fun t => es.set key (.tables (ts.dropLast ++ [t]))
    | some _ => none

/-- Defines a key of a table. The tables of a dotted key are those that
dotted keys made, and other keys are not put into them. -/
def define (path : List String) (key : String) (v : Toml) : Change :=
  within true (fun origin es =>
    if decide (origin = .dotted) == path.isEmpty || (es.find? key).isSome then none
    else some (es.set key v)) path

/-- Opens the table of a header. It may have been implied before. -/
def openTable (key : String) : Change := fun _ es =>
  match es.find? key with
  | none => some (es.set key (.table .header []))
  | some (.table .implied t) => some (es.set key (.table .header t))
  | some _ => none

/-- Opens one more table of a repeated header. -/
def openNext (key : String) : Change := fun _ es =>
  match es.find? key with
  | none => some (es.set key (.tables [[]]))
  | some (.tables ts) => some (es.set key (.tables (ts ++ [[]])))
  | some _ => none

/-- What a line says. A path is the part of a key before its last name. -/
inductive Statement where
  | entry (path : List String) (key : String) (value : Toml)
  | header (path : List String) (key : String)
  | nextHeader (path : List String) (key : String)

/-- A document while it is built: its entries, and the path of the table
that keys are put into. -/
structure Draft where
  entries : Entries
  current : List String

namespace Draft

/-- The document in which nothing has been said. -/
def empty : Draft := ⟨[], []⟩

/-- The document after one more statement, unless that contradicts an
earlier one. -/
def add? (d : Draft) : Statement → Option Draft
  | .entry path key v =>
    (within false (fun _ es => define path key v .header es) d.current .header d.entries).map
      fun es => { d with entries := es }
  | .header path key =>
    (within false (openTable key) path .header d.entries).map fun es => ⟨es, path ++ [key]⟩
  | .nextHeader path key =>
    (within false (openNext key) path .header d.entries).map fun es => ⟨es, path ++ [key]⟩

end Draft

/-- The document that statements make up. -/
def ofStatements? (ss : List Statement) : Option Toml :=
  (ss.foldlM Draft.add? Draft.empty).map fun d => .table .header d.entries

/-- The table that the entries of an inline table make up. -/
def ofPairs? (pairs : List (List String × String × Toml)) : Option Toml :=
  (pairs.foldlM (fun es (path, key, v) => define path key v .header es) []).map (.table .inline)

end Toml

end CapabilityBroker
