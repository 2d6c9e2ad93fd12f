/-!
# TOML values

What a TOML document says: a table of tables and values. A table remembers
how it came to be, since that decides whether later lines of the document
may add to it.
-/

namespace CapabilityBroker

/-- How a table came to be. -/
inductive Toml.Origin where
  /-- It has a header of its own, or is the document. -/
  | header
  /-- It is on the way to the table of a longer header. -/
  | implied
  /-- It is on the way to a dotted key. -/
  | dotted
  /-- It is written as a value. -/
  | inline
  deriving DecidableEq, Repr

/-- A TOML value. Dates and times keep their texts. -/
inductive Toml where
  | string (text : String)
  | integer (value : Int)
  | float (value : Float)
  | boolean (value : Bool)
  | moment (text : String)
  | array (items : List Toml)
  | table (origin : Toml.Origin) (entries : List (String × Toml))
  /-- Tables of one header that may be repeated, the latest last. -/
  | tables (items : List (List (String × Toml)))

namespace Toml

/-- The entries of a table. -/
abbrev Entries := List (String × Toml)

/-- The entry of a key. -/
def Entries.find? (es : Entries) (key : String) : Option Toml :=
  (List.find? (·.1 = key) es).map (·.2)

/-- An entry takes the place of the one of its key, or is added. -/
def Entries.set (es : Entries) (key : String) (v : Toml) : Entries :=
  match es with
  | [] => [(key, v)]
  | (k, w) :: rest => if k = key then (key, v) :: rest else (k, w) :: Entries.set rest key v

end Toml

end CapabilityBroker
