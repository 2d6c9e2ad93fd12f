import CapabilityBroker.Capability.Set
import CapabilityBroker.Json.Printer
import CapabilityBroker.Json.Record
/-!
# Capability sets as JSON

The JSON form of a capability set: the names of the supported
capabilities, the versions and the strengths, each in the order in which
capabilities are listed.
-/

namespace CapabilityBroker

namespace CapabilitySet

/-- The entries of a table, in the order of the capabilities. -/
def entries {α : Type} (table : Capability → Option α) (f : α → Json) : List (String × Json) :=
  Capability.all.filterMap fun c => (table c).map fun a => (c.name, f a)

/-- The JSON form of a set. -/
def toJson (s : CapabilitySet) : Json :=
  .object [
    ("supported", .array (s.toList.map fun c => .string c.name)),
    ("versions", .object (entries s.version .string)),
    ("strengths", .object (entries s.strength fun x => .string x.name))]

/-- The compact JSON text of a set. -/
def render (s : CapabilitySet) : String := s.toJson.render

/-- The length of the compact JSON text in bytes. -/
def byteSize (s : CapabilitySet) : Nat := s.render.utf8ByteSize

/-- A list of capabilities. Repeated ones do no harm. -/
def supported? : Document → Option (List Capability)
  | .array items => items.mapM (Document.variant? Capability.ofName?)
  | _ => none

/-- A table from capabilities; of several entries for one capability the
last counts. -/
def table? {α : Type} (read : Document → Option α) :
    Document → Option (Capability → Option α)
  | .object members =>
    members.foldlM (fun table m => do
      let c ← Capability.ofName? (← m.1)
      let a ← read m.2
      return fun d => if d = c then some a else table d) (fun _ => none)
  | _ => none

/-- The set that a document describes. All three parts are needed. -/
def ofDocument? (d : Document) : Option CapabilitySet := do
  match ← d.record? ["supported", "versions", "strengths"] with
  | [some supported, some versions, some strengths] =>
    let list ← supported? supported
    let version ← table? Document.string? versions
    let strength ← table? (Document.variant? Strength.ofName?) strengths
    return ⟨fun c => list.contains c, version, strength⟩
  | _ => none

/-- The set that a JSON text describes. -/
def ofText? (s : String) : Option CapabilitySet := do
  ofDocument? (← Document.ofString? s)

end CapabilitySet

end CapabilityBroker
