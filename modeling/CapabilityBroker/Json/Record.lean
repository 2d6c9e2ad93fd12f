import CapabilityBroker.Json.Document
/-!
# Records in documents

How a value with named fields is read. It is written as an object, whose
unknown members are skipped and none of whose known ones may be repeated,
or as an array of its fields in their order. Fields may be missing; which
of them must not is left to the reader of the record.
-/

namespace CapabilityBroker

namespace Document

/-- The value of one field in the members of an object: missing if no
member has its name, and refused if several have. -/
def field? (name : String) (members : List (Option String × Document)) :
    Option (Option Document) :=
  match members.filter fun m => m.1 == some name with
  | [] => some none
  | [m] => some (some m.2)
  | _ => none

/-- The fields of a record, in the order of their names. -/
def record? (names : List String) : Document → Option (List (Option Document))
  | .object members =>
    if members.any fun m => m.1.isNone then none
    else names.mapM fun name => field? name members
  | .array items =>
    if names.length < items.length then none
    else some (items.map some ++ List.replicate (names.length - items.length) none)
  | _ => none

/-- A field that may be missing, or null. -/
def optional? {α : Type} (read : Document → Option α) : Option Document → Option (Option α)
  | none => some none
  | some .null => some none
  | some d => (read d).map some

/-- A text. -/
def string? : Document → Option String
  | .string text => text
  | _ => none

/-- A truth value. -/
def bool? : Document → Option Bool
  | .bool b => some b
  | _ => none

/-- A natural number up to a limit, written without point and exponent. -/
def nat? (limit : Nat) : Document → Option Nat
  | .number n =>
    match n.value? with
    | some (.integer (.ofNat k)) => if k ≤ limit then some k else none
    | _ => none
  | _ => none

/-- A member of an enumeration, given by its name, alone or as the name
of the one member of an object, which is null. -/
def variant? {α : Type} (ofName : String → Option α) : Document → Option α
  | .string (some s) => ofName s
  | .object [(some s, .null)] => ofName s
  | _ => none

end Document

end CapabilityBroker
