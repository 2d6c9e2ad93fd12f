/-!
# JSON values

A JSON value as a program holds it: an integer and a floating-point
number are different numbers, and the members of an object stand in the
order in which they are written.
-/

namespace CapabilityBroker

/-- A number of a JSON value. -/
inductive Json.Number where
  /-- A whole number written without point and exponent. -/
  | integer (value : Int)
  /-- Any other number. -/
  | float (value : Float)

/-- A JSON value. -/
inductive Json where
  | null
  | bool (value : Bool)
  | number (value : Json.Number)
  | string (text : String)
  | array (items : List Json)
  | object (members : List (String × Json))

namespace Json

/-- A natural number. -/
def nat (n : Nat) : Json := .number (.integer n)

/-- A value that may be missing, as null if it is. -/
def ofOption {α : Type} (f : α → Json) : Option α → Json
  | none => .null
  | some a => f a

/-- Members with one more put at the place its name has in the order of
names. A member of the same name is replaced. -/
def insertMember (name : String) (value : Json) :
    List (String × Json) → List (String × Json)
  | [] => [(name, value)]
  | (n, v) :: rest =>
    if name < n then (name, value) :: (n, v) :: rest
    else if name = n then (name, value) :: rest
    else (n, v) :: insertMember name value rest

/-- The object of the given members in the order of their names; of
several members of one name the last counts. -/
def sortedObject (members : List (String × Json)) : Json :=
  .object (members.foldl (fun done m => insertMember m.1 m.2 done) [])

end Json

end CapabilityBroker
