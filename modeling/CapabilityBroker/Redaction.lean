import CapabilityBroker.Error
import CapabilityBroker.Json.Basic
/-!
# Redaction

What is left out of logs: the values of sensitive members of an object,
at any depth, and every text that came from a caller or from a resolver.
-/

namespace CapabilityBroker

namespace Redaction

/-- What stands in the place of a redacted value. -/
def marker : String := "[REDACTED]"

/-- The names of the members whose values are redacted. -/
def sensitiveNames : List String :=
  ["model_id", "modelId", "api_model_id", "apiModelId", "configuration", "api_key", "apiKey",
   "model_info", "key"]

/-- Whether the value of a member is redacted. -/
def isSensitive (name : String) : Bool := sensitiveNames.contains name

/-- A redacted identifier. Nothing stays nothing. -/
def identifier (s : String) : String := if s = "" then "" else marker

mutual

/-- A value in which every sensitive member, at any depth, holds the
marker. -/
def value : Json → Json
  | .array items => .array (values items)
  | .object members => .object (redactedMembers members)
  | v => v

/-- The values of the items of an array, redacted. -/
def values : List Json → List Json
  | [] => []
  | v :: vs => value v :: values vs

/-- The members of an object, redacted. -/
def redactedMembers : List (String × Json) → List (String × Json)
  | [] => []
  | (n, v) :: ms =>
    (n, if isSensitive n then .string marker else value v) :: redactedMembers ms

end

/-- The message of an error without any text it may echo: the messages of
resolvers are replaced as a whole, through any wrapping, and all others
are sanitized. -/
def error : Error → String
  | .invalidModel m => "invalid model " ++ identifier m
  | .capability m => "capability error " ++ identifier m
  | .invalidCapability m => "invalid capability " ++ identifier m
  | .retryExhausted attempts source =>
    "failed after " ++ toString attempts ++ " attempts " ++ error source
  | e => e.sanitized

end Redaction

end CapabilityBroker
