import CapabilityBroker.Error
import CapabilityBroker.Request.Codec
import CapabilityBroker.Request.Injection
/-!
# Validation of requests

The limits a request has to keep before any other work is done for it: a
configuration is given, the model id and the provider are short and free
of injection patterns, and the request as a whole is small.
-/

namespace CapabilityBroker

/-- The limits for requests. -/
structure RequestLimits where
  /-- The greatest size of a request as JSON, in bytes. -/
  maxPayloadBytes : Nat := 100 * 1024
  /-- The greatest length of an identifier, in characters. -/
  maxIdentifierLength : Nat := 256
  deriving DecidableEq, Repr

namespace RequestLimits

/-- An identifier is checked for its length first. -/
def checkIdentifier (limits : RequestLimits) (field value : String) : Except Error Unit :=
  let length := value.toList.length
  if limits.maxIdentifierLength < length then
    .error (.validation field
      ("length " ++ toString length ++ " exceeds " ++ toString limits.maxIdentifierLength))
  else if Injection.contains value then
    .error (.validation field "contains disallowed characters")
  else .ok ()

/-- The size of the whole request. -/
def checkPayload (limits : RequestLimits) (r : Request) : Except Error Unit :=
  let size := r.render.utf8ByteSize
  if limits.maxPayloadBytes < size then
    .error (.validation "params"
      ("payload of " ++ toString size ++ " bytes exceeds " ++ toString limits.maxPayloadBytes
        ++ " bytes"))
  else .ok ()

/-- Checks a request: that it has a configuration, the model id, the
provider if one is named, and the size, in this order. -/
def check (limits : RequestLimits) (r : Request) : Except Error Unit :=
  match r.configuration with
  | none => .error (.validation "configuration" "is required")
  | some c => do
    limits.checkIdentifier "model_id" r.modelId
    match c.provider with
    | none => pure ()
    | some provider => limits.checkIdentifier "provider" provider
    limits.checkPayload r

end RequestLimits

end CapabilityBroker
