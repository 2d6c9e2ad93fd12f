import CapabilityBroker.Json.Basic
import CapabilityBroker.Redaction
import CapabilityBroker.Request.Codec
import CapabilityBroker.Telemetry.Signal
/-!
# What a service reports

The events a service hands to its sink, and the lines it logs when a
request fails. Both are about a request without repeating what it says:
the context of a line holds the request with the parts of it redacted that
identify anything.
-/

namespace CapabilityBroker

/-- The event that capabilities were determined. -/
def TelemetryEvent.determined (resolver : String) (capabilities : Nat) (browserEnabled : Bool) :
    TelemetryEvent :=
  ⟨"capabilities.determined",
    [("browser_enabled", .bool browserEnabled), ("capability_count", .nat capabilities),
     ("resolver", .string resolver)]⟩

/-- The event that a request failed. -/
def TelemetryEvent.failed (e : Error) (browserEnabled : Bool) : TelemetryEvent :=
  ⟨"capabilities.failed",
    [("browser_enabled", .bool browserEnabled), ("code", .string e.code),
     ("retryable", .bool e.isRetryable)]⟩

/-- The event that the memory pressure changed. -/
def TelemetryEvent.pressureChanged (level : String) (cleared : Nat) : TelemetryEvent :=
  ⟨"memory.pressure_changed", [("cleared_entries", .nat cleared), ("level", .string level)]⟩

namespace Request

/-- The operation named in the context of a failure. -/
def operation : String := "determine_capabilities"

/-- The context of a failure before anything is redacted. -/
def context (r : Request) : Json :=
  .object [
    ("browser_enabled", .bool r.browserEnabled),
    ("configuration", .ofOption Configuration.toJson r.configuration),
    ("model_info", .ofOption ModelInfo.toJson r.modelInfo),
    ("operation", .string operation)]

/-- The text of the context as it is logged. -/
def contextText (r : Request) : String := (Redaction.value r.context).render

/-- The line that is logged when a request fails: a warning where the
caller is to blame, and an error otherwise. -/
def failureLine (r : Request) (e : Error) : LogLine :=
  let (level, message) : LogLevel × String := match e with
    | .validation .. | .rateLimited _ => (.warn, "capability request rejected")
    | _ => (.error, "capability determination failed")
  ⟨level, message,
    [("code", .text e.code), ("error", .text (Redaction.error e)),
     ("context", .text r.contextText)]⟩

end Request

end CapabilityBroker
