import CapabilityBroker.Json.Printer
import CapabilityBroker.Redaction
import CapabilityBroker.Telemetry.Signal
/-!
# Event sinks

Where a service hands its events. A sink belongs to the surroundings of
the service, and its failures are none of the service's: an error or a
panic of a sink is logged and forgotten.
-/

namespace CapabilityBroker

/-- How a sink takes an event. -/
inductive SinkReply where
  /-- It takes it, and may log something of its own. -/
  | accepted (lines : List LogLine)
  | failed (e : Error)
  | panicked

/-- A sink: how it takes an event, given how many it was handed before. -/
abbrev Sink := Nat → TelemetryEvent → SinkReply

namespace Sink

/-- The sink that keeps silent. -/
def silent : Sink := fun _ _ => .accepted []

/-- The attributes of an event as one JSON text. -/
def attributesText (e : TelemetryEvent) : String := (Json.object e.attributes).render

/-- The sink that logs the events. -/
def logging : Sink := fun _ e =>
  .accepted [⟨.debug, "telemetry event",
    [("event", .text e.name), ("attributes", .text (attributesText e))]⟩]

end Sink

/-- What is logged when a sink takes an event so. -/
def SinkReply.lines (e : TelemetryEvent) : SinkReply → List LogLine
  | accepted lines => lines
  | failed err =>
    [⟨.warn, "telemetry sink failed",
      [("event", .text e.name), ("error", .text (Redaction.error err))]⟩]
  | panicked => [⟨.warn, "telemetry sink panicked", [("event", .text e.name)]⟩]

end CapabilityBroker
