import CapabilityBroker.Json.Printer
import CapabilityBroker.Json.Record
import CapabilityBroker.Request.Basic
/-!
# Requests as JSON

The JSON form of a request. Writing gives every field, null where nothing
is given; reading takes any of them to be missing.
-/

namespace CapabilityBroker

namespace Configuration

/-- The JSON form of a configuration. -/
def toJson (c : Configuration) : Json :=
  .object [("provider", .ofOption .string c.provider), ("model_id", .ofOption .string c.modelId)]

/-- The configuration that a document describes. -/
def ofDocument? (d : Document) : Option Configuration := do
  match ← d.record? ["provider", "model_id"] with
  | [provider, modelId] =>
    return ⟨← Document.optional? Document.string? provider,
      ← Document.optional? Document.string? modelId⟩
  | _ => none

end Configuration

namespace ModelInfo

/-- A context window, which is a number of 32 bits. -/
def contextWindow? (d : Document) : Option UInt32 :=
  (d.nat? (UInt32.size - 1)).map UInt32.ofNat

/-- The JSON form of what a provider reported. -/
def toJson (m : ModelInfo) : Json :=
  .object [
    ("id", .ofOption .string m.id),
    ("supports_computer_use", .ofOption .bool m.supportsComputerUse),
    ("supports_images", .ofOption .bool m.supportsImages),
    ("supports_prompt_cache", .ofOption .bool m.supportsPromptCache),
    ("context_window", .ofOption (.nat ·.toNat) m.contextWindow)]

/-- The report that a document describes. -/
def ofDocument? (d : Document) : Option ModelInfo := do
  match ← d.record? ["id", "supports_computer_use", "supports_images",
      "supports_prompt_cache", "context_window"] with
  | [id, computerUse, images, promptCache, contextWindow] =>
    return ⟨← Document.optional? Document.string? id,
      ← Document.optional? Document.bool? computerUse,
      ← Document.optional? Document.bool? images,
      ← Document.optional? Document.bool? promptCache,
      ← Document.optional? contextWindow? contextWindow⟩
  | _ => none

end ModelInfo

namespace Request

/-- The JSON form of a request. -/
def toJson (r : Request) : Json :=
  .object [
    ("configuration", .ofOption Configuration.toJson r.configuration),
    ("model_info", .ofOption ModelInfo.toJson r.modelInfo),
    ("browser_enabled", .bool r.browserEnabled)]

/-- The compact JSON text of a request. -/
def render (r : Request) : String := r.toJson.render

/-- A flag that may be missing but not null. -/
def flag? : Option Document → Option Bool
  | none => some false
  | some d => d.bool?

/-- The request that a document describes. -/
def ofDocument? (d : Document) : Option Request := do
  match ← d.record? ["configuration", "model_info", "browser_enabled"] with
  | [configuration, modelInfo, browserEnabled] =>
    return ⟨← Document.optional? Configuration.ofDocument? configuration,
      ← Document.optional? ModelInfo.ofDocument? modelInfo, ← flag? browserEnabled⟩
  | _ => none

/-- The request that a JSON text describes. -/
def ofText? (s : String) : Option Request := do
  ofDocument? (← Document.ofString? s)

end Request

end CapabilityBroker
