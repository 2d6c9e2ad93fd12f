import CapabilityBroker.Capability.Set
import CapabilityBroker.Error
import CapabilityBroker.Request.Basic
import CapabilityBroker.Text.Blank
/-!
# The catalog

What is known of models by their ids. An entry speaks of all models whose
ids begin with its stem; entries with longer stems come before those whose
stems they continue, so the first entry that matches is the most special
one. An id may carry the names of up to two providers through which the
model is reached. What the provider reported about the model decides over
the catalog, and nothing can use a computer without the browser.
-/

namespace CapabilityBroker

namespace Catalog

open Capability Strength

/-- What is known of the models whose ids begin with a stem. -/
structure Entry where
  stem : List Char
  capabilities : List (Capability × Strength)
  deriving DecidableEq, Repr

/-- An entry for a stem. -/
def entry (stem : String) (capabilities : List (Capability × Strength)) : Entry :=
  ⟨stem.toList, capabilities⟩

/-- What is known. -/
def entries : List Entry :=
  [entry "claude-opus-4"
     [(computerUse, advanced), (imageAnalysis, advanced), (promptCaching, basic),
      (reasoning, advanced), (toolUse, advanced)],
   entry "claude-sonnet-4"
     [(computerUse, advanced), (imageAnalysis, advanced), (promptCaching, basic),
      (reasoning, advanced), (toolUse, advanced)],
   entry "claude-haiku-4"
     [(computerUse, basic), (imageAnalysis, basic), (promptCaching, basic),
      (reasoning, basic), (toolUse, advanced)],
   entry "claude-3-7-sonnet"
     [(computerUse, advanced), (imageAnalysis, advanced), (promptCaching, basic),
      (reasoning, basic), (toolUse, advanced)],
   entry "claude-3-5-sonnet"
     [(computerUse, basic), (imageAnalysis, advanced), (promptCaching, basic),
      (toolUse, advanced)],
   entry "claude-3-5-haiku" [(promptCaching, basic), (toolUse, basic)],
   entry "claude" [(imageAnalysis, basic), (toolUse, basic)],
   entry "gpt-4o" [(imageAnalysis, advanced), (toolUse, advanced)],
   entry "gpt-4.1" [(imageAnalysis, advanced), (toolUse, advanced)],
   entry "gpt-4" [(toolUse, basic)],
   entry "o1" [(imageAnalysis, basic), (reasoning, advanced), (toolUse, basic)],
   entry "o3" [(imageAnalysis, basic), (reasoning, advanced), (toolUse, advanced)],
   entry "o4-mini" [(imageAnalysis, basic), (reasoning, advanced), (toolUse, advanced)],
   entry "gemini-2.5"
     [(imageAnalysis, advanced), (promptCaching, basic), (reasoning, advanced),
      (toolUse, advanced)],
   entry "gemini" [(imageAnalysis, basic), (toolUse, basic)],
   entry "deepseek-r1" [(reasoning, advanced)],
   entry "deepseek-reasoner" [(reasoning, advanced), (toolUse, basic)]]

/-- What an unknown model is taken to support. -/
def unknownModel : CapabilitySet := .ofStrengths [(toolUse, basic)]

/-- The providers whose names an id may carry, each with the slash that
ends it. -/
def providers : List (List Char) :=
  ["openrouter/", "anthropic/", "openai/", "google/", "bedrock/", "vertex/", "deepseek/",
   "together/", "groq/"].map String.toList

/-- A text without a beginning, if it begins so. -/
def without? (start cs : List Char) : Option (List Char) :=
  if start.isPrefixOf cs then some (cs.drop start.length) else none

/-- An id without the provider it begins with, if it begins with one. -/
def stripProvider? (id : List Char) : Option (List Char) :=
  providers.findSome? fun p => without? p id

/-- An id without the providers it begins with, up to a number of them. -/
def stripProviders : Nat → List Char → List Char
  | 0, id => id
  | n + 1, id =>
    match stripProvider? id with
    | none => id
    | some rest => stripProviders n rest

/-- The part of an id that entries are matched with: without blanks at the
ends and providers at the front, and in small letters. -/
def bareId (id : String) : List Char :=
  (stripProviders 2 (Text.trimChars id.toList)).map Char.toLower

/-- Whether an entry speaks of an id. -/
def Entry.matches (e : Entry) (bare : List Char) : Bool := e.stem.isPrefixOf bare

/-- The entry for an id. -/
def find? (id : String) : Option Entry := entries.find? (·.matches (bareId id))

/-- The capabilities of a model, as far as the catalog knows it. -/
def lookup (id : String) : Option CapabilitySet :=
  (find? id).map fun e => .ofStrengths e.capabilities

/-- A set in which a flag decides on a capability, if it is given. One
that is there already keeps its strength. -/
def applyFlag (s : CapabilitySet) (c : Capability) : Option Bool → CapabilitySet
  | none => s
  | some true => if s.supports c then s else s.insert c
  | some false => s.erase c

/-- A set with the flags of a report applied. -/
def applyInfo (s : CapabilitySet) (info : ModelInfo) : CapabilitySet :=
  applyFlag (applyFlag (applyFlag s computerUse info.supportsComputerUse)
    imageAnalysis info.supportsImages) promptCaching info.supportsPromptCache

/-- The name of the resolver that answers from the catalog. -/
def name : String := "catalog"

/-- The answer of the catalog to a request. A strict catalog refuses
models it does not know. -/
def resolve (strict : Bool) (r : Request) : Except Error CapabilitySet :=
  match lookup r.modelId, strict with
  | none, true => .error (.invalidModel r.modelId)
  | known, _ =>
    let s := known.getD unknownModel
    let s := match r.modelInfo with
      | none => s
      | some info => applyInfo s info
    .ok (if r.browserEnabled then s else s.erase computerUse)

end Catalog

end CapabilityBroker
