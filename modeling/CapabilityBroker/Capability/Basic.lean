/-!
# Capabilities

The features a model may have, and how strongly it may have them. Both
are closed enumerations with one spelling for each of their members.
-/

namespace CapabilityBroker

/-- A feature of a model. -/
inductive Capability where
  /-- Driving a browser or a desktop. -/
  | computerUse
  /-- Understanding images. -/
  | imageAnalysis
  /-- Caching of prompts on the side of the provider. -/
  | promptCaching
  /-- Extended reasoning within a budget of tokens. -/
  | reasoning
  /-- Calling tools. -/
  | toolUse
  deriving DecidableEq, Repr

/-- How strongly a capability is supported. -/
inductive Strength where
  | basic
  | advanced
  deriving DecidableEq, Repr

namespace Capability

/-- Every capability, in the order in which they are listed. -/
def all : List Capability :=
  [computerUse, imageAnalysis, promptCaching, reasoning, toolUse]

/-- The spelling of a capability. -/
def name : Capability → String
  | computerUse => "computer_use"
  | imageAnalysis => "image_analysis"
  | promptCaching => "prompt_caching"
  | reasoning => "reasoning"
  | toolUse => "tool_use"

/-- The capability of that spelling. -/
def ofName? (s : String) : Option Capability := all.find? fun c => c.name == s

/-- No capability is missing from the list. -/
theorem mem_all (c : Capability) : c ∈ all := by cases c <;> decide

/-- A spelling names the capability it is the spelling of. -/
theorem ofName?_name (c : Capability) : ofName? c.name = some c := by cases c <;> decide

/-- The place of a capability in the list. -/
def index (c : Capability) : Nat := all.idxOf c

end Capability

namespace Strength

/-- The spelling of a strength. -/
def name : Strength → String
  | basic => "basic"
  | advanced => "advanced"

/-- The strength of that spelling. -/
def ofName? (s : String) : Option Strength :=
  if s = "basic" then some basic else if s = "advanced" then some advanced else none

/-- A spelling names the strength it is the spelling of. -/
theorem ofName?_name (s : Strength) : ofName? s.name = some s := by cases s <;> decide

end Strength

end CapabilityBroker
