import CapabilityBroker.Text.Blank
/-!
# Requests

What a caller asks: the provider configuration in question, what the
provider reported about the model, and whether the browser tool is
enabled. From a request follows the id of the model it is about, and from
that the key under which its answer is kept: requests with one key are
answered alike.
-/

namespace CapabilityBroker

/-- The provider configuration a caller asks about. -/
structure Configuration where
  provider : Option String := none
  modelId : Option String := none
  deriving DecidableEq, Repr

/-- What the provider reported about a model. A flag that is given
decides over what is known of the model otherwise. -/
structure ModelInfo where
  id : Option String := none
  supportsComputerUse : Option Bool := none
  supportsImages : Option Bool := none
  supportsPromptCache : Option Bool := none
  contextWindow : Option UInt32 := none
  deriving DecidableEq, Repr

/-- A request. -/
structure Request where
  configuration : Option Configuration := none
  modelInfo : Option ModelInfo := none
  browserEnabled : Bool := false
  deriving DecidableEq, Repr

/-- The key under which the answer to a request is kept. -/
structure CacheKey where
  model : String
  browserEnabled : Bool
  deriving DecidableEq, Repr

/-- The model id of a request that names none. -/
def defaultModelId : String := "default"

namespace Request

/-- The id given for the model, before it is trimmed: the configuration's
if it has one, and otherwise the one the provider reported. -/
def givenModelId (r : Request) : Option String :=
  (r.configuration.bind (·.modelId)).or (r.modelInfo.bind (·.id))

/-- The model a request is about: the given id without the blanks around
it, or the default id if nothing is given or nothing remains. -/
def modelId (r : Request) : String :=
  match r.givenModelId with
  | none => defaultModelId
  | some id => if Text.trim id = "" then defaultModelId else Text.trim id

/-- The key of a request. -/
def cacheKey (r : Request) : CacheKey := ⟨r.modelId, r.browserEnabled⟩

end Request

namespace CacheKey

/-- A key as messages show it: the model and the flag. -/
def text (k : CacheKey) : String :=
  k.model ++ ":" ++ (if k.browserEnabled then "true" else "false")

/-- Keys are ordered by their models, and keys of one model by their
flags, a disabled browser first. -/
def compare (a b : CacheKey) : Ordering :=
  if a.model < b.model then .lt
  else if b.model < a.model then .gt
  else if a.browserEnabled = b.browserEnabled then .eq
  else if b.browserEnabled then .lt else .gt

end CacheKey

end CapabilityBroker
