import CapabilityBroker.Catalog
import CapabilityBroker.Proofs.Text.Trimming
/-!
# Which model a request is about

Of the ids that a request gives, the configured one comes before the one
that was reported, and the one that is given is the one that counts, also
if it is blank (`modelId_eq`). The id of the model is trimmed already: a
request that names it outright is about the same model
(`modelId_naming_modelId`), and the catalog answers it alike
(`resolve_naming_modelId`).
-/

namespace CapabilityBroker

/-- The catalog goes by the id of the model, the report and the browser. -/
theorem Catalog.resolve_congr {p q : Request} (strict : Bool) (hmodel : p.modelId = q.modelId)
    (hinfo : p.modelInfo = q.modelInfo) (hbrowser : p.browserEnabled = q.browserEnabled) :
    resolve strict p = resolve strict q := by
  unfold resolve
  rw [hmodel, hinfo, hbrowser]

namespace Request

/-- The id in the configuration. -/
def configured? (r : Request) : Option String := r.configuration.bind (·.modelId)

/-- The id that the provider reported. -/
def reported? (r : Request) : Option String := r.modelInfo.bind (·.id)

/-- The model that an id names: the id without the blanks around it, if
anything remains. -/
def named? (id : String) : Option String :=
  if Text.IsBlankText id then none else some (Text.trim id)

/-- A request with another id in its configuration, or with none. -/
def naming (r : Request) (id : Option String) : Request :=
  { r with configuration := r.configuration.map fun c => { c with modelId := id } }

variable {r : Request} {id model : String} {c : Configuration}

/-! ## Names -/

theorem named?_of_blank (h : Text.IsBlankText id) : named? id = none := if_pos h

theorem named?_eq_some_iff :
    named? id = some model ↔ ¬ Text.IsBlankText id ∧ Text.trim id = model := by
  unfold named?
  split <;> simp [*]

/-- What is named has no blanks around it, and names itself. -/
theorem named?_of_named (h : named? id = some model) : named? model = some model := by
  obtain ⟨hid, rfl⟩ := named?_eq_some_iff.mp h
  refine named?_eq_some_iff.mpr ⟨?_, Text.trim_trim id⟩
  rwa [← Text.trim_eq_empty_iff, Text.trim_trim, Text.trim_eq_empty_iff]

/-! ## The id of the model -/

theorem givenModelId_eq (r : Request) : r.givenModelId = r.configured?.or r.reported? := rfl

/-- **The id of the model**: of the two ids the first that is given is
taken, and then it is seen whether it names anything. -/
theorem modelId_eq (r : Request) :
    r.modelId = ((r.configured?.or r.reported?).bind named?).getD defaultModelId := by
  rw [modelId, givenModelId_eq]
  cases r.configured?.or r.reported? with
  | none => rfl
  | some id =>
    simp only [Option.bind_some, named?, Text.trim_eq_empty_iff]
    split <;> rfl

/-- The id of the model names itself. -/
theorem named?_modelId (r : Request) : named? r.modelId = some r.modelId := by
  rw [modelId_eq]
  cases h : (r.configured?.or r.reported?).bind named? with
  | none => decide
  | some model =>
    obtain ⟨id, -, hid⟩ := Option.bind_eq_some_iff.mp h
    exact named?_of_named hid

/-! ## Naming another id -/

theorem configured?_naming (h : r.configuration = some c) (id : Option String) :
    (r.naming id).configured? = id := by
  simp [configured?, naming, h]

theorem reported?_naming (id : Option String) : (r.naming id).reported? = r.reported? := rfl

/-- **The id of the model stands for what was given**: a request that names
it outright is about the same model, -/
theorem modelId_naming_modelId (h : r.configuration = some c) :
    (r.naming (some r.modelId)).modelId = r.modelId := by
  rw [modelId_eq, configured?_naming h, Option.some_or, Option.bind_some, named?_modelId]
  rfl

/-- and the catalog answers it alike. -/
theorem resolve_naming_modelId (h : r.configuration = some c) (strict : Bool) :
    Catalog.resolve strict (r.naming (some r.modelId)) = Catalog.resolve strict r :=
  Catalog.resolve_congr strict (modelId_naming_modelId h) rfl rfl

end Request

end CapabilityBroker
