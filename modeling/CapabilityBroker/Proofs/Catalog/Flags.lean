import CapabilityBroker.Catalog
import CapabilityBroker.Proofs.Capability.Merging
import Mathlib.Logic.Function.Basic
/-!
# What the flags of a report decide

The answer of the catalog is what it knows of the model with some
capabilities granted and the others withheld (`resolve_eq`). Which ones are
granted follows from the request: a reported flag decides, otherwise what
is known does, and without the browser no computer is used. The key of a
request tells the model and the browser, but not the flags, so requests
with one key are answered alike exactly if they grant alike.
-/

namespace CapabilityBroker

namespace CapabilitySet

/-- A set with just the capabilities granted that a choice says. Those that
it did not support come in the first version and at the basic strength. -/
def granting (s : CapabilitySet) (grants : Capability → Bool) : CapabilitySet where
  supports := grants
  version c := if grants c then
    if s.supports c then s.version c else some defaultVersion else none
  strength c := if grants c then
    if s.supports c then s.strength c else some .basic else none

variable {s : CapabilitySet} {c : Capability} {grants : Capability → Bool}

theorem granting_inj {others : Capability → Bool} :
    s.granting grants = s.granting others ↔ grants = others :=
  ⟨congrArg supports, fun h => h ▸ rfl⟩

/-- Granting what is supported changes nothing. -/
theorem granting_supports (h : s.Consistent) : s.granting s.supports = s := by
  have hnone : ∀ c, s.supports c = false → s.version c = none ∧ s.strength c = none := by
    intro c hc
    obtain ⟨hversion, hstrength⟩ := h c
    simp only [hc, Option.isSome_eq_false_iff, Option.isNone_iff_eq_none] at hversion hstrength
    exact ⟨hversion, hstrength⟩
  refine CapabilitySet.ext rfl (funext fun c => ?_) (funext fun c => ?_)
  · cases hc : s.supports c with
    | true => simp [granting, hc]
    | false => simp [granting, hc, (hnone c hc).1]
  · cases hc : s.supports c with
    | true => simp [granting, hc]
    | false => simp [granting, hc, (hnone c hc).2]

theorem erase_granting :
    (s.granting grants).erase c = s.granting (Function.update grants c false) := by
  refine CapabilitySet.ext (funext fun d => ?_) (funext fun d => ?_) (funext fun d => ?_) <;>
  by_cases hd : d = c <;> simp [erase, granting, hd]

/-- A capability that is not supported is added as granting it adds it. -/
theorem insert_granting (hs : s.supports c = false) :
    (s.granting grants).insert c = s.granting (Function.update grants c true) := by
  refine CapabilitySet.ext (funext fun d => ?_) (funext fun d => ?_) (funext fun d => ?_) <;>
  by_cases hd : d = c <;> simp [insert, insertWith, granting, hd, hs]

end CapabilitySet

/-- What a report says of a capability. -/
def ModelInfo.flag (info : ModelInfo) : Capability → Option Bool
  | .computerUse => info.supportsComputerUse
  | .imageAnalysis => info.supportsImages
  | .promptCaching => info.supportsPromptCache
  | .reasoning | .toolUse => none

/-- What the provider reported of a capability to a request. -/
def Request.flag (r : Request) (c : Capability) : Option Bool := r.modelInfo.bind (·.flag c)

namespace Catalog

open Capability

/-- What a catalog that is not strict takes a model to support, before
anything was reported. -/
def known (r : Request) : CapabilitySet := (lookup r.modelId).getD unknownModel

/-- Whether the model is taken to support a capability: what was reported
decides over what is known. -/
def supported (r : Request) (c : Capability) : Bool := (r.flag c).getD ((known r).supports c)

/-- **Whether a request is granted a capability.** -/
def grants (r : Request) (c : Capability) : Bool :=
  supported r c && (r.browserEnabled || c ≠ computerUse)

variable {s : CapabilitySet} {c : Capability} {p q r : Request}

theorem consistent_known (r : Request) : (known r).Consistent := by
  unfold known lookup
  cases find? r.modelId with
  | none => exact CapabilitySet.consistent_ofStrengths _
  | some e => exact CapabilitySet.consistent_ofStrengths _

/-- A flag decides on a capability on which nothing was decided before. -/
theorem applyFlag_granting {granted : Capability → Bool} (h : granted c = s.supports c)
    (flag : Option Bool) : applyFlag (s.granting granted) c flag =
      s.granting (Function.update granted c (flag.getD (s.supports c))) := by
  cases flag with
  | none => rw [applyFlag, Option.getD_none, ← h, Function.update_eq_self]
  | some given =>
    cases given with
    | false => exact CapabilitySet.erase_granting
    | true =>
      have hsupports : (s.granting granted).supports c = s.supports c := h
      rw [applyFlag, hsupports, Option.getD_some]
      cases hs : s.supports c with
      | true =>
        rw [if_pos rfl, ← h.trans hs, Function.update_eq_self]
      | false =>
        rw [if_neg (by simp), CapabilitySet.insert_granting hs]

/-- What is left of a set when the flags of a report are applied. -/
theorem applyInfo_eq (hs : s.Consistent) (info : ModelInfo) :
    applyInfo s info = s.granting fun c => (info.flag c).getD (s.supports c) := by
  have hstart : applyInfo s info = applyInfo (s.granting s.supports) info := by
    rw [CapabilitySet.granting_supports hs]
  rw [hstart, applyInfo, applyFlag_granting rfl, applyFlag_granting (by simp),
    applyFlag_granting (by simp)]
  congr 1
  funext c
  cases c <;> rfl

/-- What is left of what is known when everything was reported. -/
theorem reported_eq (r : Request) :
    (match r.modelInfo with
      | none => known r
      | some info => applyInfo (known r) info) = (known r).granting (supported r) := by
  unfold supported Request.flag
  cases r.modelInfo with
  | none => exact (CapabilitySet.granting_supports (consistent_known r)).symm
  | some info => exact applyInfo_eq (consistent_known r) info

/-- Without the browser no computer is used. -/
theorem withheld_eq (r : Request) :
    (if r.browserEnabled then (known r).granting (supported r)
      else ((known r).granting (supported r)).erase computerUse)
      = (known r).granting (grants r) := by
  cases hb : r.browserEnabled with
  | true =>
    rw [if_pos rfl]
    congr 1
    funext c
    simp [grants, hb]
  | false =>
    rw [if_neg (by simp), CapabilitySet.erase_granting]
    congr 1
    funext c
    by_cases hc : c = computerUse <;> simp [grants, hb, hc]

/-- **The answer of the catalog** is what it knows of the model, with the
capabilities granted that the request is granted. -/
theorem resolve_eq (strict : Bool) (r : Request) : resolve strict r =
    if strict = true ∧ lookup r.modelId = none then .error (.invalidModel r.modelId)
    else .ok ((known r).granting (grants r)) := by
  rw [← withheld_eq, ← reported_eq]
  unfold resolve known
  cases lookup r.modelId <;> cases strict <;> rfl

/-- Requests with one key are about one model, and the browser is enabled
for both or for none. -/
theorem resolve_eq_iff (strict : Bool) (hkey : p.cacheKey = q.cacheKey) :
    resolve strict p = resolve strict q ↔
      (strict = true ∧ lookup p.modelId = none) ∨ ∀ c, grants p c = grants q c := by
  obtain ⟨hmodel, -⟩ := CacheKey.mk.inj hkey
  have hknown : known p = known q := by rw [known, known, hmodel]
  rw [resolve_eq, resolve_eq, ← hmodel, hknown]
  split
  · next hunknown => exact iff_of_true rfl (.inl hunknown)
  · next hknows =>
    rw [or_iff_right hknows, Except.ok.injEq, CapabilitySet.granting_inj, funext_iff]

end Catalog

end CapabilityBroker
