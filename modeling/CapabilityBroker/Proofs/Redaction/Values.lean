import CapabilityBroker.Redaction
import CapabilityBroker.Service.Events
/-!
# What redaction keeps of a value

Two values side by side (`Alike`): the same numbers, texts and flags at the
same places, the same members in the same order, and nothing asked of a pair
that stands under a sensitive name but what a relation says. Redaction is
exact in these terms. Two values are redacted to the same if they are alike
with no regard to such pairs, and a value is redacted to the one value that
is like it and holds the marker there (`redaction_is_exact`).
-/

namespace CapabilityBroker

namespace Redaction

/-! ## Values side by side -/

mutual

/-- **Two values are alike** up to what their sensitive members hold: such
pairs are only asked to be related by `hidden`. What stands below a
sensitive name is not looked at. -/
inductive Alike (hidden : Json → Json → Prop) : Json → Json → Prop
  | null : Alike hidden .null .null
  | bool (b : Bool) : Alike hidden (.bool b) (.bool b)
  | number (n : Json.Number) : Alike hidden (.number n) (.number n)
  | string (s : String) : Alike hidden (.string s) (.string s)
  | array {vs ws : List Json} (items : ItemsAlike hidden vs ws) :
      Alike hidden (.array vs) (.array ws)
  | object {ms ns : List (String × Json)} (members : MembersAlike hidden ms ns) :
      Alike hidden (.object ms) (.object ns)

/-- As many items, alike one by one. -/
inductive ItemsAlike (hidden : Json → Json → Prop) : List Json → List Json → Prop
  | nil : ItemsAlike hidden [] []
  | cons {v w : Json} {vs ws : List Json} (first : Alike hidden v w)
      (rest : ItemsAlike hidden vs ws) : ItemsAlike hidden (v :: vs) (w :: ws)

/-- Members of the same names, alike one by one. -/
inductive MembersAlike (hidden : Json → Json → Prop) :
    List (String × Json) → List (String × Json) → Prop
  | nil : MembersAlike hidden [] []
  | sensitive {name : String} {v w : Json} {ms ns : List (String × Json)}
      (is_sensitive : isSensitive name = true) (held : hidden v w)
      (rest : MembersAlike hidden ms ns) : MembersAlike hidden ((name, v) :: ms) ((name, w) :: ns)
  | plain {name : String} {v w : Json} {ms ns : List (String × Json)}
      (not_sensitive : isSensitive name = false) (first : Alike hidden v w)
      (rest : MembersAlike hidden ms ns) : MembersAlike hidden ((name, v) :: ms) ((name, w) :: ns)

end

/-- What a sensitive member holds is disregarded. -/
def Disregarded (_ _ : Json) : Prop := True

/-- What a sensitive member held is replaced by the marker. -/
def Replaced (_ held : Json) : Prop := held = .string marker

variable {hidden : Json → Json → Prop}

/-! ## Alike values are redacted to the same -/

mutual

theorem value_eq_of_alike {v w : Json} : Alike hidden v w → value v = value w
  | .null | .bool _ | .number _ | .string _ => rfl
  | .array items => congrArg Json.array (values_eq_of_alike items)
  | .object members => congrArg Json.object (redactedMembers_eq_of_alike members)

theorem values_eq_of_alike {vs ws : List Json} : ItemsAlike hidden vs ws → values vs = values ws
  | .nil => rfl
  | .cons first rest => by
    rw [values, values, value_eq_of_alike first, values_eq_of_alike rest]

theorem redactedMembers_eq_of_alike {ms ns : List (String × Json)} :
    MembersAlike hidden ms ns → redactedMembers ms = redactedMembers ns
  | .nil => rfl
  | .sensitive hname _ rest => by
    rw [redactedMembers, redactedMembers, if_pos hname, if_pos hname,
      redactedMembers_eq_of_alike rest]
  | .plain _ first rest => by
    rw [redactedMembers, redactedMembers, value_eq_of_alike first,
      redactedMembers_eq_of_alike rest]

end

/-! ## Values that are redacted to the same are alike -/

mutual

theorem alike_of_value_eq {v w : Json} (h : value v = value w) : Alike Disregarded v w := by
  -- values of different kinds stay different
  cases v with
  | null =>
    cases w <;> simp [value] at h
    exact .null
  | bool b =>
    cases w <;> simp [value] at h
    exact h ▸ .bool b
  | number n =>
    cases w <;> simp [value] at h
    exact h ▸ .number n
  | string s =>
    cases w <;> simp [value] at h
    exact h ▸ .string s
  | array vs =>
    cases w with
    | array ws => exact .array (itemsAlike_of_values_eq (Json.array.inj h))
    | _ => simp [value] at h
  | object ms =>
    cases w with
    | object ns => exact .object (membersAlike_of_redactedMembers_eq (Json.object.inj h))
    | _ => simp [value] at h

theorem itemsAlike_of_values_eq {vs ws : List Json} (h : values vs = values ws) :
    ItemsAlike Disregarded vs ws := by
  cases vs with
  | nil =>
    cases ws <;> simp [values] at h
    exact .nil
  | cons v vs =>
    cases ws with
    | nil => simp [values] at h
    | cons w ws =>
      obtain ⟨hfirst, hrest⟩ := List.cons.inj h
      exact .cons (alike_of_value_eq hfirst) (itemsAlike_of_values_eq hrest)

theorem membersAlike_of_redactedMembers_eq {ms ns : List (String × Json)}
    (h : redactedMembers ms = redactedMembers ns) : MembersAlike Disregarded ms ns := by
  cases ms with
  | nil =>
    cases ns <;> simp [redactedMembers] at h
    exact .nil
  | cons m ms =>
    cases ns with
    | nil => simp [redactedMembers] at h
    | cons n ns =>
      obtain ⟨name, v⟩ := m
      obtain ⟨name', w⟩ := n
      simp only [redactedMembers, List.cons.injEq, Prod.mk.injEq] at h
      obtain ⟨⟨rfl, hheld⟩, hrest⟩ := h
      have hrest := membersAlike_of_redactedMembers_eq hrest
      cases hname : isSensitive name with
      | true => exact .sensitive hname trivial hrest
      | false =>
        rw [hname] at hheld
        exact .plain hname (alike_of_value_eq hheld) hrest

end

/-! ## What a value is redacted to -/

mutual

/-- A redacted value is like the value it comes from. -/
theorem alike_value : (v : Json) → Alike Replaced v (value v)
  | .null => .null
  | .bool b => .bool b
  | .number n => .number n
  | .string s => .string s
  | .array vs => .array (itemsAlike_values vs)
  | .object ms => .object (membersAlike_redactedMembers ms)

theorem itemsAlike_values : (vs : List Json) → ItemsAlike Replaced vs (values vs)
  | [] => .nil
  | v :: vs => .cons (alike_value v) (itemsAlike_values vs)

theorem membersAlike_redactedMembers :
    (ms : List (String × Json)) → MembersAlike Replaced ms (redactedMembers ms)
  | [] => .nil
  | (name, v) :: ms => by
    have hrest := membersAlike_redactedMembers ms
    rw [redactedMembers]
    cases hname : isSensitive name with
    | true => exact .sensitive hname rfl hrest
    | false => exact .plain hname (alike_value v) hrest

end

mutual

/-- No other value with the marker in the sensitive places is. -/
theorem value_eq_of_replaced {v w : Json} : Alike Replaced v w → value v = w
  | .null | .bool _ | .number _ | .string _ => rfl
  | .array items => congrArg Json.array (values_eq_of_replaced items)
  | .object members => congrArg Json.object (redactedMembers_eq_of_replaced members)

theorem values_eq_of_replaced {vs ws : List Json} : ItemsAlike Replaced vs ws → values vs = ws
  | .nil => rfl
  | .cons first rest => by
    rw [values, value_eq_of_replaced first, values_eq_of_replaced rest]

theorem redactedMembers_eq_of_replaced {ms ns : List (String × Json)} :
    MembersAlike Replaced ms ns → redactedMembers ms = ns
  | .nil => rfl
  | .sensitive hname held rest => by
    rw [redactedMembers, if_pos hname, redactedMembers_eq_of_replaced rest, held]
  | .plain hname first rest => by
    rw [redactedMembers, if_neg (by simp [hname]), value_eq_of_replaced first,
      redactedMembers_eq_of_replaced rest]

end

/-- Redacting again changes nothing. -/
@[simp] theorem value_value (v : Json) : value (value v) = value v :=
  (value_eq_of_alike (alike_value v)).symm

/-- No item of an array is dropped. -/
theorem length_values (vs : List Json) : (values vs).length = vs.length := by
  induction vs with
  | nil => rfl
  | cons v vs ih => simp [values, ih]

/-- No member of an object is dropped or renamed. -/
theorem names_redactedMembers (ms : List (String × Json)) :
    (redactedMembers ms).map (·.1) = ms.map (·.1) := by
  induction ms with
  | nil => rfl
  | cons m ms ih => simp [redactedMembers, ih]

end Redaction

namespace Request

variable {r r' : Request}

/-- What is logged of a request that fails, whatever it says but for the
flag of the browser. -/
def contextFor (browserEnabled : Bool) : Json :=
  .object [
    ("browser_enabled", .bool browserEnabled),
    ("configuration", .string Redaction.marker),
    ("model_info", .string Redaction.marker),
    ("operation", .string operation)]

theorem value_context (r : Request) :
    Redaction.value r.context = contextFor r.browserEnabled := by
  have hconfiguration : Redaction.isSensitive "configuration" = true := by decide
  have hmodelInfo : Redaction.isSensitive "model_info" = true := by decide
  have hbrowser : Redaction.isSensitive "browser_enabled" = false := by decide
  have hoperation : Redaction.isSensitive "operation" = false := by decide
  simp [context, contextFor, Redaction.value, Redaction.redactedMembers, hconfiguration,
    hmodelInfo, hbrowser, hoperation]

theorem render_contextFor_inj {a b : Bool}
    (h : (contextFor a).render = (contextFor b).render) : a = b := by
  have hdiffer : (contextFor true).render ≠ (contextFor false).render := by decide +kernel
  cases a <;> cases b
  · rfl
  · exact absurd h.symm hdiffer
  · exact absurd h hdiffer
  · rfl

/-- The context that is logged tells two requests apart only by their
flags. -/
theorem contextText_eq_iff : r.contextText = r'.contextText ↔
    r.browserEnabled = r'.browserEnabled := by
  rw [contextText, contextText, value_context, value_context]
  constructor
  · intro h
    exact render_contextFor_inj h
  · intro h
    rw [h]

/-- And so does the line that is logged of a failure. -/
theorem failureLine_eq_iff (e : Error) : r.failureLine e = r'.failureLine e ↔
    r.browserEnabled = r'.browserEnabled := by
  rw [← contextText_eq_iff]
  constructor
  · intro h
    have hfields := congrArg LogLine.fields h
    simpa [failureLine] using hfields
  · intro h
    simp only [failureLine, h]

end Request

namespace Redaction

/-- **Redaction is exact.** Two values are redacted to the same exactly if
they are alike but for what sensitive members hold, at any depth; a value is
redacted to the one value that is like it and holds the marker in every
sensitive member, so nothing else is lost or altered; and redacting again
changes nothing. No item and no member is dropped. What is logged of a
request that fails depends on the request through the flag of the browser
alone. -/
theorem redaction_is_exact :
    (∀ v w, value v = value w ↔ Alike Disregarded v w) ∧
    (∀ v w, value v = w ↔ Alike Replaced v w) ∧
    (∀ v, value (value v) = value v) ∧
    (∀ vs, (values vs).length = vs.length) ∧
    (∀ ms, (redactedMembers ms).map (·.1) = ms.map (·.1)) ∧
    (∀ r : Request, value r.context = Request.contextFor r.browserEnabled) ∧
    ∀ (r r' : Request) (e : Error), r.failureLine e = r'.failureLine e ↔
      r.browserEnabled = r'.browserEnabled := by
  refine ⟨fun v w => ⟨alike_of_value_eq, value_eq_of_alike⟩, ?_, value_value, length_values,
    names_redactedMembers, Request.value_context, fun r r' => Request.failureLine_eq_iff⟩
  intro v w
  constructor
  · rintro rfl
    exact alike_value v
  · intro h
    exact value_eq_of_replaced h

/-- What stands below a sensitive name is not looked at, and what stands
beside it is kept. -/
example : value
    (.array [.object [("key", .array [.null]), ("n", .object [("key", .string "[REDACTED]")])]]) =
      .array [.object [("key", .string "[REDACTED]"),
        ("n", .object [("key", .string "[REDACTED]")])]] := rfl

end Redaction

end CapabilityBroker
