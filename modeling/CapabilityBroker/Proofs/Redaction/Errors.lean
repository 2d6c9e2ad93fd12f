import CapabilityBroker.Retry.Basic
import CapabilityBroker.Service.Events
/-!
# What redaction keeps of an error

An error has a shape, which is all of it but for the text it was made with
(`Error.shape`). A redacted error ends with what is left over of that text
(`error_eq_append`): nothing where redaction replaces it, and its letters,
digits and spaces where it is only sanitized. Its shape decides the rest, so
two errors of one shape are redacted to the same exactly if they leave the
same over (`error_eq_iff`). A transient error leaves nothing over, and the
lines of the retry loop tell of no others.
-/

namespace CapabilityBroker

/-! ## Shapes -/

/-- A redacted identifier is redacted. -/
@[simp] theorem Redaction.identifier_identifier (s : String) :
    identifier (identifier s) = identifier s := by
  unfold identifier
  split
  · rfl
  · rfl

namespace Error

/-- The shape of an error: all of it but for the text that it was made
with. Whether there was any text stays to be seen. -/
def shape : Error → Error
  | validation field reason => validation field (Redaction.identifier reason)
  | capability m => capability (Redaction.identifier m)
  | invalidModel m => invalidModel (Redaction.identifier m)
  | invalidCapability m => invalidCapability (Redaction.identifier m)
  | configuration m => configuration (Redaction.identifier m)
  | json m => json (Redaction.identifier m)
  | telemetry m => telemetry (Redaction.identifier m)
  | memorySample m => memorySample (Redaction.identifier m)
  | retryExhausted attempts source => retryExhausted attempts source.shape
  | e => e

/-- Two errors that differ in their texts at most. -/
def SameShape (e e' : Error) : Prop := e.shape = e'.shape

variable {e e' : Error}

@[simp] theorem code_shape (e : Error) : e.shape.code = e.code := by
  cases e <;> rfl

@[simp] theorem isRetryable_shape (e : Error) : e.shape.isRetryable = e.isRetryable := by
  cases e <;> rfl

@[simp] theorem root_shape (e : Error) : e.shape.root = e.root.shape := by
  induction e with
  | retryExhausted _ source ih => exact ih
  | _ => rfl

theorem shape_eq_disposed_iff : e.shape = disposed ↔ e = disposed := by
  cases e <;> simp [shape]

namespace SameShape

theorem code_eq (h : SameShape e e') : e.code = e'.code := by
  rw [← code_shape e, h, code_shape]

theorem isRetryable_eq (h : SameShape e e') : e.isRetryable = e'.isRetryable := by
  rw [← isRetryable_shape e, h, isRetryable_shape]

theorem root (h : SameShape e e') : SameShape e.root e'.root := by
  rw [SameShape, ← root_shape, h, root_shape]

theorem disposed_iff (h : SameShape e e') : e = disposed ↔ e' = disposed := by
  rw [← shape_eq_disposed_iff, h, shape_eq_disposed_iff]

end SameShape

/-! ## What is left over -/

/-- Whether redaction only sanitizes the text of an error, and there is
some. -/
def repeats : Error → Bool
  | validation _ m | configuration m | json m | telemetry m | memorySample m => m ≠ ""
  | retryExhausted _ source => source.repeats
  | _ => false

/-- An error without such text. -/
def emptied : Error → Error
  | validation field _ => validation field ""
  | configuration _ => configuration ""
  | json _ => json ""
  | telemetry _ => telemetry ""
  | memorySample _ => memorySample ""
  | retryExhausted attempts source => retryExhausted attempts source.emptied
  | e => e

/-- An error with a letter more in such text. -/
def lengthened : Error → Error
  | validation field reason => validation field (reason ++ "a")
  | configuration m => configuration (m ++ "a")
  | json m => json (m ++ "a")
  | telemetry m => telemetry (m ++ "a")
  | memorySample m => memorySample (m ++ "a")
  | retryExhausted attempts source => retryExhausted attempts source.lengthened
  | e => e

/-- Where there is some text, a letter more does not show in the shape. -/
theorem shape_lengthened (h : e.repeats = true) : SameShape e.lengthened e := by
  have hmore (m : String) (hm : m ≠ "") :
      Redaction.identifier (m ++ "a") = Redaction.identifier m := by
    simp [Redaction.identifier, hm]
  unfold SameShape
  induction e with
  | retryExhausted attempts source ih => rw [lengthened, shape, shape, ih h]
  | validation _ m | configuration m | json m | telemetry m | memorySample m =>
    simp only [repeats, decide_eq_true_eq] at h
    simp only [lengthened, shape, hmore m h]
  | _ => rfl

/-- A transient error is replaced. -/
theorem repeats_of_isRetryable (h : e.isRetryable = true) : e.repeats = false := by
  cases e <;> first | rfl | cases h

@[simp] theorem sanitize_append (s t : String) : sanitize (s ++ t) = sanitize s ++ sanitize t := by
  rw [sanitize, String.toList_append, List.filter_append, String.ofList_append]
  rfl

end Error

namespace Redaction

/-! ## A redacted error -/

/-- What is left over of the text of an error. -/
def leftover : Error → String
  | .validation _ m | .configuration m | .json m | .telemetry m | .memorySample m =>
    Error.sanitize m
  | .retryExhausted _ source => leftover source
  | _ => ""

variable {e e' : Error}

theorem error_retryExhausted (attempts : Nat) (source : Error) :
    error (.retryExhausted attempts source) =
      "failed after " ++ toString attempts ++ " attempts " ++ error source := rfl

/-- **A redacted error** is what it is without its text, and then what is
left over of that. -/
theorem error_eq_append (e : Error) : error e = error e.emptied ++ leftover e := by
  -- sanitizing goes letter by letter, so what it keeps of a text stands apart
  have hsanitized (what text : String) :
      Error.sanitize (what ++ text) = Error.sanitize (what ++ "") ++ Error.sanitize text := by
    rw [Error.sanitize_append, String.append_empty]
  induction e with
  | retryExhausted attempts source ih =>
    rw [error_retryExhausted, Error.emptied, error_retryExhausted, leftover, ih]
    exact String.append_assoc.symm
  | validation _ m | configuration m | json m | telemetry m | memorySample m =>
    exact hsanitized _ m
  | _ => exact String.append_empty.symm

theorem error_emptied_shape (e : Error) : error e.shape.emptied = error e.emptied := by
  induction e with
  | retryExhausted attempts source ih =>
    rw [Error.shape, Error.emptied, Error.emptied, error_retryExhausted, error_retryExhausted, ih]
  | capability m | invalidModel m | invalidCapability m =>
    exact congrArg (_ ++ ·) (identifier_identifier m)
  | _ => rfl

theorem error_emptied_eq (h : e.SameShape e') : error e.emptied = error e'.emptied := by
  rw [← error_emptied_shape e, h, error_emptied_shape]

/-- **Errors of one shape** are redacted to the same exactly if they leave
the same over. -/
theorem error_eq_iff (h : e.SameShape e') : error e = error e' ↔ leftover e = leftover e' := by
  rw [error_eq_append e, error_eq_append e', error_emptied_eq h]
  exact String.append_right_inj _

theorem leftover_of_not_repeats (h : e.repeats = false) : leftover e = "" := by
  induction e with
  | retryExhausted _ source ih => exact ih h
  | validation _ m | configuration m | json m | telemetry m | memorySample m =>
    obtain rfl : m = "" := by simpa [Error.repeats] using h
    rfl
  | _ => rfl

theorem leftover_lengthened (h : e.repeats = true) :
    leftover e.lengthened = leftover e ++ "a" := by
  have hletter : Error.sanitize "a" = "a" := by decide
  induction e with
  | retryExhausted _ source ih => exact ih h
  | validation | configuration | json | telemetry | memorySample =>
    simp only [Error.lengthened, leftover, Error.sanitize_append, hletter]
  | _ => cases h

/-- A shape without text to be sanitized is that of no error with some. -/
theorem repeats_eq (h : e.SameShape e') : e.repeats = e'.repeats := by
  have hshape (e : Error) : e.shape.repeats = e.repeats := by
    induction e with
    | retryExhausted _ source ih => exact ih
    | validation _ m | configuration m | json m | telemetry m | memorySample m =>
      by_cases hm : m = "" <;> simp [Error.shape, Error.repeats, identifier, marker, hm]
    | _ => rfl
  rw [← hshape e, h, hshape]

/-- **When the text of an error cannot be told** from what it is redacted
to: exactly if there is none, or it is replaced. -/
theorem determined_iff : (∀ e', e'.SameShape e → error e' = error e) ↔ e.repeats = false := by
  constructor
  · intro hsame
    cases hrepeats : e.repeats with
    | false => rfl
    | true =>
      have hshape := Error.shape_lengthened hrepeats
      have hleft := (error_eq_iff hshape).mp (hsame _ hshape)
      rw [leftover_lengthened hrepeats] at hleft
      simp at hleft
  · intro hrepeats e' hshape
    rw [error_eq_iff hshape, leftover_of_not_repeats hrepeats,
      leftover_of_not_repeats ((repeats_eq hshape).trans hrepeats)]

theorem error_eq_of_isRetryable (h : e.SameShape e') (hretryable : e.isRetryable = true) :
    error e = error e' :=
  (determined_iff.mpr (Error.repeats_of_isRetryable (h.isRetryable_eq ▸ hretryable)) e h)

end Redaction

/-! ## The lines that tell of errors -/

/-- The lines of the retry loop. -/
theorem RetryPolicy.signals_eq {e e' : Error} (h : e.SameShape e')
    (hretryable : e.isRetryable = true) (p : RetryPolicy) (operation : String)
    (attempt delay : Nat) :
    p.signals operation attempt delay e = p.signals operation attempt delay e' := by
  simp only [signals, h.code_eq, Redaction.error_eq_of_isRetryable h hretryable]

/-- The event that a request failed. -/
theorem TelemetryEvent.failed_eq {e e' : Error} (h : e.SameShape e') (browserEnabled : Bool) :
    failed e browserEnabled = failed e' browserEnabled := by
  simp only [failed, h.code_eq, h.isRetryable_eq]

/-- Whether the caller is to blame shows in the shape. -/
theorem Request.failureLine_eq_of_shape (r : Request) (e : Error) :
    r.failureLine e = { r.failureLine e.shape with
      fields := [("code", .text e.code), ("error", .text (Redaction.error e)),
        ("context", .text r.contextText)] } := by
  cases e <;> rfl

/-- The line of a request that failed. -/
theorem Request.failureLine_eq_iff_leftover {e e' : Error} (h : e.SameShape e') (r : Request) :
    r.failureLine e = r.failureLine e' ↔ Redaction.leftover e = Redaction.leftover e' := by
  rw [← Redaction.error_eq_iff h]
  constructor
  · intro hline
    have hfields := congrArg LogLine.fields hline
    simpa [failureLine, h.code_eq] using hfields
  · intro herror
    rw [failureLine_eq_of_shape r e, failureLine_eq_of_shape r e', h, h.code_eq, herror]

end CapabilityBroker
