import CapabilityBroker.Time.Duration
/-!
# Errors

Everything that can go wrong, by cause. An error has a code for programs
and a message for people, and it is either transient, so that trying
again may help, or permanent.
-/

namespace CapabilityBroker

/-- Why a request, a call or a set-up failed. -/
inductive Error where
  /-- A field of a request is not acceptable. -/
  | validation (field reason : String)
  /-- The rate limit is used up; a token may be there after the span. -/
  | rateLimited (retryAfter : Option Nat)
  /-- An attempt at an operation took longer than it may. -/
  | timeout (operation : String) (after : Nat)
  /-- The lock was not free in time. -/
  | lockTimeout (after : Nat)
  /-- A resolver failed. -/
  | capability (message : String)
  /-- A model is not known. -/
  | invalidModel (message : String)
  /-- A capability is not known. -/
  | invalidCapability (message : String)
  /-- The circuit is open, and the resolver was not called. -/
  | serviceUnavailable
  /-- The service was shut down. -/
  | disposed
  /-- Every attempt failed, the last one with the given error. -/
  | retryExhausted (attempts : Nat) (source : Error)
  /-- A setting is not usable. -/
  | configuration (message : String)
  /-- A JSON text is not well formed. -/
  | json (message : String)
  /-- A sink of telemetry failed. -/
  | telemetry (message : String)
  /-- The memory could not be sampled. -/
  | memorySample (message : String)
  deriving DecidableEq, Repr

namespace Error

/-- The code of an error. -/
def code : Error → String
  | validation .. => "VALIDATION_ERROR"
  | rateLimited _ => "RATE_LIMIT_ERROR"
  | timeout .. => "TIMEOUT_ERROR"
  | lockTimeout _ => "LOCK_TIMEOUT_ERROR"
  | capability _ => "CAPABILITY_ERROR"
  | invalidModel _ => "INVALID_MODEL"
  | invalidCapability _ => "INVALID_CAPABILITY"
  | serviceUnavailable => "SERVICE_UNAVAILABLE"
  | disposed => "SERVICE_DISPOSED"
  | retryExhausted .. => "RETRY_EXHAUSTED"
  | configuration _ => "CONFIGURATION_ERROR"
  | json _ => "JSON_ERROR"
  | telemetry _ => "TELEMETRY_ERROR"
  | memorySample _ => "MEMORY_SAMPLE_ERROR"

/-- The message of an error. -/
def message : Error → String
  | validation field reason => "invalid " ++ field ++ ": " ++ reason
  | rateLimited retryAfter =>
    "rate limit exceeded, retry after " ++ Duration.optionText retryAfter
  | timeout operation after => operation ++ " timed out after " ++ Duration.text after
  | lockTimeout after => "lock acquisition timed out after " ++ Duration.text after
  | capability m => "capability error: " ++ m
  | invalidModel m => "invalid model: " ++ m
  | invalidCapability m => "invalid capability: " ++ m
  | serviceUnavailable => "service temporarily unavailable"
  | disposed => "service has been disposed"
  | retryExhausted attempts source =>
    "operation failed after " ++ toString attempts ++ " attempts: " ++ source.message
  | configuration m => "configuration error: " ++ m
  | json m => "JSON error: " ++ m
  | telemetry m => "telemetry error: " ++ m
  | memorySample m => "memory sampling failed: " ++ m

/-- Whether trying again may help: timeouts and failures of the resolver
are transient, and everything else is permanent. -/
def isRetryable : Error → Bool
  | timeout .. | lockTimeout _ | capability _ | invalidModel _ | invalidCapability _ => true
  | _ => false

/-- The wait that an error suggests. -/
def retryAfter : Error → Option Nat
  | rateLimited after => after
  | _ => none

/-- An error without the wrappings that count its attempts. -/
def root : Error → Error
  | retryExhausted _ source => source.root
  | e => e

/-- Whether a character survives in a sanitized message. -/
def isPlain (c : Char) : Bool := c.isAlphanum || c = ' '

/-- A message reduced to ASCII letters, digits and spaces. -/
def sanitize (s : String) : String := String.ofList (s.toList.filter isPlain)

/-- The message of an error, reduced to ASCII letters, digits and spaces. -/
def sanitized (e : Error) : String := sanitize e.message

/-- No wrapping is left at the root. -/
theorem root_ne_retryExhausted (e : Error) (n : Nat) (s : Error) :
    e.root ≠ retryExhausted n s := by
  induction e with
  | retryExhausted _ source ih => simpa [root] using ih
  | _ => simp [root]

/-- The root of a root is the root. -/
@[simp] theorem root_root (e : Error) : e.root.root = e.root := by
  induction e with
  | retryExhausted _ source ih => simpa [root] using ih
  | _ => rfl

end Error

end CapabilityBroker
