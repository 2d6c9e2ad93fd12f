import CapabilityBroker.Files.Tree
import CapabilityBroker.Service.Settings
import CapabilityBroker.Text.Quoted
import CapabilityBroker.Toml.Reader
/-!
# Settings files

The settings of a service as a TOML document: one table for each part of
them, in which every key may be missing and no other may stand. Times are
whole milliseconds; a limit in time of zero is no limit. The document is
looked for at a given path, or else in the home directory of the user.
-/

namespace CapabilityBroker

namespace SettingsFile

/-! ## The tables -/

/-- The `retry` table. -/
structure RetryTable where
  maxRetries : Nat := 2
  initialDelayMs : Nat := 1000
  backoffFactor : Float := 2.0
  maxDelayMs : Nat := 30000
  jitter : Bool := true
  attemptTimeoutMs : Nat := 5000
  deriving BEq

/-- The `cache` table. -/
structure CacheTable where
  maxEntries : Nat := 100
  maxBytes : Nat := 10 * 1024 * 1024
  ttlMs : Nat := 3600000
  reductionThreshold : Nat := 90
  reductionRatio : Nat := 70
  deriving BEq

/-- The `rate_limit` table. -/
structure RateLimitTable where
  capacity : Nat := 100
  windowMs : Nat := 60000
  deriving BEq

/-- The `breaker` table. -/
structure BreakerTable where
  failureThreshold : Nat := 5
  resetTimeoutMs : Nat := 30000
  deriving BEq

/-- The `validation` table. -/
structure ValidationTable where
  maxPayloadBytes : Nat := 100 * 1024
  maxIdentifierLength : Nat := 256
  deriving BEq

/-- The `memory` table. -/
structure MemoryTable where
  sampleIntervalMs : Nat := 5000
  elevatedThreshold : Float := 0.70
  criticalThreshold : Float := 0.90
  minReclaimIntervalMs : Nat := 60000
  deriving BEq

/-- The `service` table. -/
structure ServiceTable where
  lockTimeoutMs : Nat := 10000
  sweepIntervalMs : Nat := 300000
  sampleRate : Float := 0.1
  deriving BEq

end SettingsFile

/-- What a settings file says. -/
structure SettingsFile where
  retry : SettingsFile.RetryTable := {}
  cache : SettingsFile.CacheTable := {}
  rateLimit : SettingsFile.RateLimitTable := {}
  breaker : SettingsFile.BreakerTable := {}
  validation : SettingsFile.ValidationTable := {}
  memory : SettingsFile.MemoryTable := {}
  service : SettingsFile.ServiceTable := {}
  deriving BEq

namespace SettingsFile

/-! ## Reading the tables -/

/-- A field that is a natural number below a bound. -/
def natField (bound default : Nat) : Option Toml → Option Nat :=
  Toml.field? (Toml.nat? (bound - 1)) default

/-- A field that is a number. -/
def numberField : Float → Option Toml → Option Float := Toml.field? Toml.number?

/-- The `retry` table that a value is. -/
def RetryTable.ofToml? (v : Toml) : Option RetryTable := do
  let base : RetryTable := {}
  match ← v.record? ["max_retries", "initial_delay_ms", "backoff_factor", "max_delay_ms",
    "jitter", "attempt_timeout_ms"] with
  | [retries, initial, factor, limit, jitter, timeout] =>
    return ⟨← natField UInt32.size base.maxRetries retries,
      ← natField UInt64.size base.initialDelayMs initial,
      ← numberField base.backoffFactor factor,
      ← natField UInt64.size base.maxDelayMs limit,
      ← Toml.field? Toml.boolean? base.jitter jitter,
      ← natField UInt64.size base.attemptTimeoutMs timeout⟩
  | _ => none

/-- The `cache` table that a value is. -/
def CacheTable.ofToml? (v : Toml) : Option CacheTable := do
  let base : CacheTable := {}
  match ← v.record? ["max_entries", "max_bytes", "ttl_ms", "reduction_threshold",
    "reduction_ratio"] with
  | [entries, bytes, ttl, threshold, ratio] =>
    return ⟨← natField UInt64.size base.maxEntries entries,
      ← natField UInt64.size base.maxBytes bytes,
      ← natField UInt64.size base.ttlMs ttl,
      ← natField UInt8.size base.reductionThreshold threshold,
      ← natField UInt8.size base.reductionRatio ratio⟩
  | _ => none

/-- The `rate_limit` table that a value is. -/
def RateLimitTable.ofToml? (v : Toml) : Option RateLimitTable := do
  let base : RateLimitTable := {}
  match ← v.record? ["capacity", "window_ms"] with
  | [capacity, window] =>
    return ⟨← natField UInt32.size base.capacity capacity,
      ← natField UInt64.size base.windowMs window⟩
  | _ => none

/-- The `breaker` table that a value is. -/
def BreakerTable.ofToml? (v : Toml) : Option BreakerTable := do
  let base : BreakerTable := {}
  match ← v.record? ["failure_threshold", "reset_timeout_ms"] with
  | [threshold, timeout] =>
    return ⟨← natField UInt32.size base.failureThreshold threshold,
      ← natField UInt64.size base.resetTimeoutMs timeout⟩
  | _ => none

/-- The `validation` table that a value is. -/
def ValidationTable.ofToml? (v : Toml) : Option ValidationTable := do
  let base : ValidationTable := {}
  match ← v.record? ["max_payload_bytes", "max_identifier_len"] with
  | [payload, identifier] =>
    return ⟨← natField UInt64.size base.maxPayloadBytes payload,
      ← natField UInt64.size base.maxIdentifierLength identifier⟩
  | _ => none

/-- The `memory` table that a value is. -/
def MemoryTable.ofToml? (v : Toml) : Option MemoryTable := do
  let base : MemoryTable := {}
  match ← v.record? ["sample_interval_ms", "elevated_threshold", "critical_threshold",
    "min_reclaim_interval_ms"] with
  | [interval, elevated, critical, reclaim] =>
    return ⟨← natField UInt64.size base.sampleIntervalMs interval,
      ← numberField base.elevatedThreshold elevated,
      ← numberField base.criticalThreshold critical,
      ← natField UInt64.size base.minReclaimIntervalMs reclaim⟩
  | _ => none

/-- The `service` table that a value is. -/
def ServiceTable.ofToml? (v : Toml) : Option ServiceTable := do
  let base : ServiceTable := {}
  match ← v.record? ["lock_timeout_ms", "sweep_interval_ms", "performance_sample_rate"] with
  | [lock, sweep, rate] =>
    return ⟨← natField UInt64.size base.lockTimeoutMs lock,
      ← natField UInt64.size base.sweepIntervalMs sweep,
      ← numberField base.sampleRate rate⟩
  | _ => none

/-- The settings that a document says. -/
def ofToml? (v : Toml) : Option SettingsFile := do
  match ← v.record? ["retry", "cache", "rate_limit", "breaker", "validation", "memory",
    "service"] with
  | [retry, cache, rateLimit, breaker, validation, memory, service] =>
    return ⟨← Toml.field? RetryTable.ofToml? {} retry, ← Toml.field? CacheTable.ofToml? {} cache,
      ← Toml.field? RateLimitTable.ofToml? {} rateLimit,
      ← Toml.field? BreakerTable.ofToml? {} breaker,
      ← Toml.field? ValidationTable.ofToml? {} validation,
      ← Toml.field? MemoryTable.ofToml? {} memory, ← Toml.field? ServiceTable.ofToml? {} service⟩
  | _ => none

/-- The settings that a text says. -/
def ofText? (text : String) : Option SettingsFile := do ofToml? (← Toml.ofString? text)

/-- Whether nothing differs from what is true without a file. -/
def isDefault (f : SettingsFile) : Bool := f == {}

/-! ## The settings -/

/-- A limit in time; zero milliseconds are none. -/
def limitOf (ms : Nat) : Option Nat := if ms = 0 then none else some (Duration.ofMillis ms)

/-- The settings that a file makes. -/
def settings (f : SettingsFile) : ServiceSettings where
  retry := ⟨f.retry.maxRetries, Duration.ofMillis f.retry.initialDelayMs, f.retry.backoffFactor,
    Duration.ofMillis f.retry.maxDelayMs, f.retry.jitter, limitOf f.retry.attemptTimeoutMs⟩
  cache := ⟨f.cache.maxEntries, f.cache.maxBytes, Duration.ofMillis f.cache.ttlMs,
    f.cache.reductionThreshold, f.cache.reductionRatio⟩
  rateLimit := ⟨f.rateLimit.capacity, Duration.ofMillis f.rateLimit.windowMs⟩
  breaker := ⟨f.breaker.failureThreshold, Duration.ofMillis f.breaker.resetTimeoutMs⟩
  validation := ⟨f.validation.maxPayloadBytes, f.validation.maxIdentifierLength⟩
  memory := ⟨Duration.ofMillis f.memory.sampleIntervalMs, f.memory.elevatedThreshold,
    f.memory.criticalThreshold, Duration.ofMillis f.memory.minReclaimIntervalMs⟩
  lockTimeout := limitOf f.service.lockTimeoutMs
  sweepInterval := Duration.ofMillis f.service.sweepIntervalMs
  sampleRate := f.service.sampleRate

/-- The settings that a file makes, if they are usable. -/
def settings? (f : SettingsFile) : Except Error ServiceSettings :=
  f.settings.check.map fun _ => f.settings

/-! ## Finding the file -/

/-- Where the file of a user is, from the home directory. -/
def userPath (home : String) : String := home ++ "/.huginn/config.toml"

/-- The error that a path does not lead to a file. -/
def notFound (path : String) : Error :=
  .configuration ("Config file not found: " ++ Text.quoted path)

/-- The path of the file to read, if there is one. A path that is given
has to lead somewhere. -/
def locate (tree : FileTree) (home : String) : Option String → Except Error (Option String)
  | some path => if (tree.nodeAt? path).isSome then .ok (some path) else .error (notFound path)
  | none =>
    let path := userPath home
    if (tree.nodeAt? path).isSome then .ok (some path) else .ok none

/-- The error that a text is no settings file. -/
def notParsed : Error := .configuration "Failed to parse config"

/-- The error that a file is no settings file. -/
def fileNotParsed (path : String) : Error :=
  .configuration ("Failed to parse config file " ++ Text.quoted path)

/-- The error that a file cannot be read. -/
def notRead (path reason : String) : Error :=
  .configuration ("Failed to read config file " ++ Text.quoted path ++ ": " ++ reason)

/-- The settings that a text says, or the error that it says none. -/
def parse (text : String) : Except Error SettingsFile :=
  match ofText? text with
  | some f => .ok f
  | none => .error notParsed

/-- The settings file at a path. -/
def read (tree : FileTree) (path : String) : Except Error SettingsFile :=
  match tree.nodeAt? path with
  | some (.text content) =>
    match ofText? content with
    | some f => .ok f
    | none => .error (fileNotParsed path)
  | some .binary => .error (notRead path "stream did not contain valid UTF-8")
  | some .directory => .error (notRead path "Is a directory (os error 21)")
  | none => .error (notRead path "No such file or directory (os error 2)")

/-- The settings file that is found. Without one, nothing differs from
what is true without a file. -/
def load (tree : FileTree) (home : String) (explicit : Option String) :
    Except Error SettingsFile :=
  match locate tree home explicit with
  | .error e => .error e
  | .ok none => .ok {}
  | .ok (some path) => read tree path

/-- A file that says nothing makes the settings that nobody changed. -/
example : (({} : SettingsFile).settings == {}) = true := by decide +kernel

end SettingsFile

end CapabilityBroker
