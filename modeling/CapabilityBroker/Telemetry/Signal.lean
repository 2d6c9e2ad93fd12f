import CapabilityBroker.Json.Basic
/-!
# What is reported

The three channels on which the library tells what it does: lines of a
log, metrics, and events for a sink that the host supplies. All three are
plain data; an operation returns what it reports beside its result.
-/

namespace CapabilityBroker

/-- How serious a line of the log is. -/
inductive LogLevel where
  | error
  | warn
  | info
  | debug
  deriving DecidableEq, Repr

/-- The value of a field of a line. -/
inductive LogValue where
  | nat (n : Nat)
  | bool (b : Bool)
  | text (s : String)
  | float (x : Float)

/-- A line of the log: its level, its message and its named fields. -/
structure LogLine where
  level : LogLevel
  message : String
  fields : List (String × LogValue)

/-- A counter, given by its name and the one label it may have. -/
structure Counter where
  name : String
  label : Option (String × String) := none
  deriving DecidableEq, Repr

/-- An event for the sink, with flat attributes. -/
structure TelemetryEvent where
  name : String
  attributes : List (String × Json)

/-- One report. -/
inductive Signal where
  /-- A line is logged. -/
  | log (line : LogLine)
  /-- A counter goes up by one. -/
  | count (counter : Counter)
  /-- The duration of a request is recorded, in seconds. -/
  | duration (seconds : Float)
  /-- An event is handed to the sink. -/
  | event (e : TelemetryEvent)

namespace LogLevel

/-- The spelling of a level. -/
def name : LogLevel → String
  | error => "ERROR"
  | warn => "WARN"
  | info => "INFO"
  | debug => "DEBUG"

end LogLevel

namespace Counter

/-- Answered requests, by how they were answered. -/
def requests (status : String) : Counter := ⟨"huginn_requests_total", some ("status", status)⟩

/-- Attempts after the first, by operation. -/
def retries (operation : String) : Counter :=
  ⟨"huginn_retries_total", some ("operation", operation)⟩

/-- Lookups that the cache answered. -/
def cacheHits : Counter := ⟨"huginn_cache_hits_total", none⟩

/-- Lookups that the cache did not answer. -/
def cacheMisses : Counter := ⟨"huginn_cache_misses_total", none⟩

/-- Entries the cache gave up, by reason. -/
def cacheEvictions (reason : String) : Counter :=
  ⟨"huginn_cache_evictions_total", some ("reason", reason)⟩

/-- Requests that the rate limit refused. -/
def rateLimited : Counter := ⟨"huginn_rate_limited_total", none⟩

/-- Changes of the circuit, by the state they lead to. -/
def circuitTransitions (state : String) : Counter :=
  ⟨"huginn_circuit_transitions_total", some ("to", state)⟩

/-- Changes of the memory pressure, by the level they lead to. -/
def memoryPressure (level : String) : Counter :=
  ⟨"huginn_memory_pressure_total", some ("level", level)⟩

/-- A counter as metrics show it: the name, and the label in braces. -/
def text (c : Counter) : String :=
  match c.label with
  | none => c.name
  | some (label, value) => c.name ++ "\x7b" ++ label ++ "=" ++ value ++ "\x7d"

end Counter

/-- The name under which the durations of requests are recorded. -/
def durationMetric : String := "huginn_determine_duration_seconds"

namespace Signal

/-- The counters that go up, in order. -/
def counters (signals : List Signal) : List Counter :=
  signals.filterMap fun
    | .count c => some c
    | _ => none

/-- The durations that are recorded, in order. -/
def durations (signals : List Signal) : List Float :=
  signals.filterMap fun
    | .duration x => some x
    | _ => none

/-- The lines that are logged, in order. -/
def lines (signals : List Signal) : List LogLine :=
  signals.filterMap fun
    | .log l => some l
    | _ => none

/-- The events that the sink is handed, in order. -/
def events (signals : List Signal) : List TelemetryEvent :=
  signals.filterMap fun
    | .event e => some e
    | _ => none

end Signal

end CapabilityBroker
