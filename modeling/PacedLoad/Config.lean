import PacedLoad.Delay
import PacedLoad.Json.Record
import PacedLoad.Stats.Service
import PacedLoad.Watermark.Service

/-!
# The configuration of a run

A JSON record in which every field has a default.
-/

namespace PacedLoad

open Json

inductive DelayRule
  | permissive | logging | strict
deriving DecidableEq, Repr

def DelayRule.names : List (String × DelayRule) :=
  [("permissive", .permissive), ("logging", .logging), ("strict", .strict)]

def DelayRule.name : DelayRule → String
  | .permissive => "permissive"
  | .logging => "logging"
  | .strict => "strict"

structure Config where
  /-- Size of the handler pool, and number of writers. -/
  threadCount : Nat
  peerIds : List String
  toleratedDelayMs : Nat
  delayPolicy : DelayRule
  recordStartDelay : Bool
  spinnerSleepMs : Nat
  pollIntervalMs : Nat
  registrationTimeoutMs : Nat
  shutdownTimeoutMs : Nat
  /-- Path of the log of results. -/
  resultsLog : Option String
  resultsLogDelimiter : String
  /-- Path of the final snapshot. -/
  resultsJson : Option String
  maxInFlightOperations : Nat
  abortOnFailure : Bool
  /-- Zero stands for no status lines. -/
  statusIntervalMs : Nat
deriving DecidableEq, Repr

inductive ConfigError
  | file (path text : String)
  | parse
  | invalid (what : String)
deriving DecidableEq, Repr

def ConfigError.message : ConfigError → String
  | .file path text => s!"Failed to read config file '{path}': {text}"
  | .parse => "Failed to parse config"
  | .invalid what => s!"Invalid config: {what}"

def firstRepeated : List String → List String → Option String
  | _, [] => none
  | seen, x :: rest => if seen.contains x then some x else firstRepeated (x :: seen) rest

namespace Config

def standard : Config where
  threadCount := 4
  peerIds := []
  toleratedDelayMs := 100
  delayPolicy := .logging
  recordStartDelay := true
  spinnerSleepMs := 1
  pollIntervalMs := 100
  registrationTimeoutMs := 2000
  shutdownTimeoutMs := 5000
  resultsLog := none
  resultsLogDelimiter := "|"
  resultsJson := none
  maxInFlightOperations := 1000
  abortOnFailure := true
  statusIntervalMs := 0

def fieldNames : List String :=
  ["thread_count", "peer_ids", "tolerated_delay_ms", "delay_policy", "record_start_delay",
    "spinner_sleep_ms", "poll_interval_ms", "registration_timeout_ms", "shutdown_timeout_ms",
    "results_log", "results_log_delimiter", "results_json", "max_in_flight_operations",
    "abort_on_failure", "status_interval_ms"]

def toJson (c : Config) : Value :=
  .object (fieldNames.zip [.nat c.threadCount, .array (c.peerIds.map .string),
    .nat c.toleratedDelayMs, .string c.delayPolicy.name, .bool c.recordStartDelay,
    .nat c.spinnerSleepMs, .nat c.pollIntervalMs, .nat c.registrationTimeoutMs,
    .nat c.shutdownTimeoutMs, Value.ofOption .string c.resultsLog, .string c.resultsLogDelimiter,
    Value.ofOption .string c.resultsJson, .nat c.maxInFlightOperations, .bool c.abortOnFailure,
    .nat c.statusIntervalMs])

/-- A configuration; a field that is absent has its standard value. -/
def decode : Decoder Config := fun room tree => do
  let r ← Record.ofTree? fieldNames room tree
  let number (name : String) (d : Nat) := r.withDefault name d (Decode.natural 64)
  let flag (name : String) (d : Bool) := r.withDefault name d Decode.boolean
  let path (name : String) := r.withDefault name none (nullable Decode.string)
  return {
    threadCount := ← number "thread_count" standard.threadCount
    peerIds := ← r.withDefault "peer_ids" standard.peerIds (Decode.list Decode.string)
    toleratedDelayMs := ← number "tolerated_delay_ms" standard.toleratedDelayMs
    delayPolicy :=
      ← r.withDefault "delay_policy" standard.delayPolicy (Decode.choice DelayRule.names)
    recordStartDelay := ← flag "record_start_delay" standard.recordStartDelay
    spinnerSleepMs := ← number "spinner_sleep_ms" standard.spinnerSleepMs
    pollIntervalMs := ← number "poll_interval_ms" standard.pollIntervalMs
    registrationTimeoutMs := ← number "registration_timeout_ms" standard.registrationTimeoutMs
    shutdownTimeoutMs := ← number "shutdown_timeout_ms" standard.shutdownTimeoutMs
    resultsLog := ← path "results_log"
    resultsLogDelimiter :=
      ← r.withDefault "results_log_delimiter" standard.resultsLogDelimiter Decode.string
    resultsJson := ← path "results_json"
    maxInFlightOperations := ← number "max_in_flight_operations" standard.maxInFlightOperations
    abortOnFailure := ← flag "abort_on_failure" standard.abortOnFailure
    statusIntervalMs := ← number "status_interval_ms" standard.statusIntervalMs }

def ofText (text : String) : Except ConfigError Config :=
  match Decoder.ofText? decode text with
  | some c => .ok c
  | none => .error .parse

/-- Whether a run can be carried out so.  Of several faults the first is named. -/
def validate (c : Config) : Except ConfigError Unit :=
  if c.threadCount = 0 then .error (.invalid "thread_count must be at least 1")
  else if c.maxInFlightOperations < c.threadCount then
    .error (.invalid (s!"max_in_flight_operations ({c.maxInFlightOperations}) must be at least " ++
      s!"thread_count ({c.threadCount})"))
  else if c.pollIntervalMs = 0 then .error (.invalid "poll_interval_ms must be at least 1")
  else if c.resultsLogDelimiter = "" then
    .error (.invalid "results_log_delimiter must not be empty")
  else
    match firstRepeated [] c.peerIds with
    | some peer => .error (.invalid s!"peer '{peer}' declared more than once")
    | none => .ok ()

def tolerated (c : Config) : Span := Span.ofMillis c.toleratedDelayMs

/-- How often a status line is logged, if at all. -/
def statusInterval (c : Config) : Option Span :=
  if c.statusIntervalMs = 0 then none else some (Span.ofMillis c.statusIntervalMs)

/-- The pause between two looks of a handler that waits for its start. -/
def spinnerSleep (c : Config) : Span := Span.ofMillis c.spinnerSleepMs

/-- How long clients of the completion time service wait. -/
def watermarkPatience (c : Config) : Watermark.Patience :=
  { Watermark.Patience.standard with
    registration := Span.ofMillis c.registrationTimeoutMs
    shutdown := Span.ofMillis c.shutdownTimeoutMs
    pollInterval := Span.ofMillis c.pollIntervalMs }

def statsPatience (c : Config) : Stats.Patience :=
  { Stats.Patience.standard with
    shutdown := Span.ofMillis c.shutdownTimeoutMs
    pollInterval := Span.ofMillis c.pollIntervalMs }

/-- The delay policy; refusals are reported. -/
def policy (c : Config) : DelayPolicy :=
  match c.delayPolicy with
  | .permissive => .permissive c.tolerated
  | .logging => .logging c.tolerated
  | .strict => .strictReporting c.tolerated

end Config

end PacedLoad
