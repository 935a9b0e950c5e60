import PacedLoad.Operation.Json
import PacedLoad.Json.Text
import PacedLoad.Stats.Workload

/-!
# Statistics as JSON records
-/

namespace PacedLoad.Stats

open Json

namespace Summary

def fieldNames : List String :=
  ["count", "min_ns", "max_ns", "mean_ns", "p50_ns", "p90_ns", "p95_ns", "p99_ns"]

def toJson (s : Summary) : Value :=
  .object (fieldNames.zip
    ([s.count, s.least, s.greatest, s.mean, s.p50, s.p90, s.p95, s.p99].map Value.nat))

/-- A summary; all fields must be there. -/
def decode : Decoder Summary := fun room tree => do
  let r ← Record.ofTree? fieldNames room tree
  let field (name : String) := r.required name (Decode.natural 64)
  return {
    count := ← field "count"
    least := ← field "min_ns"
    greatest := ← field "max_ns"
    mean := ← field "mean_ns"
    p50 := ← field "p50_ns"
    p90 := ← field "p90_ns"
    p95 := ← field "p95_ns"
    p99 := ← field "p99_ns" }

end Summary

namespace KindSummary

def fieldNames : List String := ["kind", "count", "failure_count", "run_time", "start_delay"]

def toJson (s : KindSummary) : Value :=
  .object [("kind", .string s.kind), ("count", .nat s.count),
    ("failure_count", .nat s.failureCount), ("run_time", s.runTime.toJson),
    ("start_delay", s.startDelay.toJson)]

/-- The summary of one kind; all fields must be there. -/
def decode : Decoder KindSummary := fun room tree => do
  let r ← Record.ofTree? fieldNames room tree
  return {
    kind := ← r.required "kind" Decode.string
    count := ← r.required "count" (Decode.natural 64)
    failureCount := ← r.required "failure_count" (Decode.natural 64)
    runTime := ← r.required "run_time" Summary.decode
    startDelay := ← r.required "start_delay" Summary.decode }

end KindSummary

namespace Snapshot

def fieldNames : List String :=
  ["start_time", "latest_finish_time", "total_runtime_ms", "operation_count", "throughput",
    "operations"]

def toJson (s : Snapshot) : Value :=
  .object [("start_time", Value.ofOption Instant.toJson s.startTime),
    ("latest_finish_time", Value.ofOption Instant.toJson s.latestFinishTime),
    ("total_runtime_ms", .nat s.totalRuntimeMillis), ("operation_count", .nat s.operationCount),
    ("throughput", .double s.throughput), ("operations", .array (s.operations.map (·.toJson)))]

/-- A snapshot; only the two times may be left out. -/
def decode : Decoder Snapshot := fun room tree => do
  let r ← Record.ofTree? fieldNames room tree
  return {
    startTime := ← r.optional "start_time" Instant.decode
    latestFinishTime := ← r.optional "latest_finish_time" Instant.decode
    totalRuntimeMillis := ← r.required "total_runtime_ms" (Decode.natural 64)
    operationCount := ← r.required "operation_count" (Decode.natural 64)
    throughput := ← r.required "throughput" Decode.double
    operations := ← r.required "operations" (Decode.list KindSummary.decode) }

def text (s : Snapshot) : String := s.toJson.pretty

end Snapshot

def Status.toJson (s : Status) : Value :=
  .object [("operation_count", .nat s.operationCount), ("runtime_ms", .nat s.runtimeMillis),
    ("throughput", .double s.throughput),
    ("last_actual_start", Value.ofOption Instant.toJson s.lastActualStart)]

end PacedLoad.Stats
