import PacedLoad.Json.Record
import PacedLoad.Operation.Basic

/-!
# Operations and results as JSON records

Instants are whole nanoseconds; a span is a record of seconds and nanoseconds.
Reading a span carries excess nanoseconds over into the seconds.
-/

namespace PacedLoad

open Json

namespace Instant

def toJson (t : Instant) : Value := .nat t.nanos

def decode : Decoder Instant := fun room tree =>
  (Decode.natural 64 room tree).bind Instant.ofNanos?

end Instant

namespace Span

def fieldNames : List String := ["secs", "nanos"]

/-- Whole seconds and the nanoseconds beyond them. -/
def toJson (d : Span) : Value :=
  .object [("secs", .nat d.seconds), ("nanos", .nat d.subsecNanos)]

/-- Whole seconds and any 32-bit number of nanoseconds; no other field may be there. -/
def decode : Decoder Span := fun room tree => do
  let r ← Record.ofTree? fieldNames room tree
  if r.fields.any fun f => !fieldNames.contains f.1 then none
  else
    let secs ← r.required "secs" (Decode.natural 64)
    let nanos ← r.required "nanos" (Decode.natural 32)
    Span.ofNanos? (secs * nanosPerSecond + nanos)

end Span

namespace Operation

def fieldNames : List String := ["id", "kind", "scheduled_start", "dependency_time", "params"]

def toJson (op : Operation) : Value :=
  .object [("id", .nat op.id), ("kind", .string op.kind),
    ("scheduled_start", op.scheduledStart.toJson),
    ("dependency_time", Value.ofOption Instant.toJson op.dependencyTime), ("params", op.params)]

/-- An operation; the dependency and the parameters may be left out. -/
def decode : Decoder Operation := fun room tree => do
  let r ← Record.ofTree? fieldNames room tree
  return {
    id := ← r.required "id" (Decode.natural 64)
    kind := ← r.required "kind" Decode.string
    scheduledStart := ← r.required "scheduled_start" Instant.decode
    dependencyTime := ← r.withDefault "dependency_time" none (Json.nullable Instant.decode)
    params := ← r.withDefault "params" .null Decode.value }

end Operation

namespace OperationResult

def fieldNames : List String :=
  ["operation", "actual_start", "run_duration", "result_code", "value", "late_start_accepted"]

def toJson (r : OperationResult) : Value :=
  .object [("operation", r.operation.toJson), ("actual_start", r.actualStart.toJson),
    ("run_duration", r.runDuration.toJson), ("result_code", .int r.resultCode),
    ("value", r.value), ("late_start_accepted", .bool r.lateStartAccepted)]

/-- A result; the acceptance of a late start may be left out. -/
def decode : Decoder OperationResult := fun room tree => do
  let r ← Record.ofTree? fieldNames room tree
  return {
    operation := ← r.required "operation" Operation.decode
    actualStart := ← r.required "actual_start" Instant.decode
    runDuration := ← r.required "run_duration" Span.decode
    resultCode := ← r.required "result_code" Decode.int32
    value := ← r.required "value" Decode.value
    lateStartAccepted := ← r.withDefault "late_start_accepted" false Decode.boolean }

end OperationResult

end PacedLoad
