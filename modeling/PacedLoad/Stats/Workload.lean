import PacedLoad.Keyed
import PacedLoad.Operation.Basic
import PacedLoad.Stats.Summary

/-!
# Statistics of a workload

Results are counted for each kind of operation.  The workload runs from the
earliest actual start to the latest finish.
-/

namespace PacedLoad.Stats

structure KindStats where
  runTime : Recorder
  startDelay : Recorder
  failures : Nat
deriving DecidableEq, Repr

structure Workload where
  startedAt : Instant
  kinds : Keyed KindStats
  operationCount : Nat
  firstStart : Option Instant
  lastActualStart : Option Instant
  latestFinish : Option Instant
deriving DecidableEq, Repr

/-- A result that can not be counted. -/
inductive FoldError
  | noKind (id : Nat)
deriving DecidableEq, Repr

def FoldError.message : FoldError → String
  | .noKind id => s!"operation {id} has no kind"

structure Status where
  operationCount : Nat
  runtimeMillis : Nat
  throughput : Binary64
  lastActualStart : Option Instant
deriving DecidableEq, Repr

structure KindSummary where
  kind : String
  count : Nat
  failureCount : Nat
  runTime : Summary
  startDelay : Summary
deriving DecidableEq, Repr

structure Snapshot where
  startTime : Option Instant
  latestFinishTime : Option Instant
  totalRuntimeMillis : Nat
  operationCount : Nat
  throughput : Binary64
  operations : List KindSummary
deriving DecidableEq, Repr

/-- A span in seconds: whole seconds plus the fraction, each rounded to a double. -/
def secondsOf (d : Span) : Binary64 :=
  (Binary64.ofNat d.seconds).addNonneg
    ((Binary64.ofNat d.subsecNanos).div (Binary64.ofNat nanosPerSecond))

/-- Operations per second; zero over an empty span. -/
def throughput (count : Nat) (span : Span) : Binary64 :=
  if span.nanos = 0 then Binary64.zero false
  else (Binary64.ofNat count).div (secondsOf span)

namespace KindStats

def empty : KindStats := ⟨Recorder.empty, Recorder.empty, 0⟩

def measure (s : KindStats) (r : OperationResult) : KindStats where
  runTime := s.runTime.record r.runDuration
  startDelay := s.startDelay.record r.startDelay
  failures := if r.resultCode = 0 then s.failures else s.failures + 1

def summary (kind : String) (s : KindStats) : KindSummary :=
  ⟨kind, s.runTime.count, s.failures, s.runTime.summary, s.startDelay.summary⟩

end KindStats

namespace Workload

/-- No results, at the time from which the runtime counts. -/
def start (now : Instant) : Workload := ⟨now, [], 0, none, none, none⟩

/-- Counts one result, which must have a kind. -/
def measure (w : Workload) (r : OperationResult) : Except FoldError Workload :=
  let kind := r.operation.kind
  if kind = "" then .error (.noKind r.operation.id)
  else
    let stats := (Keyed.find? kind w.kinds).getD KindStats.empty
    .ok { w with
      kinds := Keyed.insert kind (stats.measure r) w.kinds
      operationCount := w.operationCount + 1
      firstStart := some (w.firstStart.elim r.actualStart fun t => min t r.actualStart)
      lastActualStart := some (w.lastActualStart.elim r.actualStart fun t => max t r.actualStart)
      latestFinish := some (w.latestFinish.elim r.finish fun t => max t r.finish) }

def status (w : Workload) (now : Instant) : Status :=
  let runtime := now.since w.startedAt
  ⟨w.operationCount, runtime.lowMillis, throughput w.operationCount runtime, w.lastActualStart⟩

/-- The span from the earliest start to the latest finish. -/
def totalRuntime (w : Workload) : Span :=
  match w.firstStart, w.latestFinish with
  | some first, some latest => latest.since first
  | _, _ => Span.zero

def snapshot (w : Workload) : Snapshot where
  startTime := w.firstStart
  latestFinishTime := w.latestFinish
  totalRuntimeMillis := w.totalRuntime.lowMillis
  operationCount := w.operationCount
  throughput := throughput w.operationCount w.totalRuntime
  operations := w.kinds.map fun (kind, stats) => stats.summary kind

end Workload

def Snapshot.find? (s : Snapshot) (kind : String) : Option KindSummary :=
  s.operations.find? (·.kind == kind)

end PacedLoad.Stats
