import PacedLoad.Delay
import PacedLoad.FileError
import PacedLoad.Service.Basic
import PacedLoad.Stats.ResultsLog
import PacedLoad.Stats.Workload

/-!
# The statistics service

A worker owns the workload.  It offers every result to the log and counts it
unless it started too late and the delay policy refuses it.  A result whose late
start was accepted before is not judged again.
-/

namespace PacedLoad.Stats

inductive Error
  | service (e : ServiceError)
  /-- A result could not be counted. -/
  | fold (what : String)
  /-- A file could not be written. -/
  | file (e : FileError)
deriving DecidableEq, Repr

def Error.message : Error → String
  | .service (.timeout what) => s!"Timed out: {what}"
  | .service (.protocol what) => s!"Protocol violation: {what}"
  | .service .shuttingDown => "Can not submit results after calling shutdown"
  | .service (.reported errors) => "Metrics collection failed with reported errors:\n" ++ errors
  | .service .channelClosed => "Metrics service channel closed"
  | .fold what => "Failed to fold result: " ++ what
  | .file e => "IO error: " ++ e.text

/-- The workload, the log and the rules for late results. -/
structure Collector where
  workload : Workload
  policy : DelayPolicy
  /-- Whether results that started too late are judged at all. -/
  recordStartDelay : Bool
  log : Option ResultsLog

inductive Request
  | status
  | snapshot
deriving DecidableEq, Repr

inductive Answer
  | status (s : Status)
  | snapshot (s : Snapshot)
deriving DecidableEq, Repr

namespace Collector

def needsJudgement (c : Collector) (r : OperationResult) : Bool :=
  c.recordStartDelay && r.startedTooLate c.policy.tolerated && !r.lateStartAccepted

/-- Offers a result to the log; a refused write changes nothing else. -/
def offer (c : Collector) (r : OperationResult) : Collector :=
  { c with log := c.log.map fun log => (log.write r).1 }

/-- Whether a result is to be counted, asking the policy only if it needs judgement. -/
def admits (c : Collector) (r : OperationResult) (j : Journal) : Bool × Journal :=
  if c.needsJudgement r then c.policy.judge r.operation j else (true, j)

def foldMessage (r : OperationResult) (e : FoldError) : String :=
  s!"Encountered error while collecting metrics for result of operation {r.operation.id}: " ++
    (Error.fold e.message).message

def collect (c : Collector) (j : Journal) (r : OperationResult) :
    (Collector × Journal) × Option String :=
  let c := c.offer r
  match c.admits r j with
  | (false, j) => ((c, j), none)
  | (true, j) =>
    match c.workload.measure r with
    | .ok w => (({ c with workload := w }, j), none)
    | .error e => ((c, j), some (foldMessage r e))

end Collector

def serviceName : String := "metrics-service"

def duty : Duty Collector OperationResult Request Answer where
  name := serviceName
  onEvent := Collector.collect
  onRequest now c
    | .status => (c, .status (c.workload.status now))
    | .snapshot => (c, .snapshot c.workload.snapshot)

structure Patience where
  read : Span
  shutdown : Span
  pollInterval : Span
deriving DecidableEq, Repr

/-- Two seconds for answers, five for the end. -/
def Patience.standard : Patience := ⟨Span.ofMillis 2000, Span.ofMillis 5000, Span.ofMillis 100⟩

structure Service where
  core : PacedLoad.Service Collector OperationResult Request Answer
  patience : Patience

namespace Service

def start (now : Instant) (policy : DelayPolicy) (recordStartDelay : Bool) (patience : Patience)
    (log : Option ResultsLog) : Service :=
  ⟨PacedLoad.Service.start ⟨Workload.start now, policy, recordStartDelay, log⟩, patience⟩

/-- What a client is doing while it waits. -/
def readingStatus : String := "reading workload status"

@[inherit_doc readingStatus] def readingSnapshot : String := "reading results snapshot"

@[inherit_doc readingStatus] def stopping : String := "shutting down"

/-- Hands in a result, unless the service is shutting down. -/
def submit (s : Service) (j : Journal) (r : OperationResult) :
    Service × Except ServiceError Unit :=
  let (core, answer) := s.core.submitWhileUp j r
  ({ s with core }, answer)

/-- Asks for something; the answer is the number of a cell. -/
def ask (s : Service) (j : Journal) (r : Request) : Service × Except ServiceError Nat :=
  let (core, t) := s.core.ask j r
  ({ s with core }, t)

def doing : Request → String
  | .status => readingStatus
  | .snapshot => readingSnapshot

def pollAnswer (s : Service) (j : Journal) (expired : Bool) (r : Request) (ticket : Nat) :
    Option (Service × Except ServiceError Answer) :=
  (s.core.answer j (doing r) s.patience.read expired ticket).map fun a =>
    ({ s with core := s.core.modifyCell ticket Cell.dropPending }, a)

/-- Refuses new results and sends the last message.  The answer is false when that was already
done. -/
def beginShutdown (s : Service) (j : Journal) : Service × Except ServiceError Bool :=
  let (already, core) := s.core.refuse
  if already then ({ s with core }, .ok false)
  else
    let (core, r) := core.terminate j
    ({ s with core }, r.map fun _ => true)

def pollShutdown (s : Service) (j : Journal) (expired : Bool) : Option (Except ServiceError Unit) :=
  s.core.ended j stopping s.patience.shutdown expired

def deliver (s : Service) (now : Instant) (j : Journal) : Service × Journal :=
  let (core, j) := s.core.deliver duty now j
  ({ s with core }, j)

end Service

end PacedLoad.Stats
