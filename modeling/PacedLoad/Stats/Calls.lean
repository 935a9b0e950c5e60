import PacedLoad.Stats.Service

/-!
# Calls to a statistics service that keeps up

Each call looks for its answer at once, when the worker has not moved yet.  Then
the worker takes every message that it can before the caller looks again.  While
the gate of the log is shut, the worker can not get past a result.
-/

namespace PacedLoad.Stats.Service

/-- Whether the worker gets past a message. -/
def passes (gateOpen : Bool) : Message OperationResult Request → Bool
  | .event _ => gateOpen
  | _ => true

/-- The worker takes all messages up to one that it can not get past. -/
def settle (s : Service) (gateOpen : Bool) (now : Instant) (j : Journal) : Service × Journal :=
  let (core, j) := s.core.deliverWhile duty (passes gateOpen) now j
  ({ s with core }, j)

def query (s : Service) (gateOpen : Bool) (now : Instant) (j : Journal) (r : Request) :
    (Service × Journal) × Except ServiceError Answer :=
  match s.ask j r with
  | (s, .error e) => ((s, j), .error e)
  | (s, .ok ticket) =>
    match s.pollAnswer j false r ticket with
    | some (s, a) => (s.settle gateOpen now j, a)
    | none =>
      let (s, j) := s.settle gateOpen now j
      let (s, a) := (s.pollAnswer j true r ticket).getD (s, .error .channelClosed)
      ((s, j), a)

/-- Asks a question, waits for the answer and does not look at reported errors meanwhile. -/
def queryUnreported (s : Service) (gateOpen : Bool) (now : Instant) (j : Journal) (r : Request) :
    (Service × Journal) × Except ServiceError (Except WaitError Answer) :=
  match s.ask j r with
  | (s, .error e) => ((s, j), .error e)
  | (s, .ok ticket) =>
    let (s, j) := s.settle gateOpen now j
    ((s, j), .ok (((s.core.cell ticket).verdict none true s.patience.read).getD (.error .closed)))

def shutdown (s : Service) (gateOpen : Bool) (now : Instant) (j : Journal) :
    (Service × Journal) × Except ServiceError Unit :=
  match s.beginShutdown j with
  | (s, .error e) => ((s, j), .error e)
  | (s, .ok false) => ((s, j), .ok ())
  | (s, .ok true) =>
    match s.pollShutdown j false with
    | some r => ((s, j), r)
    | none =>
      let (s, j) := s.settle gateOpen now j
      ((s, j), (s.pollShutdown j true).getD (.ok ()))

def logText (s : Service) : String :=
  match s.core.worker.state.log with
  | some log => log.sink.text
  | none => ""

end PacedLoad.Stats.Service
