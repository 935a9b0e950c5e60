import PacedLoad.Reply
import PacedLoad.Time.Text

/-!
# Services with a queue

A service is a state that one worker owns, in front of it a queue.  Clients count
an event before they send it.  To stop, a service refuses new work, looks at the
count and sends a last message with it; the worker is done when it has seen that
many events.  All steps here are atomic, so that any interleaving of clients and
worker is a sequence of them.
-/

namespace PacedLoad

/-- What stands in the queue of a service. -/
inductive Message (ε ρ : Type)
  /-- A counted event. -/
  | event (e : ε)
  /-- A question, answered in the cell with number `ticket`. -/
  | request (r : ρ) (ticket : Nat)
  /-- Stop once so many events are processed. -/
  | terminate (expected : Nat)
deriving Repr

/-- The work of a service.  Handling an event may fail, with a message; what it did before it
failed stays. -/
structure Duty (σ ε ρ α : Type) where
  name : String
  onEvent : σ → Journal → ε → (σ × Journal) × Option String
  onRequest : Instant → σ → ρ → σ × α

inductive WorkerPhase
  | running
  /-- Stopped after all expected events. -/
  | complete
  /-- Stopped by an error. -/
  | failed
deriving DecidableEq, Repr

/-- A worker and the state it owns. -/
structure Worker (σ : Type) where
  state : σ
  processed : Nat
  expected : Option Nat
  phase : WorkerPhase
deriving Repr

namespace Worker

variable {σ ε ρ α : Type}

/-- A worker that has processed nothing. -/
def fresh (state : σ) : Worker σ := ⟨state, 0, none, .running⟩

def drained (w : Worker σ) : Bool :=
  match w.expected with
  | none => false
  | some n => decide (n ≤ w.processed)

/-- Stops the worker if it is drained. -/
def settle (w : Worker σ) : Worker σ := if w.drained then { w with phase := .complete } else w

/-- The message of an error that a second termination causes. -/
def secondTermination (first second : Nat) : String :=
  s!"Encountered multiple termination events. First expected_event_count[{first}]. " ++
    s!"Second expected_event_count[{second}]"

def fail (w : Worker σ) (name : String) (j : Journal) (message : String) : Worker σ × Journal :=
  ({ w with phase := .failed }, j.report name message)

/-- Processes one message.  The third part is the answer to a request. -/
def receive (duty : Duty σ ε ρ α) (now : Instant) (w : Worker σ) (j : Journal) :
    Message ε ρ → Worker σ × Journal × Option (Nat × α)
  | .event e =>
    let ((state, j), failure) := duty.onEvent w.state j e
    let w := { w with state := state, processed := w.processed + 1 }
    match failure with
    | none => (w.settle, j, none)
    | some message =>
      let (w, j) := w.fail duty.name j message
      (w, j, none)
  | .request r ticket =>
    let (state, answer) := duty.onRequest now w.state r
    ({ w with state := state }.settle, j, some (ticket, answer))
  | .terminate n =>
    match w.expected with
    | none => ({ w with expected := some n }.settle, j, none)
    | some first =>
      let (w, j) := w.fail duty.name j (secondTermination first n)
      (w, j, none)

end Worker

/-- A worker, its queue with the oldest message first, and the state that clients share. -/
structure Service (σ ε ρ α : Type) where
  worker : Worker σ
  queue : List (Message ε ρ)
  /-- How many events clients have counted. -/
  counted : Nat
  shuttingDown : Bool
  /-- The cells of all requests, by number. -/
  cells : List (Cell α)
deriving Repr

/-- Why a client's call failed. -/
inductive ServiceError
  | timeout (what : String)
  | protocol (what : String)
  | shuttingDown
  | reported (errors : String)
  | channelClosed
deriving DecidableEq, Repr

namespace Service

variable {σ ε ρ α : Type}

def start (state : σ) : Service σ ε ρ α := ⟨Worker.fresh state, [], 0, false, []⟩

def isOpen (s : Service σ ε ρ α) : Bool := s.worker.phase == .running

def count (s : Service σ ε ρ α) : Service σ ε ρ α := { s with counted := s.counted + 1 }

/-- Puts a message at the end of the queue; `none` when the worker has stopped. -/
def send? (s : Service σ ε ρ α) (m : Message ε ρ) : Option (Service σ ε ρ α) :=
  if s.isOpen then some { s with queue := s.queue ++ [m] } else none

/-- Why nothing can be sent to a worker that has stopped. -/
def closedError (j : Journal) : ServiceError :=
  if j.hasErrors then .reported j.text else .channelClosed

def send (s : Service σ ε ρ α) (j : Journal) (m : Message ε ρ) :
    Service σ ε ρ α × Except ServiceError Unit :=
  match s.send? m with
  | some s => (s, .ok ())
  | none => (s, .error (closedError j))

def submit (s : Service σ ε ρ α) (j : Journal) (e : ε) :
    Service σ ε ρ α × Except ServiceError Unit :=
  s.count.send j (.event e)

/-- Counts and sends an event unless the service is shutting down. -/
def submitWhileUp (s : Service σ ε ρ α) (j : Journal) (e : ε) :
    Service σ ε ρ α × Except ServiceError Unit :=
  if s.shuttingDown then (s, .error .shuttingDown) else s.submit j e

/-- Sends a request; the answer is the number of its cell. -/
def ask (s : Service σ ε ρ α) (j : Journal) (r : ρ) :
    Service σ ε ρ α × Except ServiceError Nat :=
  let ticket := s.cells.length
  let (s, sent) := { s with cells := s.cells ++ [Cell.fresh] }.send j (.request r ticket)
  (s, sent.map fun _ => ticket)

def cell (s : Service σ ε ρ α) (ticket : Nat) : Cell α :=
  s.cells.getD ticket Cell.fresh.dropResolver

def modifyCell (s : Service σ ε ρ α) (ticket : Nat) (f : Cell α → Cell α) : Service σ ε ρ α :=
  { s with cells := s.cells.modify ticket f }

/-- Refuses new work from now on, and says whether it was already refused. -/
def refuse (s : Service σ ε ρ α) : Bool × Service σ ε ρ α :=
  (s.shuttingDown, { s with shuttingDown := true })

/-- Sends the last message, with the number of events counted so far. -/
def terminate (s : Service σ ε ρ α) (j : Journal) : Service σ ε ρ α × Except ServiceError Unit :=
  s.send j (.terminate s.counted)

/-- Whether the worker has stopped after all expected events. -/
def isComplete (s : Service σ ε ρ α) : Bool := s.worker.phase == .complete

/-- Drops the resolving halves of requests that will never be processed. -/
def abandon (cells : List (Cell α)) : List (Message ε ρ) → List (Cell α)
  | [] => cells
  | .request _ ticket :: rest => abandon (cells.modify ticket Cell.dropResolver) rest
  | _ :: rest => abandon cells rest

/-- The worker takes one message, if there is one.  A worker that stops leaves the rest of the
queue behind. -/
def deliver (duty : Duty σ ε ρ α) (now : Instant) (s : Service σ ε ρ α) (j : Journal) :
    Service σ ε ρ α × Journal :=
  match s.isOpen, s.queue with
  | true, m :: rest =>
    let (worker, j, answer) := s.worker.receive duty now j m
    let cells :=
      match answer with
      | some (ticket, a) => s.cells.modify ticket fun c => c.resolve a
      | none => s.cells
    if worker.phase = .running then ({ s with worker := worker, queue := rest, cells := cells }, j)
    else ({ s with worker := worker, queue := [], cells := abandon cells rest }, j)
  | _, _ => (s, j)

def waitError (doing : String) : WaitError → ServiceError
  | .timeout allowed => .timeout s!"{doing} took longer than {allowed}"
  | .closed => .channelClosed
  | .reported errors => .reported errors

def answer (s : Service σ ε ρ α) (j : Journal) (doing : String) (timeout : Span) (expired : Bool)
    (ticket : Nat) : Option (Except ServiceError α) :=
  ((s.cell ticket).verdict (some j) expired timeout).map fun r => r.mapError (waitError doing)

/-- The worker takes messages as long as `ready` holds of the oldest one. -/
def deliverWhile (duty : Duty σ ε ρ α) (ready : Message ε ρ → Bool) (now : Instant)
    (s : Service σ ε ρ α) (j : Journal) : Service σ ε ρ α × Journal :=
  s.queue.foldl (fun (s, j) _ => if s.queue.head?.any ready then s.deliver duty now j else (s, j))
    (s, j)

def ended (s : Service σ ε ρ α) (j : Journal) (doing : String) (timeout : Span) (expired : Bool) :
    Option (Except ServiceError Unit) :=
  (pollVerdict s.isComplete (some j) expired timeout).map fun r => r.mapError (waitError doing)

end Service

end PacedLoad
