import PacedLoad.Watermark.Service

/-!
# Calls to a completion time service that keeps up

Each call here that waits looks for its answer at once, when the worker has not
moved yet.  Then the worker takes every message before the caller looks again, so
that the wait ends with an answer, with an error, or at a deadline that would
pass however long the caller waited.
-/

namespace PacedLoad.Watermark.Service

variable {σ : Type} [Bookkeeping σ]

/-- The worker takes all messages that stand in the queue. -/
def settle (s : Service σ) (j : Journal) : Service σ × Journal :=
  let (core, j) := s.core.deliverWhile duty (fun _ => true) Instant.first j
  ({ s with core }, j)

def register (s : Service σ) (j : Journal) : (Service σ × Journal) × Except ServiceError Nat :=
  match s.ask j .register with
  | (s, .error e) => ((s, j), .error e)
  | (s, .ok ticket) =>
    match s.pollRegistration j false ticket with
    | some (s, r) => (s.settle j, r)
    | none =>
      let (s, j) := s.settle j
      let (s, r) := (s.pollRegistration j true ticket).getD (s, .error .channelClosed)
      ((s, j), r)

/-- Reads the global completion time after all earlier announcements. -/
def read (s : Service σ) (j : Journal) :
    (Service σ × Journal) × Except ServiceError (Option Instant) :=
  match s.ask j .read with
  | (s, .error e) => ((s, j), .error e)
  | (s, .ok ticket) =>
    match s.pollReading j false ticket with
    | some (s, r) => (s.settle j, r)
    | none =>
      let (s, j) := s.settle j
      let (s, r) := (s.pollReading j true ticket).getD (s, .error .channelClosed)
      ((s, j), r)

/-- Waits for an answer that was asked for before, and looks at reported errors meanwhile if
`watching`. -/
def await (s : Service σ) (j : Journal) (watching : Bool) (ticket : Nat) :
    (Service σ × Journal) × Except WaitError (Option Instant) :=
  let look (s : Service σ) (j : Journal) (expired : Bool) :=
    (s.core.cell ticket).verdict (if watching then some j else none) expired s.patience.read
  match look s j false with
  | some r => ((s, j), r.map timeOf)
  | none =>
    let (s, j) := s.settle j
    ((s, j), ((look s j true).getD (.error .closed)).map timeOf)

def shutdown (s : Service σ) (j : Journal) : (Service σ × Journal) × Except ServiceError Unit :=
  match s.beginShutdown j with
  | (s, .error e) => ((s, j), .error e)
  | (s, .ok false) => ((s, j), .ok ())
  | (s, .ok true) =>
    match s.pollShutdown j false with
    | some r => ((s, j), r)
    | none =>
      let (s, j) := s.settle j
      ((s, j), (s.pollShutdown j true).getD (.ok ()))

def release (s : Service σ) (j : Journal) : Service σ × Journal := (s.beginShutdown j).1.settle j

end PacedLoad.Watermark.Service
