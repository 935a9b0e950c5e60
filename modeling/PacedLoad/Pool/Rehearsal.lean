import PacedLoad.Keyed
import PacedLoad.Pool.Executor
import PacedLoad.Watermark.Board

/-!
# Rehearsals of the pool

Bodies with a known end, and bodies that wait for a permit of a gate, to go
through what a pool does one call at a time.  The handlers move while the caller
waits for an outcome; all other calls come back at once.
-/

namespace PacedLoad

open Handler

abbrev Gates := Keyed Nat

namespace Gates

def openGate (gates : Gates) (name : String) (permits : Nat) : Gates :=
  Keyed.insert name ((Keyed.find? name gates).getD 0 + permits) gates

/-- A body that ends at once. -/
def ending (r : BodyResult) : Work Gates := fun gates _ => some (gates, r)

/-- A body that ends as soon as it gets a permit. -/
def behind (name : String) (r : BodyResult) : Work Gates := fun gates _ =>
  match Keyed.find? name gates with
  | some (left + 1) => some (Keyed.insert name left gates, r)
  | _ => none

end Gates

/-- An executor in use, and the time that the clock shows. -/
structure Rehearsal extends Executor Gates Watermark.Board where
  now : Instant

namespace Rehearsal

/-- Lets everybody move as long as they can. -/
def settle (r : Rehearsal) : Rehearsal := { r with floor := r.floor.settle r.now }

/-- Lets the completion time service process all that was announced. -/
def settleService (r : Rehearsal) : Rehearsal :=
  let (watermark, journal) := r.floor.watermark.settle r.floor.journal
  { r with floor := { r.floor with watermark, journal } }

def registerWriters : Nat → Watermark.Service Watermark.Board → Journal →
    Watermark.Service Watermark.Board × Journal
  | 0, s, j => (s, j)
  | n + 1, s, j =>
    let ((s, j), _) := s.register j
    registerWriters n s j

/-- An empty pool, whose completion time service knows some peers and writers. -/
def start (size : Nat) (policy : DelayPolicy) (peers : List String) (writers : Nat)
    (now : Instant) : Rehearsal :=
  let service := Watermark.Service.start peers Watermark.Patience.standard
  let (watermark, journal) := registerWriters writers service .empty
  { floor := ⟨watermark, journal, policy, Pool.start size, []⟩, roster := .empty, now }

inductive Refusal
  /-- Its start could not be announced. -/
  | unannounced (e : ExecutionError)
  /-- The pool refused it. -/
  | unaccepted (e : ExecutionError)

def submit (r : Rehearsal) (op : Operation) (writer : Nat) (work : Work Gates) :
    Rehearsal × Except Refusal Unit :=
  match r.floor.announce op writer with
  | (floor, .error e) => ({ r with floor }, .error (.unannounced e))
  | (floor, .ok ()) =>
    let (executor, accepted) :=
      { r.toExecutor with floor }.submit op writer work r.roster.ids.length
    ({ r with toExecutor := executor }, accepted.mapError .unaccepted)

/-- Takes the next outcome, if there is one already. -/
def tryTake (r : Rehearsal) : Rehearsal × Option Outcome :=
  match r.toExecutor.tryTake true with
  | none => (r, none)
  | some (outcome, executor) => ({ r with toExecutor := executor }, some outcome)

/-- Waits for the next outcome, as long as one may come. -/
def take (r : Rehearsal) : Rehearsal × Option Outcome := r.settle.tryTake

def takeMany : Nat → Rehearsal → Rehearsal × List Outcome
  | 0, r => (r, [])
  | n + 1, r =>
    match r.take with
    | (r, none) => (r, [])
    | (r, some outcome) =>
      let (r, rest) := takeMany n r
      (r, outcome :: rest)

def idOf : Outcome → Nat
  | .ok result => result.operation.id
  | .error e => e.operationId?.getD 0

/-- Takes all outcomes, in the order of the numbers of their operations. -/
def drain (r : Rehearsal) : Rehearsal × List Outcome :=
  let (r, outcomes) := takeMany r.inFlight r
  (r, outcomes.mergeSort fun a b => decide (idOf a ≤ idOf b))

def openGate (r : Rehearsal) (name : String) (permits : Nat) : Rehearsal :=
  { r with floor := { r.floor with shared := r.floor.shared.openGate name permits } }

def advance (r : Rehearsal) (d : Span) : Rehearsal := { r with now := r.now.plus d }

/-- A peer reports its completion time, which is processed at once. -/
def peer (r : Rehearsal) (name : String) (time : Instant) :
    Rehearsal × Except ServiceError Unit :=
  let (watermark, e) := r.floor.watermark.submitExternal r.floor.journal name time
  (settleService { r with floor := { r.floor with watermark } }, e)

/-- Reads the global completion time after all earlier announcements, without a look at reported
errors. -/
def read (r : Rehearsal) :
    Rehearsal × Except ServiceError (Except WaitError (Option Instant)) :=
  match r.floor.watermark.ask r.floor.journal .read with
  | (watermark, .error e) => ({ r with floor := { r.floor with watermark } }, .error e)
  | (watermark, .ok ticket) =>
    let ((watermark, journal), a) := watermark.await r.floor.journal false ticket
    ({ r with floor := { r.floor with watermark, journal } }, .ok a)

def shutdownNow (r : Rehearsal) : Rehearsal :=
  { r with toExecutor := r.toExecutor.shutdownNow }

def shutdown (r : Rehearsal) : Rehearsal :=
  let r := r.shutdownNow
  (takeMany r.inFlight r).1

end Rehearsal

end PacedLoad
