import PacedLoad.Pool.Floor

/-!
# The executor of handlers

The runtime runs each handler as a task of its own, under an id that it chooses.
A task that broke off or was cancelled does not tell which operation it carried.
So the executor notes the operation of every task under the id of the task, until
the task is taken.
-/

namespace PacedLoad

open Handler

/-- How a task ended, in the words of the runtime. -/
inductive Joined
  /-- The handler returned. -/
  | output (outcome : Outcome)
  | panicked (message : String)
  | cancelled

/-- What the runtime says of a task with an outcome.  A handler that was interrupted has either
returned by itself or was `cancelled`. -/
def Joined.of (cancelled : Bool) : Outcome → Joined
  | .error (.panicked _ message) => .panicked message
  | .error (.interrupted id) =>
    if cancelled then .cancelled else .output (.error (.interrupted id))
  | outcome => .output outcome

/-- The ids of the tasks and what is noted under them. -/
structure Roster where
  /-- The id of each task, in the order in which the tasks were accepted. -/
  ids : List Nat
  /-- The number of an operation, under the id of its task. -/
  operations : List (Nat × Nat)
deriving DecidableEq, Repr

namespace Roster

def empty : Roster := ⟨[], []⟩

def operation? (r : Roster) (id : Nat) : Option Nat := r.operations.lookup id

def leave (r : Roster) (id : Nat) : Roster :=
  { r with operations := r.operations.filter (·.1 != id) }

/-- Notes the operation of a new task, instead of what was noted under its id before. -/
def enter (r : Roster) (id operation : Nat) : Roster :=
  ⟨r.ids ++ [id], (id, operation) :: (r.leave id).operations⟩

def finish (r : Roster) (id : Nat) : Joined → Roster × Outcome
  | .output outcome => (r.leave id, outcome)
  | .panicked message => (r.leave id, .error (.panicked ((r.operation? id).getD 0) message))
  | .cancelled => (r.leave id, .error (.interrupted ((r.operation? id).getD 0)))

end Roster

/-- The floor on which handlers work, and the notes about their tasks. -/
structure Executor (β : Type) (σ : Type := Watermark.State) where
  floor : Floor β σ
  roster : Roster

namespace Executor

variable {β σ : Type}

/-- Submits an operation; `id` is what the runtime calls the task. -/
def submit (e : Executor β σ) (op : Operation) (writer : Nat) (work : Work β) (id : Nat) :
    Executor β σ × Except ExecutionError Unit :=
  match e.floor.submit op writer work with
  | (floor, .ok ()) => (⟨floor, e.roster.enter id op.id⟩, .ok ())
  | (floor, .error failure) => ({ e with floor }, .error failure)

/-- How many handlers were submitted and not yet taken. -/
def inFlight (e : Executor β σ) : Nat := e.floor.pool.inFlight

def tryTake (e : Executor β σ) (cancelled : Bool) : Option (Outcome × Executor β σ) :=
  match e.floor.pool.done, e.floor.pool.tryTake with
  | ticket :: _, some (outcome, pool) =>
    let (roster, outcome) :=
      e.roster.finish (e.roster.ids.getD ticket 0) (.of cancelled outcome)
    some (outcome, ⟨{ e.floor with pool }, roster⟩)
  | _, _ => none

/-- Refuses new operations and slots, and lets the tasks be interrupted. -/
def shutdownNow (e : Executor β σ) : Executor β σ :=
  { e with floor := { e.floor with pool := e.floor.pool.shutdownNow } }

end Executor

end PacedLoad
