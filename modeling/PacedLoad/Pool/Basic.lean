import PacedLoad.Handler.Phase

/-!
# The handler pool

The pool takes operations and runs a handler for each.  A handler needs one of
the slots from the moment it was let go until it has completed its start time, so
that an operation that still waits never keeps others from running.  Slots are
given out in the order in which handlers ask for them, and outcomes come out in
the order in which handlers finish.
-/

namespace PacedLoad

open Handler

/-- What the body of an operation does to the state that all bodies share; `none` as long as it
has to wait. -/
abbrev Work (β : Type) := β → Operation → Option (β × BodyResult)

structure Task (β : Type) where
  operation : Operation
  writer : Nat
  work : Work β
  phase : Phase
  /-- The outcome has been handed out. -/
  taken : Bool

/-- All tasks that were ever accepted, numbered in that order, and what they share. -/
structure Pool (β : Type) where
  /-- How many slots are free. -/
  free : Nat
  tasks : List (Task β)
  /-- Tasks that wait for a slot, the first in front. -/
  line : List Nat
  /-- Finished tasks that have not been taken, the first to finish in front. -/
  done : List Nat
  shutDown : Bool

namespace Pool

variable {β : Type}

/-- A pool with at least one slot. -/
def start (size : Nat) : Pool β := ⟨max size 1, [], [], [], false⟩

def submit (p : Pool β) (op : Operation) (writer : Nat) (work : Work β) :
    Except ExecutionError (Pool β) :=
  if p.shutDown then .error .shutDown
  else .ok { p with tasks := p.tasks ++ [⟨op, writer, work, .waiting, false⟩] }

/-- How many tasks were accepted and not yet taken. -/
def inFlight (p : Pool β) : Nat := p.tasks.countP fun t => !t.taken

def occupied (p : Pool β) : Nat := p.tasks.countP fun t => t.phase.occupies

def modify (p : Pool β) (ticket : Nat) (f : Task β → Task β) : Pool β :=
  { p with tasks := p.tasks.modify ticket f }

def outcome? (p : Pool β) (ticket : Nat) : Option Outcome :=
  p.tasks[ticket]?.bind fun t => t.phase.outcome?

def tryTake (p : Pool β) : Option (Outcome × Pool β) :=
  match p.done with
  | [] => none
  | ticket :: rest =>
    (p.outcome? ticket).map fun outcome =>
      (outcome, { p with done := rest }.modify ticket fun t => { t with taken := true })

def shutdownNow (p : Pool β) : Pool β := { p with shutDown := true }

/-- Whether a task has come to the head of the line while a slot is free. -/
def admits (p : Pool β) (ticket : Nat) : Bool := p.line.head? == some ticket && decide (0 < p.free)

def slotsOf (phase : Phase) : Nat := if phase.occupies then 1 else 0

/-- Whether a phase is a wait for a slot. -/
def inLine (phase : Phase) : Bool := phase.need == some .slot

/-- The line after a task has gone from one phase to another. -/
def lineAfter (line : List Nat) (ticket : Nat) (before after : Phase) : List Nat :=
  if inLine after then (if inLine before then line else line ++ [ticket])
  else line.erase ticket

def move (p : Pool β) (ticket : Nat) (before after : Phase) : Pool β :=
  { p.modify ticket fun t => { t with phase := after } with
    free := p.free + slotsOf before - slotsOf after
    line := lineAfter p.line ticket before after
    done := if after.outcome?.isSome then p.done ++ [ticket] else p.done }

def interrupt (p : Pool β) (ticket : Nat) : Option (Pool β) :=
  match p.tasks[ticket]? with
  | some t =>
    if p.shutDown && t.phase.interruptible then
      some (p.move ticket t.phase (.finished (.error (.interrupted t.operation.id))))
    else none
  | none => none

/-- How many steps the tasks have left, if none of them has to wait. -/
def weight (p : Pool β) : Nat :=
  p.tasks.foldr (fun t n => (if t.taken then 0 else t.phase.stepsLeft) + n) 0

end Pool

end PacedLoad
