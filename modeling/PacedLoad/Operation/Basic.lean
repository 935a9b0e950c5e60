import PacedLoad.Json.Value
import PacedLoad.Time.Basic

/-!
# Operations and their results

An operation is one unit of work with an earliest start.  It may also depend on
a time: then it waits until all work up to that time is complete.
-/

namespace PacedLoad

/-- One unit of work. -/
structure Operation where
  id : Nat
  kind : String
  scheduledStart : Instant
  /-- The completion time that must be reached before the operation may start. -/
  dependencyTime : Option Instant
  params : Json.Value
deriving BEq, Repr

/-- What became of an operation whose work ended with a status code. -/
structure OperationResult where
  operation : Operation
  actualStart : Instant
  runDuration : Span
  /-- Zero stands for success. -/
  resultCode : Int
  value : Json.Value
  /-- The start was late and a delay policy has already accepted that. -/
  lateStartAccepted : Bool
deriving BEq, Repr

def Operation.textParam? (op : Operation) (name : String) : Option String :=
  (op.params.member? name).bind Json.Value.text?

namespace OperationResult

def startDelay (r : OperationResult) : Span := r.actualStart.since r.operation.scheduledStart

def startedTooLate (r : OperationResult) (tolerated : Span) : Bool :=
  decide (r.operation.scheduledStart.plus tolerated < r.actualStart)

def finish (r : OperationResult) : Instant := r.actualStart.plus r.runDuration

end OperationResult

end PacedLoad
