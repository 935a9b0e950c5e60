import PacedLoad.Operation.Basic
import PacedLoad.Watermark.Service

/-!
# Outcomes of operations

What the body of an operation returns, and what comes of the operation as a
whole.
-/

namespace PacedLoad.Handler

structure Failure where
  message : String
  code : Int
deriving DecidableEq, Repr

def Failure.text (f : Failure) : String := f.message ++ s!" (code {f.code})"

/-- What a body made.  Code zero stands for success. -/
structure Product where
  code : Int
  value : Json.Value
deriving BEq, Repr

inductive BodyResult
  | returned (result : Except Failure Product)
  /-- The body broke off without returning. -/
  | panicked (message : String)

/-- The message of a body that broke off with something else than a text. -/
def unknownPanic : String := "unknown panic"

inductive ExecutionError
  | failure (id : Nat) (failure : Failure)
  | interrupted (id : Nat)
  | excessiveDelay (id : Nat) (delay : Span)
  | completionTime (id : Nat) (error : ServiceError)
  | panicked (id : Nat) (message : String)
  | shutDown
  | noRuntime (what : String)
deriving DecidableEq, Repr

namespace ExecutionError

def operationId? : ExecutionError → Option Nat
  | .failure id _ | .interrupted id | .excessiveDelay id _ | .completionTime id _
  | .panicked id _ => some id
  | .shutDown | .noRuntime _ => none

def message : ExecutionError → String
  | .failure id f => s!"Operation {id} failed: " ++ f.text
  | .interrupted id => s!"Operation {id} was interrupted"
  | .excessiveDelay id delay =>
    s!"Operation {id} started {delay} late and was rejected by the delay policy"
  | .completionTime id e =>
    s!"Operation {id} could not report completion time: " ++ Watermark.errorMessage e
  | .panicked id m => s!"Handler for operation {id} panicked: {m}"
  | .shutDown => "Handler executor is shut down"
  | .noRuntime what => s!"Failed to start handler runtime: {what}"

end ExecutionError

abbrev Outcome := Except ExecutionError OperationResult

def outcomeOf (op : Operation) (lateStartAccepted : Bool) (start : Instant) (run : Span) :
    Except Failure Product → Outcome
  | .error f => .error (.failure op.id f)
  | .ok p => .ok ⟨op, start, run, p.code, p.value, lateStartAccepted⟩

end PacedLoad.Handler
