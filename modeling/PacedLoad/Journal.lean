import PacedLoad.Operation.Basic
import PacedLoad.Text.Fields

/-!
# The journal of a run

All parts of a run share one journal.  Errors that some part can not hand to a
caller are reported in it, and whoever waits for an answer looks there.  It also
keeps what was logged and which operations the delay policy was asked about.
-/

namespace PacedLoad

inductive Level
  | error | warning
deriving DecidableEq, Repr

structure ReportedError where
  source : String
  message : String
deriving DecidableEq, Repr

/-- What was reported, logged and asked so far, the oldest first. -/
structure Journal where
  errors : List ReportedError
  lines : List (Level × String)
  judged : List Operation
deriving Repr

def ReportedError.text (e : ReportedError) : String := "[" ++ e.source ++ "] " ++ e.message

namespace Journal

def empty : Journal := ⟨[], [], []⟩

def log (j : Journal) (level : Level) (line : String) : Journal :=
  { j with lines := j.lines ++ [(level, line)] }

def report (j : Journal) (source message : String) : Journal :=
  let e : ReportedError := ⟨source, message⟩
  { j.log .error e.text with errors := j.errors ++ [e] }

def hasErrors (j : Journal) : Bool := !j.errors.isEmpty

def text (j : Journal) : String := String.intercalate "\n" (j.errors.map ReportedError.text)

def fieldText (j : Journal) : String :=
  let one (e : ReportedError) := Text.withFields "ReportedError"
    [("source", Text.quoted e.source), ("message", Text.quoted e.message)]
  Text.withFields "ErrorReporter"
    [("errors", "[" ++ String.intercalate ", " (j.errors.map one) ++ "]")]

@[simp] theorem errors_report (j : Journal) (source message : String) :
    (j.report source message).errors = j.errors ++ [⟨source, message⟩] := rfl

@[simp] theorem hasErrors_report (j : Journal) (source message : String) :
    (j.report source message).hasErrors = true := by
  simp [hasErrors, report]

@[simp] theorem errors_log (j : Journal) (level : Level) (line : String) :
    (j.log level line).errors = j.errors := rfl

end Journal

end PacedLoad
