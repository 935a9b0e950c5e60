import PacedLoad.Json.Tree
import PacedLoad.Records.Execute
import PacedLoad.Rows.Basic
import PacedLoad.Text.Numeral

/-!
# Operations in rows

Kind, start in milliseconds, dependency in milliseconds or nothing, and
parameters as JSON text.  The last column goes to the end of the line, with the
delimiters in it.  Operations are numbered in the order of the rows that decode.
What is said of a text that is not JSON is the `complaint` of whoever reads it.
-/

namespace PacedLoad.Rows

open Json (Value)

def millis? (column : String) : Option Nat := Text.natural? (Text.trim column)

/-- The dependency in the third column: none when it is absent or blank. -/
def dependency (row : Row) : Except DecodingError (Option Instant) :=
  let column := Text.trim (row.getD 2 "")
  if column.isEmpty then .ok none
  else
    match millis? column with
    | some n => .ok (some (Instant.ofMillis n))
    | none => .error (.invalidRow row s!"invalid dependency time '{column}'")

/-- The parameters in all columns from the fourth on: null when they are absent or blank. -/
def params (complaint : String → String) (delimiter : String) (row : Row) :
    Except DecodingError Value :=
  let text := String.intercalate delimiter (row.drop 3)
  if (Text.trim text).isEmpty then .ok .null
  else
    match Value.ofText? text with
    | some v => .ok v
    | none => .error (.invalidRow row s!"invalid params: {complaint text}")

/-- The start in the second column, of at least two. -/
def scheduledStart (row : Row) : Except DecodingError Instant :=
  match row with
  | _ :: column :: _ =>
    match millis? column with
    | some n => .ok (Instant.ofMillis n)
    | none => .error (.invalidRow row s!"invalid scheduled start '{column}'")
  | _ => .error (.invalidRow row s!"expected at least 2 columns, got {row.length}")

def kindOf (row : Row) : String := Text.trim (row.headD "")

variable (complaint : String → String)

def operation (delimiter : String) (id : Nat) (row : Row) : Except DecodingError Operation := do
  let start ← scheduledStart row
  let dependency ← dependency row
  let params ← params complaint delimiter row
  return ⟨id, kindOf row, start, dependency, params⟩

/-- Decodes a row with the next free number, and uses that number up only if it succeeds. -/
def decodeOperation (delimiter : String) (nextId : Nat) (row : Row) :
    Nat × Except DecodingError Operation :=
  match operation complaint delimiter nextId row with
  | .ok op => (nextId + 1, .ok op)
  | .error e => (nextId, .error e)

def operationDecoders (delimiter : String) : Decoders Nat Operation := fun key =>
  if Records.kinds.contains key then some (decodeOperation complaint delimiter) else none

def operations (delimiter : String) (bytes : List UInt8) : List (Except DecodingError Operation) :=
  decode (operationDecoders complaint delimiter) kindOf 0 (ofBytes delimiter bytes)

end PacedLoad.Rows
