import PacedLoad.Operation.Basic

/-!
# The log of results

A header and then one row for each result, four columns each.  Every column,
delimiter and line end is one write, and a row that fails stops at the write
that was refused.
-/

namespace PacedLoad.Stats

/-- Where a log is written: the text so far, the number of writes that were tried, a rule that may
refuse a write with an error text, and the error of flushing, if flushing fails.  The rule looks at
the number of earlier writes and the text so far, so that any write may fail. -/
structure Sink where
  text : String
  writes : Nat
  refusal : Nat → String → String → Option String
  flushError : Option String

namespace Sink

def boundless : Sink := ⟨"", 0, fun _ _ _ => none, none⟩

/-- A sink that refuses every write that would take it past `room` bytes. -/
def bounded (room : Nat) (flushError : Option String) : Sink where
  text := ""
  writes := 0
  refusal _ written piece :=
    if room < written.utf8ByteSize + piece.utf8ByteSize then some "disk full" else none
  flushError := flushError

def write (s : Sink) (piece : String) : Sink × Except String Unit :=
  let tried := { s with writes := s.writes + 1 }
  match s.refusal s.writes s.text piece with
  | some e => (tried, .error e)
  | none => ({ tried with text := s.text ++ piece }, .ok ())

def writeAll (s : Sink) : List String → Sink × Except String Unit
  | [] => (s, .ok ())
  | piece :: rest =>
    match s.write piece with
    | (s, .ok ()) => s.writeAll rest
    | (s, .error e) => (s, .error e)

end Sink

/-- A log with the text between its columns. -/
structure ResultsLog where
  delimiter : String
  sink : Sink

namespace ResultsLog

def header : List String :=
  ["operation_type", "scheduled_start_time", "actual_start_time", "execution_duration"]

/-- The columns of a result: its kind and three times in whole milliseconds. -/
def row (r : OperationResult) : List String :=
  [r.operation.kind, toString r.operation.scheduledStart.millis, toString r.actualStart.millis,
    toString r.runDuration.lowMillis]

def pieces (delimiter : String) (fields : List String) : List String :=
  fields.intersperse delimiter ++ ["\n"]

def writeFields (log : ResultsLog) (fields : List String) : ResultsLog × Except String Unit :=
  let (sink, r) := log.sink.writeAll (pieces log.delimiter fields)
  ({ log with sink }, r)

def create (sink : Sink) (delimiter : String) : ResultsLog × Except String Unit :=
  writeFields ⟨delimiter, sink⟩ header

def write (log : ResultsLog) (r : OperationResult) : ResultsLog × Except String Unit :=
  log.writeFields (row r)

def flush (log : ResultsLog) : Except String Unit :=
  match log.sink.flushError with
  | some e => .error e
  | none => .ok ()

/-- The text of a log of some results that nothing refused. -/
def textOf (delimiter : String) (results : List OperationResult) : String :=
  String.join ((header :: results.map row).flatMap (pieces delimiter))

end ResultsLog

end PacedLoad.Stats
