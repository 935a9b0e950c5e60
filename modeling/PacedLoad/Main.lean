import PacedLoad.Command.Line
import Std.Time.DateTime.Timestamp

/-!
# The command

Reads the files, gives the parties of a run their turns while the clock of the
machine goes on, and writes what comes of it.
-/

namespace PacedLoad.Command

def machineTime : IO Instant := do
  return Instant.saturate (← Std.Time.Timestamp.now).toNanosecondsSinceUnixEpoch.toInt.toNat

def fileError : IO.Error → FileError
  | .noFileOrDirectory .. => .notFound
  | .permissionDenied .. => .permissionDenied
  | .hardwareFault .. => .inputOutput
  | .noSuchThing _ 6 _ => .noDevice
  | .invalidArgument _ 22 _ => .invalidArgument
  | .invalidArgument _ 36 _ => .nameTooLong
  | .resourceBusy 26 _ => .busy
  | .resourceExhausted _ 28 _ => .noSpace
  | .inappropriateType _ 20 _ => .notDirectory
  | .inappropriateType .. => .isDirectory
  | e => .other (toString e)

def attempt {α : Type} (act : IO α) : IO (Except FileError α) := do
  match ← act.toBaseIO with
  | .ok a => return .ok a
  | .error e => return .error (fileError e)

/-- Something done to the file at a path, which has to be one. -/
def attemptAt {α : Type} (path : String) (act : IO α) : IO (Except FileError α) :=
  match Folder.refusal path with
  | some e => return .error e
  | none => attempt act

def readFile (path : String) : IO (Except FileError (List UInt8)) := do
  return (← attemptAt path (IO.FS.readBinFile path)).map fun bytes => bytes.toList

def readRest (file : IO.FS.Handle) : IO (Except FileError (List UInt8)) := do
  return (← attempt file.readBinToEnd).map fun bytes => bytes.toList

def writeFile (path text : String) : IO (Except FileError Unit) :=
  attemptAt path (IO.FS.withFile path .write fun file => do file.putStr text; file.flush)

/-- Steps of one task until it waits. -/
partial def turn (ticket : Nat) (s : DatabaseRun) : IO DatabaseRun := do
  match s.step (.task ticket (← machineTime)) with
  | none => return s
  | some t => if t.floor.waits ticket then return t else turn ticket t

/-- Gives all parties their turns until only files are left to be written. -/
partial def drive (s : DatabaseRun) : IO DatabaseRun := do
  let start := s.weight
  let s := s.settleWorkers (← machineTime)
  let s ← s.floor.tickets.foldlM (fun s ticket => turn ticket ((s.step (.interruption ticket)).getD s)) s
  let s := s.settleWorkers (← machineTime)
  match s.stage with
  | .finished _ | .save .. => return s
  | _ =>
    let s := (s.step (.driver true)).getD s
    if start ≤ s.weight then IO.sleep 1
    drive s

/-- Prints the outputs of a command and leaves with its exit code. -/
def leave (e : Exit) : IO UInt32 := do
  IO.print e.output
  IO.eprint e.errors
  return UInt32.ofNat e.code

/-- Makes the log of results, if there is to be one. -/
def createLog (config : Config) : IO (Except FileError Unit) :=
  match config.validate, config.resultsLog with
  | .ok (), some path => writeFile path ""
  | _, _ => return .ok ()

/-- Writes the log of results, if there is one. -/
def writeLog (run : DatabaseRun) : IO Unit :=
  match run.config.resultsLog with
  | some path => discard (writeFile path run.logText)
  | none => return

/-- Writes the final snapshot, if it is to be written. -/
def writeSnapshot (run : DatabaseRun) : IO DatabaseRun := do
  match run.stage with
  | .save path report =>
    let written ← writeFile path report.snapshot.text
    return (run.step (.file written)).getD run
  | _ => return run

/-- Runs operations from one file as another one says. -/
def perform (config : Option String) (operations : String) : IO UInt32 := do
  let config ← config.mapM fun path => return (path, ← readFile path)
  let file ← attemptAt operations (IO.FS.Handle.mk operations .read)
  match prepare config (opened file), file with
  | .error e, _ => leave e
  | .ok _, .error e => leave (failed e.fieldText)
  | .ok config, .ok file =>
    let log ← createLog config
    let rows := operationsOf (fun _ => "not JSON") (← readRest file)
    match start (← machineTime) config (fun _ => log.map fun _ => .boundless) rows with
    | .error e => leave e
    | .ok run =>
      let run ← drive run
      writeLog run
      let run ← writeSnapshot run
      leave ((run.result?.map finished).getD (failed "the run has no end"))

end PacedLoad.Command

def main (args : List String) : IO UInt32 :=
  open PacedLoad.Command in
  match request none none args with
  | .run config operations => perform config operations
  | other => leave ((withoutRun other).getD (failed "nothing to do"))
