import PacedLoad.Command.Folder
import PacedLoad.Rows.Operations
import PacedLoad.Run.Records
import PacedLoad.Run.Schedule
import PacedLoad.Stats.Json
import PacedLoad.Watermark.Board

/-!
# The command line

Operations come from a file, the configuration from another one or from the
standard values.  The command prints the final snapshot, or why there is none.
-/

namespace PacedLoad.Command

def help : String :=
  "Cadence Driver - scheduled benchmark operations against an in-memory database\n\n" ++
  "USAGE:\n    cadence-driver [OPTIONS] <OPERATIONS>\n\n" ++
  "ARGUMENTS:\n    <OPERATIONS>        Delimited rows: kind|scheduled_ms|dependency_ms|params_json\n\n" ++
  "OPTIONS:\n    --config <PATH>     Load driver configuration from JSON file\n" ++
  "    --help              Print this help message\n\n" ++
  "ENVIRONMENT VARIABLES:\n    RUST_LOG            Log level filter (default: info)\n\n"

inductive Request
  | run (config : Option String) (operations : String)
  | help
  /-- Some arguments are wrong, which is said in front of the help. -/
  | wrong (complaint : String)
  /-- The last argument needs a path after it. -/
  | unfinished
deriving DecidableEq, Repr

/-- Reads the arguments from left to right, with what is known so far. -/
def request (config operations : Option String) : List String → Request
  | [] =>
    match operations with
    | some path => .run config path
    | none => .wrong ""
  | arg :: rest =>
    if arg = "--help" || arg = "-h" then .help
    else if arg = "--config" || arg = "-c" then
      match rest with
      | path :: rest => request (some path) operations rest
      | [] => .unfinished
    else if operations.isNone && !arg.startsWith "-" then request config (some arg) rest
    else .wrong s!"Unknown argument: {arg}\n"

/-- What a command leaves behind: its exit code and its two outputs. -/
structure Exit where
  code : Nat
  output : String
  errors : String
deriving DecidableEq, Repr

def failed (what : String) : Exit := ⟨1, "", s!"Error: {what}\n"⟩

def finished : Except RunError Report → Exit
  | .ok report => ⟨0, report.snapshot.text ++ "\n", ""⟩
  | .error e => failed e.fieldText

def configOf (path : String) (content : Except FileError (List UInt8)) :
    Except ConfigError Config :=
  match content with
  | .error e => .error (.file path e.text)
  | .ok bytes =>
    match Text.ofBytes? bytes with
    | some text => Config.ofText text
    | none => .error (.file path Rows.notText)

def delimiter : String := "|"

/-- Whether a file can be opened.  A directory can, but it can not be read afterwards. -/
def opened {α : Type} : Except FileError α → Except FileError Unit
  | .ok _ | .error .isDirectory | .error .inputOutput => .ok ()
  | .error e => .error e

def operationsOf (complaint : String → String) (content : Except FileError (List UInt8)) :
    List (Except Rows.DecodingError Operation) :=
  match content with
  | .ok bytes => Rows.operations complaint delimiter bytes
  | .error e => [.error (.unreadable e.text)]

/-- The configuration of a command, once the file of operations was opened as well. -/
def prepare (config : Option (String × Except FileError (List UInt8)))
    (operations : Except FileError Unit) : Except Exit Config := do
  let config ←
    match config with
    | none => pure Config.standard
    | some (path, content) => (configOf path content).mapError fun e => failed e.fieldText
  operations.mapError fun e => failed e.fieldText
  return config

abbrev DatabaseRun := Run Records.Database Watermark.Board

/-- A run before its first step, or the end of a command that can not start one. -/
def start (now : Instant) (config : Config) (createLog : String → Except FileError Stats.Sink)
    (operations : List (Except Rows.DecodingError Operation)) :
    Except Exit DatabaseRun :=
  (Run.start config now createLog Records.work Records.Database.empty operations).mapError
    fun e => failed e.fieldText

def withoutRun : Request → Option Exit
  | .run .. => none
  | .help => some ⟨0, "", help⟩
  | .wrong complaint => some ⟨1, "", complaint ++ help⟩
  | .unfinished => some ⟨1, "", "Error: --config requires a path argument\n"⟩

def withLog (folder : Folder) (config : Config) : Folder :=
  match config.resultsLog with
  | some path => (folder.create path).toOption.getD folder
  | none => folder

/-- What a run writes to files, in that order.  A run that reported errors does not wait for its
log. -/
def written (run : DatabaseRun) (result : Except RunError Report) :
    List (String × String) :=
  let log := (run.config.resultsLog.map fun path => (path, run.logText)).toList
  match result with
  | .ok report =>
    log ++ (run.config.resultsJson.map fun path => (path, report.snapshot.text)).toList
  | .error _ => if run.journal.hasErrors then [] else log

/-- The end of a run whose files may lead to the outputs of the command. -/
def ended (folder : Folder) (run : DatabaseRun) (result : Except RunError Report) : Exit :=
  let files := written run result
  let e := finished result
  { e with
    output := folder.reaching .output files ++ e.output
    errors := folder.reaching .errors files ++ e.errors }

/-- A whole command, while the clock stands still.  There is no answer when the run does not
end then.  Operations are read after the log of results was made, which may have emptied their
file. -/
def answer (complaint : String → String) (now : Instant) (folder : Folder) (args : List String) :
    Option Exit :=
  match request none none args with
  | .run config operations =>
    let createLog (path : String) := (folder.create path).map fun _ => Stats.Sink.boundless
    match prepare (config.map fun path => (path, folder.read path))
        (opened (folder.read operations)) with
    | .error e => some e
    | .ok config =>
      let folder := withLog folder config
      match start now config createLog (operationsOf complaint (folder.read operations)) with
      | .error e => some e
      | .ok run =>
        let (run, result) := run.finish now folder.accepts
        result.map (ended folder run)
  | other => withoutRun other

end PacedLoad.Command
