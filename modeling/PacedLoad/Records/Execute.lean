import PacedLoad.Json.Text
import PacedLoad.Operation.Basic
import PacedLoad.Records.Database

/-!
# Operations on the database

The kind of an operation names the request, its parameters are the arguments.
All arguments are decoded before the database is touched.
-/

namespace PacedLoad.Records

open Json (Value)

inductive Query
  | read (table key : String) (wanted : Option (List String))
  | scan (table start : String) (count : Nat) (wanted : Option (List String))
  | update (table key : String) (values : Record)
  | insert (table key : String) (values : Record)
  | delete (table key : String)
deriving DecidableEq, Repr

def kinds : List String := ["read", "scan", "update", "insert", "delete"]

def missing (op : Operation) (param : String) : DbError :=
  .invalidRequest s!"operation {op.id} ({op.kind}) is missing '{param}'"

def requiredText (op : Operation) (param : String) : Except DbError String :=
  match op.textParam? param with
  | some s => .ok s
  | none => .error (missing op param)

def fieldName : Value → Except DbError String
  | .string s => .ok s
  | v => .error (.invalidRequest (s!"field name " ++ v.compact ++ " is not a string"))

/-- The wanted fields: all when the parameter is absent or null. -/
def wantedFields (op : Operation) : Except DbError (Option (List String)) :=
  match op.params.member? "fields" with
  | none | some .null => .ok none
  | some (.array names) => (names.mapM fieldName).map some
  | some v => .error (.invalidRequest ("fields must be an array, got " ++ v.compact))

/-- A value as it is stored: a string as it is, anything else as JSON text. -/
def storedText : Value → String
  | .string s => s
  | v => v.compact

def storedValues (op : Operation) : Except DbError Record :=
  match op.params.member? "values" with
  | some (.object members) => .ok (Keyed.ofList (members.map fun m => (m.1, storedText m.2)))
  | _ => .error (missing op "values")

def recordCount (op : Operation) : Except DbError Nat :=
  match (op.params.member? "record_count").bind Value.nat? with
  | some n => .ok n
  | none => .error (missing op "record_count")

def Query.ofOperation (op : Operation) : Except DbError Query := do
  let table ← requiredText op "table"
  let key ← requiredText op "key"
  match op.kind with
  | "read" => return .read table key (← wantedFields op)
  | "scan" => return .scan table key (← recordCount op) (← wantedFields op)
  | "update" => return .update table key (← storedValues op)
  | "insert" => return .insert table key (← storedValues op)
  | "delete" => return .delete table key
  | other => throw (.invalidRequest s!"unsupported operation kind '{other}'")

def recordJson (r : Record) : Value := .object (r.map fun e => (e.1, .string e.2))

def Query.run (db : Database) : Query → Database × Except DbError Value
  | .read table key wanted => (db, (db.read table key wanted).map recordJson)
  | .scan table start count wanted =>
    (db, .ok (.array ((db.scan table start count wanted).map recordJson)))
  | .update table key values =>
    let (db, done) := db.update table key values
    (db, done.map fun _ => .null)
  | .insert table key values =>
    let (db, done) := db.insert table key values
    (db, done.map fun _ => .null)
  | .delete table key =>
    let (db, done) := db.delete table key
    (db, done.map fun _ => .null)

/-- Executes an operation.  One that can not be decoded does not reach the database. -/
def execute (db : Database) (op : Operation) : Database × Except DbError Value :=
  match Query.ofOperation op with
  | .ok query => query.run db
  | .error e => (db, .error e)

end PacedLoad.Records
