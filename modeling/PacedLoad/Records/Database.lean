import PacedLoad.Keyed

/-!
# A database in memory

Tables of records under keys, a record being texts under field names.  A scan
goes through a table in the order of the keys.
-/

namespace PacedLoad.Records

/-- Field names with their values. -/
abbrev Record := Keyed String

inductive DbError
  | notFound (table key : String)
  | alreadyExists (table key : String)
  | invalidRequest (what : String)
  | failure (what : String)
deriving DecidableEq, Repr

def DbError.message : DbError → String
  | .notFound table key => s!"Record not found: {table}/{key}"
  | .alreadyExists table key => s!"Record already exists: {table}/{key}"
  | .invalidRequest what => s!"Invalid request: {what}"
  | .failure what => s!"Database failure: {what}"

def DbError.code : DbError → Int
  | .notFound .. => 1
  | .alreadyExists .. => 2
  | .invalidRequest _ => 3
  | .failure _ => -1

/-- Tables with their records, both by name. -/
structure Database where
  tables : Keyed (Keyed Record)
deriving DecidableEq, Repr

/-- The record with only the wanted fields; all are wanted when none are named. -/
def project (wanted : Option (List String)) (r : Record) : Record :=
  match wanted with
  | none => r
  | some names => r.filter fun e => names.contains e.1

namespace Database

def empty : Database := ⟨[]⟩

/-- The records of a table, if it is there. -/
def table? (db : Database) (name : String) : Option (Keyed Record) := Keyed.find? name db.tables

def setTable (db : Database) (name : String) (records : Keyed Record) : Database :=
  ⟨Keyed.insert name records db.tables⟩

def find? (db : Database) (table key : String) : Option Record :=
  (db.table? table).bind (Keyed.find? key)

def size (db : Database) (table : String) : Nat := (db.table? table).elim 0 List.length

def read (db : Database) (table key : String) (wanted : Option (List String)) :
    Except DbError Record :=
  match db.find? table key with
  | none => .error (.notFound table key)
  | some r => .ok (project wanted r)

/-- The wanted fields of at most `count` records, from the first key that is not below
`start`. -/
def scan (db : Database) (table start : String) (count : Nat) (wanted : Option (List String)) :
    List Record :=
  match db.table? table with
  | none => []
  | some records =>
    ((Keyed.startingAt start records).take count).map fun e => project wanted e.2

def update (db : Database) (table key : String) (values : Record) :
    Database × Except DbError Unit :=
  let updated? := (db.table? table).bind fun records =>
    (Keyed.find? key records).map fun r => Keyed.insert key (Keyed.merge r values) records
  match updated? with
  | none => (db, .error (.notFound table key))
  | some records => (db.setTable table records, .ok ())

/-- Adds a record under a new key.  The table is there afterwards in any case. -/
def insert (db : Database) (table key : String) (values : Record) :
    Database × Except DbError Unit :=
  let records := (db.table? table).getD []
  let opened := db.setTable table records
  if Keyed.contains key records then (opened, .error (.alreadyExists table key))
  else (opened.setTable table (Keyed.insert key values records), .ok ())

/-- Removes a record; its table stays. -/
def delete (db : Database) (table key : String) : Database × Except DbError Unit :=
  let shorter? := (db.table? table).bind fun records =>
    if Keyed.contains key records then some (Keyed.erase key records) else none
  match shorter? with
  | none => (db, .error (.notFound table key))
  | some records => (db.setTable table records, .ok ())

end Database

end PacedLoad.Records
