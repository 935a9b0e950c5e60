import Mathlib.Data.Finmap
import Mathlib.Data.Finset.Sort
import PacedLoad.Proofs.Text.Utf8
import PacedLoad.Records.Database

/-!
# A plain map of records

What clients of a database may rely on, without tables: a map from pairs of a table
and a key to records, a record being a map from field names to texts.  Tables exist
only as the first halves of the pairs.
-/

namespace PacedLoad.Records

inductive Call
  | read (table key : String) (wanted : Option (List String))
  | scan (table start : String) (count : Nat) (wanted : Option (List String))
  | update (table key : String) (values : {r : Record // Keyed.Sorted r})
  | insert (table key : String) (values : {r : Record // Keyed.Sorted r})
  | delete (table key : String)

inductive Reply (ρ : Type)
  | done
  | record (r : ρ)
  | records (rs : List ρ)

def Reply.map {ρ τ : Type} (f : ρ → τ) : Reply ρ → Reply τ
  | .done => .done
  | .record r => .record (f r)
  | .records rs => .records (rs.map f)

/-- The key of a table that a call may change. -/
def Call.target? : Call → Option (String × String)
  | .read .. | .scan .. => none
  | .update table key _ | .insert table key _ | .delete table key => some (table, key)

namespace Database

def call (db : Database) : Call → Database × Except DbError (Reply Record)
  | .read table key wanted => (db, (db.read table key wanted).map .record)
  | .scan table start count wanted => (db, .ok (.records (db.scan table start count wanted)))
  | .update table key values =>
    let (db, done) := db.update table key values.1
    (db, done.map fun _ => .done)
  | .insert table key values =>
    let (db, done) := db.insert table key values.1
    (db, done.map fun _ => .done)
  | .delete table key =>
    let (db, done) := db.delete table key
    (db, done.map fun _ => .done)

def calls (db : Database) : List Call → Database × List (Except DbError (Reply Record))
  | [] => (db, [])
  | c :: rest =>
    let (next, answer) := db.call c
    let (last, answers) := next.calls rest
    (last, answer :: answers)

end Database

/-- The values of a record under the names of its fields. -/
abbrev Fields := String → Option String

def fields (r : Record) : Fields := fun name => Keyed.find? name r

/-- The wanted fields; all are wanted when none are named. -/
def Fields.only (wanted : Option (List String)) (r : Fields) : Fields :=
  match wanted with
  | none => r
  | some names => fun name => if name ∈ names then r name else none

/-- The fields, with those of `news` added or put in place of the ones that were there. -/
def Fields.override (r news : Fields) : Fields := fun name => (news name).or (r name)

/-- The records under tables and keys. -/
abbrev Contents := Finmap fun _ : String × String => Fields

/-- One key is not above another one in the order of their bytes. -/
def BytesLe (a b : String) : Prop := Text.bytesOf a ≤ Text.bytesOf b

instance : DecidableRel BytesLe := fun a b =>
  inferInstanceAs (Decidable (Text.bytesOf a ≤ Text.bytesOf b))

theorem bytesLe_iff {a b : String} : BytesLe a b ↔ a ≤ b := by
  rw [BytesLe, ← List.not_lt, ← not_lt, Text.lt_iff_bytesOf_lt]

instance : IsTrans String BytesLe where
  trans _ _ _ first second :=
    bytesLe_iff.mpr (le_trans (bytesLe_iff.mp first) (bytesLe_iff.mp second))

instance : Std.Antisymm BytesLe where
  antisymm _ _ first second := le_antisymm (bytesLe_iff.mp first) (bytesLe_iff.mp second)

instance : Std.Total BytesLe where
  total a b := (le_total a b).imp bytesLe_iff.mpr bytesLe_iff.mpr

namespace Contents

variable (m : Contents)

def keysOf (table : String) : Finset String :=
  (m.keys.filter fun place => place.1 = table).image Prod.snd

def len (table : String) : Nat := (m.keysOf table).card

/-- The wanted fields of the records under the first keys of a table from `start` on, ascending by
the bytes of the keys. -/
def scan (table start : String) (count : Nat) (wanted : Option (List String)) : List Fields :=
  ((((m.keysOf table).filter fun key => BytesLe start key).sort BytesLe).take count).filterMap
    fun key => (m.lookup (table, key)).map (Fields.only wanted)

def call : Call → Contents × Except DbError (Reply Fields)
  | .read table key wanted =>
    match m.lookup (table, key) with
    | none => (m, .error (.notFound table key))
    | some r => (m, .ok (.record (r.only wanted)))
  | .scan table start count wanted => (m, .ok (.records (m.scan table start count wanted)))
  | .update table key values =>
    match m.lookup (table, key) with
    | none => (m, .error (.notFound table key))
    | some r => (m.insert (table, key) (r.override (fields values.1)), .ok .done)
  | .insert table key values =>
    match m.lookup (table, key) with
    | none => (m.insert (table, key) (fields values.1), .ok .done)
    | some _ => (m, .error (.alreadyExists table key))
  | .delete table key =>
    match m.lookup (table, key) with
    | none => (m, .error (.notFound table key))
    | some _ => (m.erase (table, key), .ok .done)

def calls (m : Contents) : List Call → Contents × List (Except DbError (Reply Fields))
  | [] => (m, [])
  | c :: rest =>
    let (next, answer) := m.call c
    let (last, answers) := next.calls rest
    (last, answer :: answers)

end Contents

end PacedLoad.Records
