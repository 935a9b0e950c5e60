import PacedLoad.Proofs.Records.Refinement
import PacedLoad.Proofs.Records.Requests
import PacedLoad.Run.Records

/-!
# Answers from the history

What was executed on an empty database decides what every further operation answers:
the record under a key is the one that the last insertion gave, with the updates after
it.  An operation that fails, reads or scans leaves the database exactly as it was.
-/

namespace PacedLoad.Records

open Json (Value)

structure Executed where
  op : Operation
  answer : Except DbError Value

/-- The database after several operations, and what was executed, the oldest first. -/
def executeAll (db : Database) : List Operation → Database × List Executed
  | [] => (db, [])
  | op :: rest =>
    let (next, answer) := execute db op
    let (last, later) := executeAll next rest
    (last, ⟨op, answer⟩ :: later)

/-- The values that an operation gives; of two under one name the later stands. -/
def given (op : Operation) : Fields := fun name =>
  match op.params.member? "values" with
  | some (.object members) => (members.reverse.find? (·.1 = name)).map (written ·.2)
  | _ => none

instance (op : Operation) (table key : String) : Decidable (Names op table key) :=
  decidable_of_iff (op.textParam? "table" = some table ∧ op.textParam? "key" = some key)
    ⟨fun ⟨table, key⟩ => ⟨table, key⟩, fun ⟨table, key⟩ => ⟨table, key⟩⟩

/-- A successful operation of some kind on a key of a table. -/
def Executed.Did (e : Executed) (kind table key : String) : Prop :=
  e.op.kind = kind ∧ Names e.op table key ∧ e.answer.isOk = true

instance (e : Executed) (kind table key : String) : Decidable (e.Did kind table key) :=
  inferInstanceAs (Decidable (_ ∧ _ ∧ _))

/-- The record that the last insertion under a key and the updates after it have made. -/
def Produced (history : List Executed) (table key : String) (r : Fields) : Prop :=
  ∃ before first after, history = before ++ first :: after ∧ first.Did "insert" table key ∧
    (∀ e ∈ after, ¬ e.Did "insert" table key ∧ ¬ e.Did "delete" table key) ∧
    r = ((after.filter (·.Did "update" table key)).map (given ·.op)).foldl Fields.override
      (given first.op)

/-- A value is a record as an object: its fields in ascending order, each with a string. -/
def Shows (v : Value) (r : Fields) : Prop :=
  ∃ members, v = .object members ∧ Keyed.Sorted members ∧
    ∀ name, Keyed.find? name members = (r name).map .string

/-! ## The record under a key, operation by operation -/

/-- The record under a key after one more operation. -/
def trace (table key : String) (r : Option Fields) (e : Executed) : Option Fields :=
  if e.Did "insert" table key then some (given e.op)
  else if e.Did "delete" table key then none
  else if e.Did "update" table key then r.map (·.override (given e.op))
  else r

/-- The record under a key after all that was executed. -/
def traced (history : List Executed) (table key : String) : Option Fields :=
  history.foldl (trace table key) none

variable {history : List Executed} {table key : String} {r : Fields} {e : Executed}

theorem traced_concat (history : List Executed) (e : Executed) (table key : String) :
    traced (history ++ [e]) table key = trace table key (traced history table key) e := by
  rw [traced, List.foldl_append]
  rfl

theorem produced_concat : Produced (history ++ [e]) table key r ↔
    (e.Did "insert" table key ∧ r = given e.op) ∨
    (¬ e.Did "insert" table key ∧ ¬ e.Did "delete" table key ∧
      ∃ old, Produced history table key old ∧
        r = if e.Did "update" table key then old.override (given e.op) else old) := by
  constructor
  · rintro ⟨before, first, after, split, inserted, steady, rfl⟩
    rcases List.eq_nil_or_concat' after with rfl | ⟨after, last, rfl⟩
    · obtain ⟨-, same⟩ := List.append_inj' split rfl
      cases same
      exact .inl ⟨inserted, rfl⟩
    · rw [← List.cons_append, ← List.append_assoc] at split
      obtain ⟨rfl, same⟩ := List.append_inj' split rfl
      cases same
      obtain ⟨noInsert, noDelete⟩ := steady e (by simp)
      refine .inr ⟨noInsert, noDelete, _, ⟨before, first, after, rfl, inserted,
        fun later member => steady later (List.mem_append_left _ member), rfl⟩, ?_⟩
      split <;> simp [*]
  · rintro (⟨inserted, rfl⟩ | ⟨noInsert, noDelete, old, produced, rfl⟩)
    · exact ⟨history, e, [], rfl, inserted, nofun, rfl⟩
    · obtain ⟨before, first, after, rfl, inserted, steady, rfl⟩ := produced
      refine ⟨before, first, after ++ [e], by simp, inserted, fun later member => ?_, ?_⟩
      · rcases List.mem_append.mp member with inside | last
        · exact steady later inside
        · rw [List.mem_singleton.mp last]
          exact ⟨noInsert, noDelete⟩
      · split <;> simp [*]

/-- The record that is traced is the one that was produced. -/
theorem traced_eq_some_iff : traced history table key = some r ↔ Produced history table key r := by
  induction history using List.reverseRecOn generalizing r with
  | nil =>
    refine ⟨nofun, ?_⟩
    rintro ⟨before, first, after, split, -⟩
    exact absurd split.symm (by simp)
  | append_singleton history e ih =>
    rw [traced_concat, produced_concat, trace]
    split
    next inserted => simp [inserted, eq_comm]
    next noInsert =>
      split
      next deleted => simp [noInsert, deleted]
      next noDelete =>
        split
        next updated =>
          rw [Option.map_eq_some_iff]
          simp only [noInsert, noDelete, ih, false_and, false_or, not_false_iff, true_and,
            eq_comm (a := r)]
        next other => simp [noInsert, noDelete, ih]

theorem traced_eq_none_iff :
    traced history table key = none ↔ ¬ ∃ r, Produced history table key r := by
  rw [Option.eq_none_iff_forall_ne_some]
  simp only [ne_eq, traced_eq_some_iff, not_exists]

/-! ## Records as JSON -/

theorem shows_recordJson {r : Record} (sorted : Keyed.Sorted r) : Shows (recordJson r) (fields r) :=
  ⟨_, rfl, List.pairwise_map.mpr sorted,
    fun name => Keyed.find?_map (fun _ text => Value.string text) r name⟩

theorem fields_recordOf {op : Operation} {members : List (String × Value)}
    (values : op.params.member? "values" = some (.object members)) :
    fields (recordOf members).1 = given op := by
  funext name
  simp only [fields, recordOf, given, values]
  rw [Keyed.find?_ofList, ← List.map_reverse, List.find?_map, Option.map_map]
  rfl

/-! ## The database and its history -/

/-- A database holds the records that its history has produced. -/
structure Follows (db : Database) (history : List Executed) : Prop where
  tables : Keyed.Sorted db.tables
  holds : ∃ m, Holds db m ∧ ∀ table key, m.lookup (table, key) = traced history table key

theorem Names.iff {op : Operation} (names : Names op table key) {table' key' : String} :
    Names op table' key' ↔ table' = table ∧ key' = key := by
  constructor
  · intro named
    exact ⟨Option.some.inj (named.table.symm.trans names.table),
      Option.some.inj (named.key.symm.trans names.key)⟩
  · rintro ⟨rfl, rfl⟩
    exact names

/-- The plain map traces what an operation does. -/
theorem lookup_call_of_asks {op : Operation} {c : Call} {answer : Except DbError Value}
    (m : Contents) (asks : Asks op c) (same : answer.isOk = (m.call c).2.isOk)
    (table key : String) :
    (m.call c).1.lookup (table, key) = trace table key (m.lookup (table, key)) ⟨op, answer⟩ := by
  cases asks with
  | @read table' key' wanted kind names wants =>
    simp only [trace, Executed.Did, kind]
    cases found : m.lookup (table', key') <;> simp [Contents.call, found]
  | scan kind names count wants => simp [trace, Executed.Did, kind, Contents.call]
  | @update table' key' members kind names values | @insert table' key' members kind names values =>
    simp only [trace, Executed.Did, kind, names.iff, same]
    by_cases here : table = table' ∧ key = key'
    · obtain ⟨rfl, rfl⟩ := here
      cases found : m.lookup (table, key) <;>
        simp [Contents.call, found, Except.isOk, Except.toBool, fields_recordOf values]
    · rw [Contents.lookup_call fun target => here (by simpa [Call.target?, eq_comm] using target)]
      simp [here]
  | @delete table' key' kind names =>
    simp only [trace, Executed.Did, kind, names.iff, same]
    by_cases here : table = table' ∧ key = key'
    · obtain ⟨rfl, rfl⟩ := here
      cases found : m.lookup (table, key) <;>
        simp [Contents.call, found, Except.isOk, Except.toBool]
    · rw [Contents.lookup_call fun target => here (by simpa [Call.target?, eq_comm] using target)]
      simp [here]

theorem isOk_map {ε α β : Type} (f : α → β) (x : Except ε α) : (x.map f).isOk = x.isOk := by
  cases x <;> rfl

theorem sorted_call {db : Database} (sorted : Keyed.Sorted db.tables) (c : Call) :
    Keyed.Sorted (db.call c).1.tables := by
  cases c with
  | read table key wanted => exact sorted
  | scan table start count wanted => exact sorted
  | update table key values =>
    simp only [Database.call, Database.update_eq]
    split
    · exact sorted
    · exact Keyed.sorted_insert sorted _ _
  | insert table key values =>
    simp only [Database.call, Database.insert_eq]
    split
    · exact Keyed.sorted_insert sorted _ _
    · exact Keyed.sorted_insert (Keyed.sorted_insert sorted _ _) _ _
  | delete table key =>
    simp only [Database.call, Database.delete_eq]
    split
    · exact sorted
    · exact Keyed.sorted_insert sorted _ _

/-- A call that fails leaves every entry of the database where it was, and has a code of its own. -/
theorem call_of_error {db : Database} {c : Call} {e : DbError} (sorted : Keyed.Sorted db.tables)
    (failed : (db.call c).2 = .error e) : (db.call c).1 = db ∧ (e.code = 1 ∨ e.code = 2) := by
  cases c with
  | read table key wanted =>
    simp only [Database.call, Database.read] at failed
    split at failed
    · cases failed
      exact ⟨rfl, .inl rfl⟩
    · cases failed
  | scan table start count wanted => cases failed
  | update table key values =>
    simp only [Database.call, Database.update_eq] at failed ⊢
    split at failed
    · cases failed
      exact ⟨rfl, .inl rfl⟩
    · cases failed
  | insert table key values =>
    simp only [Database.call, Database.insert_eq] at failed ⊢
    cases found : db.find? table key with
    | none => simp [found, Except.map] at failed
    | some r =>
      rw [found] at failed
      cases failed
      obtain ⟨records, opened, -⟩ := Option.bind_eq_some_iff.mp found
      refine ⟨?_, .inr rfl⟩
      simp only [Database.setTable, opened, Option.getD_some, Keyed.insert_of_find? sorted opened]
  | delete table key =>
    simp only [Database.call, Database.delete_eq] at failed ⊢
    split at failed
    · cases failed
      exact ⟨rfl, .inl rfl⟩
    · cases failed

/-- Every operation adds itself to the history that the database follows. -/
theorem Follows.execute {db : Database} (follows : Follows db history) (op : Operation) :
    Follows (execute db op).1 (history ++ [⟨op, (execute db op).2⟩]) := by
  obtain ⟨m, holds, same⟩ := follows.holds
  rcases execute_cases db op with ⟨c, asks, executed⟩ | ⟨what, refused⟩
  · obtain ⟨next, answered, -⟩ := holds.call c
    rw [executed]
    refine ⟨sorted_call follows.tables c, (m.call c).1, next, fun table key => ?_⟩
    rw [traced_concat, ← same]
    refine lookup_call_of_asks m asks ?_ table key
    rw [← answered, isOk_map, view, isOk_map]
  · rw [refused]
    refine ⟨follows.tables, m, holds, fun table key => ?_⟩
    rw [traced_concat, ← same]
    simp [trace, Executed.Did, Except.isOk, Except.toBool]

theorem Follows.executeAll {db : Database} (follows : Follows db history) (ops : List Operation) :
    Follows (executeAll db ops).1 (history ++ (executeAll db ops).2) := by
  induction ops generalizing db history with
  | nil => simpa [Records.executeAll] using follows
  | cons op rest ih =>
    have later := ih (follows.execute op)
    rwa [List.append_assoc] at later

/-! ## What is answered -/

def product : Except DbError Value → Except Handler.Failure Handler.Product
  | .ok value => .ok ⟨0, value⟩
  | .error e => .error ⟨e.message, e.code⟩

/-- What an operation does to a database with a history, and what it answers. -/
structure Settles (history : List Executed) (db : Database) (op : Operation) (next : Database)
    (answer : Except DbError Value) : Prop where
  /-- The body returns, with code zero or with the code of the error. -/
  returns : work db op = some (next, .returned (product answer))
  code : ∀ e, answer = .error e → e.code = 1 ∨ e.code = 2 ∨ e.code = 3
  failed : ∀ e, answer = .error e → next = db
  looked : op.kind = "read" ∨ op.kind = "scan" → next = db
  refused : (∀ c, ¬ Asks op c) → ∃ what, answer = .error (.invalidRequest what)
  read : ∀ table key wanted, Asks op (.read table key wanted) →
    (∃ r v, Produced history table key r ∧ answer = .ok v ∧ Shows v (r.only wanted)) ∨
    ((¬ ∃ r, Produced history table key r) ∧ answer = .error (.notFound table key))
  /-- The keys from `start` on that have a record, in the order of their bytes. -/
  scan : ∀ table start count wanted, Asks op (.scan table start count wanted) →
    ∃ (keys : List String) (items : List Value),
      (keys.Pairwise fun a b => Text.bytesOf a < Text.bytesOf b) ∧
      (∀ key, key ∈ keys ↔ BytesLe start key ∧ ∃ r, Produced history table key r) ∧
      answer = .ok (.array items) ∧
      List.Forall₂ (fun key v => ∃ r, Produced history table key r ∧ Shows v (r.only wanted))
        (keys.take count) items
  update : ∀ table key values, Asks op (.update table key values) →
    ((∃ r, Produced history table key r) ∧ answer = .ok .null) ∨
    ((¬ ∃ r, Produced history table key r) ∧ answer = .error (.notFound table key))
  insert : ∀ table key values, Asks op (.insert table key values) →
    ((¬ ∃ r, Produced history table key r) ∧ answer = .ok .null) ∨
    ((∃ r, Produced history table key r) ∧ answer = .error (.alreadyExists table key))
  delete : ∀ table key, Asks op (.delete table key) →
    ((∃ r, Produced history table key r) ∧ answer = .ok .null) ∨
    ((¬ ∃ r, Produced history table key r) ∧ answer = .error (.notFound table key))

variable {db : Database}

theorem Follows.find?_map (follows : Follows db history) (table key : String) :
    (db.find? table key).map fields = traced history table key := by
  obtain ⟨m, holds, same⟩ := follows.holds
  rw [holds.same, same]

/-- There is a record under a key, or there is none. -/
theorem Follows.found (follows : Follows db history) (table key : String) :
    (∃ r, db.find? table key = some r ∧ Keyed.Sorted r ∧ Produced history table key (fields r)) ∨
    (db.find? table key = none ∧ ¬ ∃ r, Produced history table key r) := by
  obtain ⟨m, holds, -⟩ := follows.holds
  have traces := follows.find?_map table key
  cases found : db.find? table key with
  | none =>
    rw [found] at traces
    exact .inr ⟨rfl, traced_eq_none_iff.mp traces.symm⟩
  | some r =>
    rw [found] at traces
    exact .inl ⟨r, rfl, holds.records table key r found, traced_eq_some_iff.mp traces.symm⟩

theorem Follows.exists_find? (follows : Follows db history) {table key : String} :
    (∃ r, db.find? table key = some r) ↔ ∃ r, Produced history table key r := by
  rcases follows.found table key with ⟨r, found, -, produced⟩ | ⟨absent, nothing⟩
  · exact ⟨fun _ => ⟨_, produced⟩, fun _ => ⟨r, found⟩⟩
  · simp [absent, nothing]

theorem Follows.scan (follows : Follows db history) (table start : String) (count : Nat)
    (wanted : Option (List String)) :
    ∃ keys : List String, (keys.Pairwise fun a b => Text.bytesOf a < Text.bytesOf b) ∧
      (∀ key, key ∈ keys ↔ BytesLe start key ∧ ∃ r, Produced history table key r) ∧
      List.Forall₂ (fun key v => ∃ r, Produced history table key r ∧ Shows v (r.only wanted))
        (keys.take count) ((db.scan table start count wanted).map recordJson) := by
  obtain ⟨m, holds, -⟩ := follows.holds
  have sorted := holds.tables table
  have stored {e : String × Record} (member : e ∈ (db.table? table).getD []) :
      db.find? table e.1 = some e.2 := by
    rw [← Database.find?_getD]
    exact Keyed.find?_of_mem sorted member
  refine ⟨(Keyed.startingAt start ((db.table? table).getD [])).map Prod.fst, ?_, ?_, ?_⟩
  · refine List.pairwise_map.mpr ((Keyed.sorted_startingAt sorted start).imp fun below => ?_)
    exact Text.lt_iff_bytesOf_lt.mp below
  · intro key
    rw [bytesLe_iff, ← follows.exists_find?, List.mem_map]
    constructor
    · rintro ⟨e, member, rfl⟩
      obtain ⟨inside, notBelow⟩ := Keyed.mem_startingAt.mp member
      exact ⟨notBelow, e.2, stored inside⟩
    · rintro ⟨notBelow, r, found⟩
      rw [← Database.find?_getD] at found
      exact ⟨(key, r), Keyed.mem_startingAt.mpr ⟨Keyed.mem_of_find? found, notBelow⟩, rfl⟩
  · rw [Database.scan_eq, List.map_map, ← List.map_take, List.forall₂_map_left_iff,
      List.forall₂_map_right_iff, List.forall₂_same]
    intro e member
    have inside := (Keyed.mem_startingAt.mp (List.mem_of_mem_take member)).1
    have orderly := holds.records table e.1 e.2 (stored inside)
    have produced : Produced history table e.1 (fields e.2) := by
      rw [← traced_eq_some_iff, ← follows.find?_map, stored inside]
      rfl
    refine ⟨_, produced, ?_⟩
    rw [← fields_project]
    exact shows_recordJson (sorted_project orderly wanted)

/-- The answers of a database are those of its history. -/
theorem Follows.settles (follows : Follows db history) (op : Operation) :
    Settles history db op (Records.execute db op).1 (Records.execute db op).2 where
  returns := by
    unfold work product
    rcases Records.execute db op with ⟨next, e | v⟩ <;> rfl
  code e failed := by
    rcases execute_error failed with ⟨c, answered, -⟩ | ⟨⟨what, rfl⟩, -⟩
    · exact (call_of_error follows.tables answered).2.imp_right .inl
    · exact .inr (.inr rfl)
  failed e failed := by
    rcases execute_error failed with ⟨c, answered, next⟩ | ⟨-, next⟩
    · exact next.trans (call_of_error follows.tables answered).1
    · exact next
  looked kind := by
    rcases execute_cases db op with ⟨c, asks, executed⟩ | ⟨what, refused⟩
    · rw [executed]
      cases asks with
      | read | scan => rfl
      | update kind' | insert kind' | delete kind' => simp [kind'] at kind
    · rw [refused]
  refused none := by
    obtain ⟨what, refused⟩ := execute_of_refused db none
    exact ⟨what, congrArg Prod.snd refused⟩
  read table key wanted asks := by
    rw [execute_of_asks db asks]
    simp only [Database.call, Database.read]
    rcases follows.found table key with ⟨r, found, sorted, produced⟩ | ⟨absent, nothing⟩
    · rw [found]
      refine .inl ⟨_, _, produced, rfl, ?_⟩
      rw [← fields_project]
      exact shows_recordJson (sorted_project sorted wanted)
    · rw [absent]
      exact .inr ⟨nothing, rfl⟩
  scan table start count wanted asks := by
    obtain ⟨keys, ascending, members, shown⟩ := follows.scan table start count wanted
    refine ⟨keys, _, ascending, members, ?_, shown⟩
    rw [execute_of_asks db asks]
    rfl
  update table key values asks := by
    rw [execute_of_asks db asks]
    simp only [Database.call, Database.update_eq]
    rcases follows.found table key with ⟨r, found, -, produced⟩ | ⟨absent, nothing⟩
    · rw [found]
      exact .inl ⟨⟨_, produced⟩, rfl⟩
    · rw [absent]
      exact .inr ⟨nothing, rfl⟩
  insert table key values asks := by
    rw [execute_of_asks db asks]
    simp only [Database.call, Database.insert_eq]
    rcases follows.found table key with ⟨r, found, -, produced⟩ | ⟨absent, nothing⟩
    · rw [found]
      exact .inr ⟨⟨_, produced⟩, rfl⟩
    · rw [absent]
      exact .inl ⟨nothing, rfl⟩
  delete table key asks := by
    rw [execute_of_asks db asks]
    simp only [Database.call, Database.delete_eq]
    rcases follows.found table key with ⟨r, found, -, produced⟩ | ⟨absent, nothing⟩
    · rw [found]
      exact .inl ⟨⟨_, produced⟩, rfl⟩
    · rw [absent]
      exact .inr ⟨nothing, rfl⟩

end PacedLoad.Records
