import PacedLoad.Proofs.Entries
import PacedLoad.Proofs.Keyed
import PacedLoad.Proofs.Records.Calls

/-!
# The database behaves like a plain map

A table that is not there looks like one whose records are all deleted: only the
records under their tables and keys count.  Every call keeps the database and the
plain map together and is answered alike by both.
-/

namespace PacedLoad.Records

/-! ## Records -/

theorem fields_project (wanted : Option (List String)) (r : Record) :
    fields (project wanted r) = (fields r).only wanted := by
  cases wanted with
  | none => rfl
  | some names =>
    funext name
    simp only [fields, project, Fields.only]
    rw [Keyed.find?_filter (fun k => names.contains k)]
    simp

theorem fields_merge (r : Record) {values : Record} (sorted : Keyed.Sorted values) :
    fields (Keyed.merge r values) = (fields r).override (fields values) := by
  funext name
  exact Keyed.find?_merge sorted r name

theorem sorted_project {r : Record} (sorted : Keyed.Sorted r) (wanted : Option (List String)) :
    Keyed.Sorted (project wanted r) := by
  cases wanted with
  | none => exact sorted
  | some names => exact sorted.filter _

/-! ## Tables -/

namespace Database

variable {db : Database} {table : String}

theorem table?_setTable (db : Database) (table : String) (records : Keyed Record) (name : String) :
    (db.setTable table records).table? name =
      if name = table then some records else db.table? name := by
  unfold table? setTable
  split
  next same => rw [same, Keyed.find?_insert_self]
  next other => exact Keyed.find?_insert_of_ne other records db.tables

theorem find?_setTable (db : Database) (table : String) (records : Keyed Record)
    (name key : String) :
    (db.setTable table records).find? name key =
      if name = table then Keyed.find? key records else db.find? name key := by
  rw [find?, table?_setTable]
  split
  next => rfl
  next => rfl

/-- The records of a table, none if it is not there. -/
theorem find?_getD (db : Database) (table key : String) :
    Keyed.find? key ((db.table? table).getD []) = db.find? table key := by
  unfold find?
  cases db.table? table <;> rfl

theorem scan_eq (db : Database) (table start : String) (count : Nat)
    (wanted : Option (List String)) :
    db.scan table start count wanted =
      ((Keyed.startingAt start ((db.table? table).getD [])).take count).map
        fun e => project wanted e.2 := by
  unfold scan
  cases db.table? table with
  | none => simp [Keyed.startingAt]
  | some records => rfl

theorem update_eq (db : Database) (table key : String) (values : Record) :
    db.update table key values =
      match db.find? table key with
      | none => (db, .error (.notFound table key))
      | some r => (db.setTable table
          (Keyed.insert key (Keyed.merge r values) ((db.table? table).getD [])), .ok ()) := by
  unfold update find?
  cases db.table? table with
  | none => rfl
  | some records => cases found : Keyed.find? key records <;> simp [found]

theorem insert_eq (db : Database) (table key : String) (values : Record) :
    db.insert table key values =
      let opened := db.setTable table ((db.table? table).getD [])
      match db.find? table key with
      | some _ => (opened, .error (.alreadyExists table key))
      | none => (opened.setTable table
          (Keyed.insert key values ((opened.table? table).getD [])), .ok ()) := by
  simp only [insert, Keyed.contains, find?_getD, table?_setTable, if_pos, Option.getD_some]
  cases db.find? table key <;> rfl

theorem delete_eq (db : Database) (table key : String) :
    db.delete table key =
      match db.find? table key with
      | none => (db, .error (.notFound table key))
      | some _ => (db.setTable table (Keyed.erase key ((db.table? table).getD [])), .ok ()) := by
  unfold delete find?
  cases db.table? table with
  | none => rfl
  | some records => cases found : Keyed.find? key records <;> simp [found, Keyed.contains]

end Database

/-! ## The database and the map together -/

/-- A database holds the records of a plain map. -/
structure Holds (db : Database) (m : Contents) : Prop where
  tables : ∀ table, Keyed.Sorted ((db.table? table).getD [])
  records : ∀ table key r, db.find? table key = some r → Keyed.Sorted r
  same : ∀ table key, (db.find? table key).map fields = m.lookup (table, key)

/-- The records of an answer are in the order of their fields. -/
def Ordered : Except DbError (Reply Record) → Prop
  | .ok (.record r) => Keyed.Sorted r
  | .ok (.records rs) => ∀ r ∈ rs, Keyed.Sorted r
  | _ => True

def view (answer : Except DbError (Reply Record)) : Except DbError (Reply Fields) :=
  answer.map (Reply.map fields)

variable {db : Database} {m : Contents}

theorem holds_empty : Holds Database.empty ∅ where
  tables _ := List.Pairwise.nil
  records := nofun
  same _ _ := rfl

/-- The records of one table change. -/
theorem Holds.put {m' : Contents} {table : String} {records : Keyed Record} (holds : Holds db m)
    (sorted : Keyed.Sorted records)
    (ordered : ∀ key r, Keyed.find? key records = some r → Keyed.Sorted r)
    (here : ∀ key, (Keyed.find? key records).map fields = m'.lookup (table, key))
    (others : ∀ name key, name ≠ table → m'.lookup (name, key) = m.lookup (name, key)) :
    Holds (db.setTable table records) m' where
  tables name := by
    rw [Database.table?_setTable]
    split
    next => exact sorted
    next => exact holds.tables name
  records name key r found := by
    rw [Database.find?_setTable] at found
    split at found
    next => exact ordered key r found
    next => exact holds.records name key r found
  same name key := by
    rw [Database.find?_setTable]
    split
    next same => rw [here, same]
    next other => rw [holds.same, others name key other]

theorem Holds.lookup_none {table key : String} (holds : Holds db m)
    (absent : db.find? table key = none) : m.lookup (table, key) = none := by
  rw [← holds.same, absent]
  rfl

theorem Holds.lookup_some {table key : String} {r : Record} (holds : Holds db m)
    (found : db.find? table key = some r) : m.lookup (table, key) = some (fields r) := by
  rw [← holds.same, found]
  rfl

/-- What one call keeps together. -/
def Agree (db : Database) (m : Contents) (c : Call) : Prop :=
  Holds (db.call c).1 (m.call c).1 ∧ view (db.call c).2 = (m.call c).2 ∧ Ordered (db.call c).2

theorem Holds.read (holds : Holds db m) (table key : String) (wanted : Option (List String)) :
    Agree db m (.read table key wanted) := by
  unfold Agree
  cases found : db.find? table key with
  | none =>
    simp only [Database.call, Database.read, found, Contents.call, holds.lookup_none found]
    exact ⟨holds, rfl, trivial⟩
  | some r =>
    simp only [Database.call, Database.read, found, Contents.call, holds.lookup_some found]
    refine ⟨holds, ?_, sorted_project (holds.records table key r found) wanted⟩
    rw [← fields_project]
    rfl

theorem mem_keysOf {table key : String} :
    key ∈ m.keysOf table ↔ ∃ r, m.lookup (table, key) = some r := by
  have stored : (table, key) ∈ m.keys ↔ ∃ r, m.lookup (table, key) = some r :=
    Finmap.mem_keys.trans Finmap.mem_iff
  rw [Contents.keysOf, Finset.mem_image, ← stored]
  constructor
  · rintro ⟨⟨name, key'⟩, member, rfl⟩
    obtain ⟨inside, rfl⟩ := Finset.mem_filter.mp member
    exact inside
  · exact fun inside => ⟨(table, key), Finset.mem_filter.mpr ⟨inside, rfl⟩, rfl⟩

/-- The keys of a table are those of its records. -/
theorem Holds.keysOf_eq (holds : Holds db m) (table : String) :
    m.keysOf table = (((db.table? table).getD []).map Prod.fst).toFinset := by
  ext key
  rw [mem_keysOf, ← holds.same, ← Database.find?_getD, List.mem_toFinset, List.mem_map]
  constructor
  · rintro ⟨r, found⟩
    obtain ⟨record, stored, -⟩ := Option.map_eq_some_iff.mp found
    exact ⟨(key, record), Keyed.mem_of_find? stored, rfl⟩
  · rintro ⟨⟨key, record⟩, member, rfl⟩
    exact ⟨fields record, by rw [Keyed.find?_of_mem (holds.tables table) member]; rfl⟩

theorem Holds.len (holds : Holds db m) (table : String) : db.size table = m.len table := by
  rw [Contents.len, holds.keysOf_eq,
    List.toFinset_card_of_nodup (Keyed.nodup_keys (holds.tables table)), List.length_map,
    Database.size]
  cases db.table? table <;> rfl

/-- The keys of a table from `start` on, in the order of their bytes. -/
theorem Holds.sort_keysOf (holds : Holds db m) (table start : String) :
    ((m.keysOf table).filter fun key => BytesLe start key).sort BytesLe =
      (Keyed.startingAt start ((db.table? table).getD [])).map Prod.fst := by
  have sorted := Keyed.sorted_startingAt (holds.tables table) start
  have keys : (m.keysOf table).filter (fun key => BytesLe start key) =
      ((Keyed.startingAt start ((db.table? table).getD [])).map Prod.fst).toFinset := by
    ext key
    rw [holds.keysOf_eq, Finset.mem_filter, List.mem_toFinset, List.mem_toFinset, List.mem_map,
      List.mem_map, bytesLe_iff]
    constructor
    · rintro ⟨⟨e, member, rfl⟩, notBelow⟩
      exact ⟨e, Keyed.mem_startingAt.mpr ⟨member, notBelow⟩, rfl⟩
    · rintro ⟨e, member, rfl⟩
      obtain ⟨inside, notBelow⟩ := Keyed.mem_startingAt.mp member
      exact ⟨⟨e, inside, rfl⟩, notBelow⟩
  rw [keys]
  refine (List.toFinset_sort BytesLe (Keyed.nodup_keys sorted)).mpr ?_
  refine List.pairwise_map.mpr (sorted.imp fun below => ?_)
  exact bytesLe_iff.mpr (le_of_lt below)

theorem Holds.scan (holds : Holds db m) (table start : String) (count : Nat)
    (wanted : Option (List String)) : Agree db m (.scan table start count wanted) := by
  have stored : ∀ e ∈ (Keyed.startingAt start ((db.table? table).getD [])).take count,
      db.find? table e.1 = some e.2 := by
    intro e member
    rw [← Database.find?_getD]
    exact Keyed.find?_of_mem (holds.tables table)
      (Keyed.mem_startingAt.mp (List.mem_of_mem_take member)).1
  refine ⟨holds, ?_, ?_⟩
  · have same : (db.scan table start count wanted).map fields = m.scan table start count wanted := by
      rw [Database.scan_eq, Contents.scan, holds.sort_keysOf, ← List.map_take, List.filterMap_map,
        List.map_map, ← List.filterMap_eq_map]
      refine List.filterMap_congr fun e member => ?_
      simp only [Function.comp_apply, holds.lookup_some (stored e member), Option.map_some,
        fields_project]
    exact congrArg (fun rs => Except.ok (Reply.records rs)) same
  · intro r member
    rw [Database.scan_eq] at member
    obtain ⟨e, inside, rfl⟩ := List.mem_map.mp member
    exact sorted_project (holds.records table e.1 e.2 (stored e inside)) wanted

/-- The records of a table with one more or another one under a key. -/
theorem Holds.store (holds : Holds db m) (table key : String) {r : Record}
    (sorted : Keyed.Sorted r) :
    Holds (db.setTable table (Keyed.insert key r ((db.table? table).getD [])))
      (m.insert (table, key) (fields r)) := by
  refine holds.put (Keyed.sorted_insert (holds.tables table) key r) ?_ ?_ ?_
  · intro key' r' found
    by_cases same : key' = key
    · subst same
      rw [Keyed.find?_insert_self] at found
      exact Option.some.inj found ▸ sorted
    · rw [Keyed.find?_insert_of_ne same, Database.find?_getD] at found
      exact holds.records table key' r' found
  · intro key'
    by_cases same : key' = key
    · rw [same, Keyed.find?_insert_self, Finmap.lookup_insert]
      rfl
    · rw [Keyed.find?_insert_of_ne same, Database.find?_getD, holds.same,
        Finmap.lookup_insert_of_ne m fun pair => same (congrArg Prod.snd pair)]
  · exact fun name key' other =>
      Finmap.lookup_insert_of_ne m fun pair => other (congrArg Prod.fst pair)

/-- A table that is opened holds what it held before. -/
theorem Holds.opened (holds : Holds db m) (table : String) :
    Holds (db.setTable table ((db.table? table).getD [])) m := by
  refine holds.put (holds.tables table) ?_ ?_ fun _ _ _ => rfl
  · intro key r found
    rw [Database.find?_getD] at found
    exact holds.records table key r found
  · intro key
    rw [Database.find?_getD, holds.same]

/-- The records of a table without the one under a key. -/
theorem Holds.remove (holds : Holds db m) (table key : String) :
    Holds (db.setTable table (Keyed.erase key ((db.table? table).getD [])))
      (m.erase (table, key)) := by
  refine holds.put (Keyed.sorted_erase (holds.tables table) key) ?_ ?_ ?_
  · intro key' r found
    rw [Keyed.find?_erase (holds.tables table)] at found
    split at found
    next => cases found
    next =>
      rw [Database.find?_getD] at found
      exact holds.records table key' r found
  · intro key'
    rw [Keyed.find?_erase (holds.tables table)]
    split
    next same => rw [same, Finmap.lookup_erase, Option.map_none]
    next other =>
      rw [Database.find?_getD, holds.same,
        Finmap.lookup_erase_ne fun pair => other (congrArg Prod.snd pair)]
  · exact fun name key' other =>
      Finmap.lookup_erase_ne fun pair => other (congrArg Prod.fst pair)

theorem Holds.update (holds : Holds db m) (table key : String)
    (values : {r : Record // Keyed.Sorted r}) : Agree db m (.update table key values) := by
  unfold Agree
  simp only [Database.call, Database.update_eq, Contents.call]
  cases found : db.find? table key with
  | none =>
    rw [holds.lookup_none found]
    exact ⟨holds, rfl, trivial⟩
  | some r =>
    have stored := holds.store table key
      (Keyed.sorted_merge (holds.records table key r found) values.1)
    rw [fields_merge r values.2] at stored
    rw [holds.lookup_some found]
    exact ⟨stored, rfl, trivial⟩

theorem Holds.insert (holds : Holds db m) (table key : String)
    (values : {r : Record // Keyed.Sorted r}) : Agree db m (.insert table key values) := by
  have opened := holds.opened table
  unfold Agree
  simp only [Database.call, Database.insert_eq, Contents.call]
  cases found : db.find? table key with
  | none =>
    rw [holds.lookup_none found]
    exact ⟨opened.store table key values.2, rfl, trivial⟩
  | some r =>
    rw [holds.lookup_some found]
    exact ⟨opened, rfl, trivial⟩

theorem Holds.delete (holds : Holds db m) (table key : String) :
    Agree db m (.delete table key) := by
  unfold Agree
  simp only [Database.call, Database.delete_eq, Contents.call]
  cases found : db.find? table key with
  | none =>
    rw [holds.lookup_none found]
    exact ⟨holds, rfl, trivial⟩
  | some r =>
    rw [holds.lookup_some found]
    exact ⟨holds.remove table key, rfl, trivial⟩

/-- Every call keeps the database and the map together. -/
theorem Holds.call (holds : Holds db m) (c : Call) : Agree db m c := by
  cases c with
  | read table key wanted => exact holds.read table key wanted
  | scan table start count wanted => exact holds.scan table start count wanted
  | update table key values => exact holds.update table key values
  | insert table key values => exact holds.insert table key values
  | delete table key => exact holds.delete table key

/-- So do several calls. -/
theorem Holds.calls (holds : Holds db m) (cs : List Call) :
    Holds (db.calls cs).1 (m.calls cs).1 ∧ (db.calls cs).2.map view = (m.calls cs).2 ∧
      ∀ answer ∈ (db.calls cs).2, Ordered answer := by
  induction cs generalizing db m with
  | nil => exact ⟨holds, rfl, nofun⟩
  | cons c rest ih =>
    obtain ⟨next, answer, ordered⟩ := holds.call c
    obtain ⟨last, answers, orderly⟩ := ih next
    refine ⟨last, ?_, ?_⟩
    · rw [Database.calls, Contents.calls, List.map_cons, answer, answers]
    · exact List.forall_mem_cons.mpr ⟨ordered, orderly⟩

/-! ## What clients can tell apart -/

theorem eq_of_fields {r r' : Record} (sorted : Keyed.Sorted r) (sorted' : Keyed.Sorted r')
    (same : fields r = fields r') : r = r' :=
  Keyed.eq_of_find? sorted sorted' (congrFun same)

/-- Ordered answers that look alike are equal. -/
theorem eq_of_view {a b : Except DbError (Reply Record)} (ordered : Ordered a) (ordered' : Ordered b)
    (same : view a = view b) : a = b := by
  match a, b, same with
  | .error e, .error e', same => exact congrArg _ (Except.error.inj same)
  | .ok .done, .ok .done, _ => rfl
  | .ok (.record r), .ok (.record r'), same =>
    rw [eq_of_fields ordered ordered' (Reply.record.inj (Except.ok.inj same))]
  | .ok (.records rs), .ok (.records rs'), same =>
    rw [eq_of_map_eq eq_of_fields ordered ordered' (Reply.records.inj (Except.ok.inj same))]

/-- No calls can tell two databases apart. -/
def Alike (db db' : Database) : Prop :=
  ∀ cs, (db.calls cs).2 = (db'.calls cs).2 ∧
    ∀ table, (db.calls cs).1.size table = (db'.calls cs).1.size table

/-- All that can be seen of a database is in the plain map. -/
theorem Holds.alike {db' : Database} (holds : Holds db m) (holds' : Holds db' m) :
    Alike db db' := by
  intro cs
  obtain ⟨last, answers, ordered⟩ := holds.calls cs
  obtain ⟨last', answers', ordered'⟩ := holds'.calls cs
  exact ⟨eq_of_map_eq eq_of_view ordered ordered' (answers.trans answers'.symm),
    fun table => (last.len table).trans (last'.len table).symm⟩

/-- What is alike in two maps is equal in the databases. -/
theorem Holds.find?_eq {db' : Database} {m' : Contents} (holds : Holds db m) (holds' : Holds db' m')
    {table key : String} (same : m.lookup (table, key) = m'.lookup (table, key)) :
    db.find? table key = db'.find? table key := by
  rw [← holds.same, ← holds'.same] at same
  cases found : db.find? table key with
  | none =>
    rw [found, Option.map_none] at same
    exact (Option.map_eq_none_iff.mp same.symm).symm
  | some r =>
    rw [found, Option.map_some] at same
    obtain ⟨r', found', equal⟩ := Option.map_eq_some_iff.mp same.symm
    rw [found', eq_of_fields (holds.records table key r found)
      (holds'.records table key r' found') equal.symm]

/-- A call that fails changes nothing. -/
theorem Contents.call_error {c : Call} {e : DbError} (failed : (m.call c).2 = .error e) :
    (m.call c).1 = m := by
  cases c with
  | read table key wanted | update table key values | insert table key values | delete table key =>
    unfold Contents.call at failed ⊢
    cases found : m.lookup (table, key) <;> simp [found] at failed ⊢
  | scan table start count wanted => rfl

/-- A call changes nothing but the record that it names. -/
theorem Contents.lookup_call {c : Call} {place : String × String} (other : c.target? ≠ some place) :
    (m.call c).1.lookup place = m.lookup place := by
  cases c with
  | read table key wanted =>
    cases found : m.lookup (table, key) <;> simp [Contents.call, found]
  | scan table start count wanted => rfl
  | update table key values | insert table key values =>
    have apart : place ≠ (table, key) := fun same => other (congrArg some same.symm)
    cases found : m.lookup (table, key) <;> simp [Contents.call, found, apart]
  | delete table key =>
    have apart : place ≠ (table, key) := fun same => other (congrArg some same.symm)
    cases found : m.lookup (table, key) <;> simp [Contents.call, found, apart]

/-- What clients may rely on after several calls. -/
structure Reliable (db : Database) (m : Contents) : Prop where
  len : ∀ table, db.size table = m.len table
  /-- A table that was emptied is like one that was never there. -/
  emptied : ∀ table, db.size table = 0 → ∀ start count wanted,
    db.scan table start count wanted = []
  /-- A call that fails leaves all that can be seen as it was. -/
  failed : ∀ c e, (db.call c).2 = .error e → Alike (db.call c).1 db
  /-- A call changes no record but the one that it names. -/
  others : ∀ c table key, c.target? ≠ some (table, key) → ∀ wanted,
    (db.call c).1.read table key wanted = db.read table key wanted

theorem Holds.reliable (holds : Holds db m) : Reliable db m where
  len := holds.len
  emptied table empty start count wanted := by
    have nothing : ((db.table? table).getD []).length = 0 := by
      rw [← empty, Database.size]
      cases db.table? table <;> rfl
    rw [Database.scan_eq, List.length_eq_zero_iff.mp nothing]
    simp [Keyed.startingAt]
  failed c e failed := by
    obtain ⟨after, answer, -⟩ := holds.call c
    rw [failed] at answer
    rw [Contents.call_error answer.symm] at after
    exact after.alike holds
  others c table key other wanted := by
    obtain ⟨after, -, -⟩ := holds.call c
    rw [Database.read, Database.read, after.find?_eq holds (Contents.lookup_call other)]

/-- After any calls the database has answered like the plain map, and keeps behaving like it. -/
theorem calls_reliable (cs : List Call) :
    let db := (Database.empty.calls cs).1
    let m := (Contents.calls ∅ cs).1
    (Database.empty.calls cs).2.map view = (Contents.calls ∅ cs).2 ∧
      (∀ answer ∈ (Database.empty.calls cs).2, Ordered answer) ∧ Reliable db m := by
  intro db m
  obtain ⟨holds, answers, ordered⟩ := holds_empty.calls cs
  exact ⟨answers, ordered, holds.reliable⟩

end PacedLoad.Records
