import PacedLoad.Proofs.Json.Value
import PacedLoad.Proofs.Records.Calls
import PacedLoad.Records.Execute

/-!
# What an operation asks for

An operation asks for a call if its kind is known and every parameter that the call needs
is there and has the right type.  Decoding finds exactly these calls, and whatever else an
operation holds makes its request invalid.
-/

namespace PacedLoad.Records

open Json (Value)

structure Names (op : Operation) (table key : String) : Prop where
  table : op.textParam? "table" = some table
  key : op.textParam? "key" = some key

/-- The fields that an operation wants: all when the parameter is absent or null, else those of an
array of strings. -/
inductive Wants (op : Operation) : Option (List String) → Prop
  | absent : op.params.member? "fields" = none → Wants op none
  | null : op.params.member? "fields" = some .null → Wants op none
  | only (names : List String) :
    op.params.member? "fields" = some (.array (names.map .string)) → Wants op (some names)

/-- The text as which a value is written: a string verbatim, any other value as its compact JSON
text. -/
def written : Value → String
  | .string s => s
  | .null => "null"
  | .bool true => "true"
  | .bool false => "false"
  | .int n => toString n
  | .double x => Json.doubleText x
  | .array items => "[" ++ ",".intercalate (items.map Value.compact) ++ "]"
  | .object members =>
    "\x7b" ++ ",".intercalate (members.map fun m => Json.quote m.1 ++ ":" ++ m.2.compact) ++ "\x7d"

def recordOf (members : List (String × Value)) : {r : Record // Keyed.Sorted r} :=
  ⟨Keyed.ofList (members.map fun m => (m.1, written m.2)), Keyed.sorted_ofList _⟩

/-- The call that an operation asks for, by its kind and its parameters. -/
inductive Asks (op : Operation) : Call → Prop
  | read {table key : String} {wanted : Option (List String)} :
    op.kind = "read" → Names op table key → Wants op wanted → Asks op (.read table key wanted)
  | scan {table start : String} {count : Nat} {wanted : Option (List String)} :
    op.kind = "scan" → Names op table start →
    op.params.member? "record_count" = some (.nat count) → Wants op wanted →
    Asks op (.scan table start count wanted)
  | update {table key : String} {members : List (String × Value)} :
    op.kind = "update" → Names op table key →
    op.params.member? "values" = some (.object members) →
    Asks op (.update table key (recordOf members))
  | insert {table key : String} {members : List (String × Value)} :
    op.kind = "insert" → Names op table key →
    op.params.member? "values" = some (.object members) →
    Asks op (.insert table key (recordOf members))
  | delete {table key : String} :
    op.kind = "delete" → Names op table key → Asks op (.delete table key)

/-! ## Parameters -/

variable {op : Operation}

theorem bind_eq_ok {ε α β : Type} {x : Except ε α} {f : α → Except ε β} {b : β} :
    (x >>= f) = .ok b ↔ ∃ a, x = .ok a ∧ f a = .ok b := by
  cases x with
  | error e => exact ⟨nofun, fun ⟨_, wrong, _⟩ => nomatch wrong⟩
  | ok a => exact ⟨fun h => ⟨a, rfl, h⟩, fun ⟨_, same, h⟩ => by cases same; exact h⟩

theorem requiredText_eq_ok {param text : String} :
    requiredText op param = .ok text ↔ op.textParam? param = some text := by
  unfold requiredText
  cases op.textParam? param <;> simp

theorem fieldName_eq_ok {v : Value} {name : String} :
    fieldName v = .ok name ↔ v = .string name := by
  cases v <;> simp [fieldName]

theorem mapM_fieldName {items : List Value} {names : List String} :
    items.mapM fieldName = .ok names ↔ items = names.map .string := by
  induction items generalizing names with
  | nil => cases names <;> simp [pure, Except.pure]
  | cons item items ih =>
    simp only [List.mapM_cons, bind_eq_ok, fieldName_eq_ok, ih]
    constructor
    · rintro ⟨name, rfl, rest, rfl, same⟩
      cases same
      rfl
    · intro shape
      obtain ⟨name, rest, rfl, first, others⟩ := List.map_eq_cons_iff.mp shape.symm
      exact ⟨name, first.symm, rest, others.symm, rfl⟩

theorem wantedFields_eq_ok {wanted : Option (List String)} :
    wantedFields op = .ok wanted ↔ Wants op wanted := by
  constructor
  · intro decoded
    unfold wantedFields at decoded
    split at decoded
    next absent =>
      cases decoded
      exact .absent absent
    next null =>
      cases decoded
      exact .null null
    next items array =>
      cases found : items.mapM fieldName with
      | error e => simp [found, Except.map] at decoded
      | ok names =>
        rw [found] at decoded
        cases decoded
        exact .only names (by rw [array, mapM_fieldName.mp found])
    next => cases decoded
  · intro wants
    unfold wantedFields
    cases wants with
    | absent here => rw [here]
    | null here => rw [here]
    | only names here =>
      rw [here]
      dsimp only
      rw [mapM_fieldName.mpr rfl]
      rfl

theorem storedText_eq (v : Value) : storedText v = written v := by
  cases v with
  | bool b => cases b <;> rfl
  | array items => exact congrArg ("[" ++ · ++ "]") (Json.Value.compactItems_eq items)
  | object members =>
    exact congrArg ("\x7b" ++ · ++ "\x7d") (Json.Value.compactMembers_eq members)
  | _ => rfl

theorem storedValues_eq_ok {r : Record} :
    storedValues op = .ok r ↔
      ∃ members, op.params.member? "values" = some (.object members) ∧
        r = (recordOf members).1 := by
  unfold storedValues
  split
  next members found => simp [found, recordOf, storedText_eq, eq_comm]
  next other =>
    constructor
    · exact nofun
    · rintro ⟨members, found, -⟩
      exact absurd found (other members)

theorem recordCount_eq_ok {count : Nat} :
    recordCount op = .ok count ↔ op.params.member? "record_count" = some (.nat count) := by
  have natural : ∀ v : Value, v.nat? = some count ↔ v = .nat count := by
    intro v
    cases v with
    | int n =>
      cases n with
      | ofNat k =>
        simp only [Value.nat?, Value.nat, Option.some.injEq, Value.int.injEq]
        exact Int.ofNat_inj.symm
      | negSucc k => simp [Value.nat?, Value.nat]
    | null | bool _ | double _ | string _ | array _ | object _ => simp [Value.nat?, Value.nat]
  unfold recordCount
  split
  next n found =>
    obtain ⟨v, here, value⟩ := Option.bind_eq_some_iff.mp found
    rw [here, Except.ok.injEq, Option.some.injEq, ← natural, value, Option.some.injEq]
  next other =>
    constructor
    · exact nofun
    · intro here
      rw [here] at other
      cases other

/-! ## Decoding -/

def Call.query : Call → Query
  | .read table key wanted => .read table key wanted
  | .scan table start count wanted => .scan table start count wanted
  | .update table key values => .update table key values.1
  | .insert table key values => .insert table key values.1
  | .delete table key => .delete table key

/-- What is decoded was asked for. -/
theorem asks_of_ofOperation {q : Query} (decoded : Query.ofOperation op = .ok q) :
    ∃ c, Asks op c ∧ c.query = q := by
  unfold Query.ofOperation at decoded
  simp only [bind_eq_ok, requiredText_eq_ok] at decoded
  obtain ⟨table, named, key, keyed, decoded⟩ := decoded
  have names : Names op table key := ⟨named, keyed⟩
  split at decoded
  next kind =>
    obtain ⟨wanted, fields, same⟩ := bind_eq_ok.mp decoded
    cases same
    exact ⟨_, .read kind names (wantedFields_eq_ok.mp fields), rfl⟩
  next kind =>
    obtain ⟨count, counted, decoded⟩ := bind_eq_ok.mp decoded
    obtain ⟨wanted, fields, same⟩ := bind_eq_ok.mp decoded
    cases same
    exact ⟨_, .scan kind names (recordCount_eq_ok.mp counted) (wantedFields_eq_ok.mp fields), rfl⟩
  next kind =>
    obtain ⟨r, stored, same⟩ := bind_eq_ok.mp decoded
    obtain ⟨members, values, rfl⟩ := storedValues_eq_ok.mp stored
    cases same
    exact ⟨_, .update kind names values, rfl⟩
  next kind =>
    obtain ⟨r, stored, same⟩ := bind_eq_ok.mp decoded
    obtain ⟨members, values, rfl⟩ := storedValues_eq_ok.mp stored
    cases same
    exact ⟨_, .insert kind names values, rfl⟩
  next kind =>
    cases decoded
    exact ⟨_, .delete kind names, rfl⟩
  next => cases decoded

/-- What is asked for is decoded. -/
theorem ofOperation_of_asks {c : Call} (asks : Asks op c) :
    Query.ofOperation op = .ok c.query := by
  unfold Query.ofOperation
  simp only [bind_eq_ok, requiredText_eq_ok]
  cases asks with
  | read kind names wants =>
    refine ⟨_, names.table, _, names.key, ?_⟩
    simp only [kind]
    exact bind_eq_ok.mpr ⟨_, wantedFields_eq_ok.mpr wants, rfl⟩
  | scan kind names count wants =>
    refine ⟨_, names.table, _, names.key, ?_⟩
    simp only [kind]
    exact bind_eq_ok.mpr ⟨_, recordCount_eq_ok.mpr count,
      bind_eq_ok.mpr ⟨_, wantedFields_eq_ok.mpr wants, rfl⟩⟩
  | update kind names values | insert kind names values =>
    refine ⟨_, names.table, _, names.key, ?_⟩
    simp only [kind]
    exact bind_eq_ok.mpr ⟨_, storedValues_eq_ok.mpr ⟨_, values, rfl⟩, rfl⟩
  | delete kind names =>
    refine ⟨_, names.table, _, names.key, ?_⟩
    simp only [kind]
    rfl

/-- If there is an error, the request is called invalid. -/
def Invalid {α : Type} (x : Except DbError α) : Prop :=
  ∀ e, x = .error e → ∃ what, e = .invalidRequest what

theorem Invalid.bind {α β : Type} {x : Except DbError α} {f : α → Except DbError β}
    (first : Invalid x) (later : ∀ a, Invalid (f a)) : Invalid (x >>= f) := by
  cases x with
  | error e => exact fun e' same => first e' (congrArg Except.error (Except.error.inj same))
  | ok a => exact later a

theorem invalid_requiredText (op : Operation) (param : String) :
    Invalid (requiredText op param) := by
  intro e failed
  unfold requiredText at failed
  split at failed
  · cases failed
  · exact ⟨_, (Except.error.inj failed).symm⟩

theorem invalid_mapM_fieldName (items : List Value) : Invalid (items.mapM fieldName) := by
  induction items with
  | nil => exact nofun
  | cons item items ih =>
    rw [List.mapM_cons]
    refine Invalid.bind ?_ fun _ => ih.bind fun _ => nofun
    intro e failed
    cases item with
    | string s => cases failed
    | null | bool _ | int _ | double _ | array _ | object _ =>
      exact ⟨_, (Except.error.inj failed).symm⟩

theorem invalid_wantedFields (op : Operation) : Invalid (wantedFields op) := by
  intro e failed
  unfold wantedFields at failed
  split at failed
  next => cases failed
  next => cases failed
  next items _ =>
    cases found : items.mapM fieldName with
    | error e' =>
      rw [found] at failed
      cases failed
      exact invalid_mapM_fieldName items _ found
    | ok names =>
      rw [found] at failed
      cases failed
  next => exact ⟨_, (Except.error.inj failed).symm⟩

theorem invalid_storedValues (op : Operation) : Invalid (storedValues op) := by
  intro e failed
  unfold storedValues at failed
  split at failed
  · cases failed
  · exact ⟨_, (Except.error.inj failed).symm⟩

theorem invalid_recordCount (op : Operation) : Invalid (recordCount op) := by
  intro e failed
  unfold recordCount at failed
  split at failed
  · cases failed
  · exact ⟨_, (Except.error.inj failed).symm⟩

/-- What can not be decoded is an invalid request. -/
theorem invalid_ofOperation (op : Operation) : Invalid (Query.ofOperation op) := by
  refine (invalid_requiredText op _).bind fun table =>
    (invalid_requiredText op _).bind fun key => ?_
  split
  · exact (invalid_wantedFields op).bind fun _ => nofun
  · exact (invalid_recordCount op).bind fun _ => (invalid_wantedFields op).bind fun _ => nofun
  · exact (invalid_storedValues op).bind fun _ => nofun
  · exact (invalid_storedValues op).bind fun _ => nofun
  · exact nofun
  · exact fun e failed => ⟨_, (Except.error.inj failed).symm⟩

/-! ## Execution -/

def Reply.json : Reply Record → Value
  | .done => .null
  | .record r => recordJson r
  | .records rs => .array (rs.map recordJson)

theorem run_query (db : Database) (c : Call) :
    c.query.run db = ((db.call c).1, (db.call c).2.map Reply.json) := by
  cases c with
  | read table key wanted =>
    simp only [Call.query, Query.run, Database.call]
    cases db.read table key wanted <;> rfl
  | scan table start count wanted => rfl
  | update table key values =>
    simp only [Call.query, Query.run, Database.call]
    cases (db.update table key values.1).2 <;> rfl
  | insert table key values =>
    simp only [Call.query, Query.run, Database.call]
    cases (db.insert table key values.1).2 <;> rfl
  | delete table key =>
    simp only [Call.query, Query.run, Database.call]
    cases (db.delete table key).2 <;> rfl

/-- An operation that asks for a call makes it. -/
theorem execute_of_asks {c : Call} (db : Database) (asks : Asks op c) :
    execute db op = ((db.call c).1, (db.call c).2.map Reply.json) := by
  rw [execute, ofOperation_of_asks asks]
  exact run_query db c

/-- An operation that asks for nothing does not reach the database. -/
theorem execute_of_refused (db : Database) (refused : ∀ c, ¬ Asks op c) :
    ∃ what, execute db op = (db, .error (.invalidRequest what)) := by
  unfold execute
  cases decoded : Query.ofOperation op with
  | ok q =>
    obtain ⟨c, asks, -⟩ := asks_of_ofOperation decoded
    exact absurd asks (refused c)
  | error e =>
    obtain ⟨what, rfl⟩ := invalid_ofOperation op e decoded
    exact ⟨what, rfl⟩

theorem execute_cases (db : Database) (op : Operation) :
    (∃ c, Asks op c ∧ execute db op = ((db.call c).1, (db.call c).2.map Reply.json)) ∨
      ∃ what, execute db op = (db, .error (.invalidRequest what)) := by
  by_cases asked : ∃ c, Asks op c
  · obtain ⟨c, asks⟩ := asked
    exact .inl ⟨c, asks, execute_of_asks db asks⟩
  · exact .inr (execute_of_refused db fun c asks => asked ⟨c, asks⟩)

/-- An error of an operation is the error of its call, or the request was invalid. -/
theorem execute_error {db : Database} {e : DbError} (failed : (execute db op).2 = .error e) :
    (∃ c, (db.call c).2 = .error e ∧ (execute db op).1 = (db.call c).1) ∨
      ((∃ what, e = .invalidRequest what) ∧ (execute db op).1 = db) := by
  rcases execute_cases db op with ⟨c, -, executed⟩ | ⟨what, refused⟩
  · rw [executed] at failed ⊢
    cases answered : (db.call c).2 with
    | ok reply => simp [answered, Except.map] at failed
    | error e' =>
      rw [answered] at failed
      exact .inl ⟨c, answered.trans (congrArg _ (Except.error.inj failed)), rfl⟩
  · rw [refused] at failed ⊢
    exact .inr ⟨⟨what, (Except.error.inj failed).symm⟩, rfl⟩

end PacedLoad.Records
