import Mathlib.Data.List.Forall2
import PacedLoad.Proofs.Text.Lines
import PacedLoad.Proofs.Text.Numeral
import PacedLoad.Rows.Operations

/-!
# Lines that answer for themselves

Every line that is not blank gives one item, in the order of the lines.  All of the item
but a number depends on its line alone, and the numbers count the items before it that
are operations: a row that fails uses none up.
-/

namespace PacedLoad.Rows

/-- Whether a line gives an item: it can not be read, or it is not blank. -/
def speaks (line : List UInt8) : Bool :=
  match Text.ofBytes? line with
  | none => true
  | some s => !s.toList.all Text.isBlank

/-- An item with the number zero in place of its own. -/
def unnumbered (item : Except DecodingError Operation) : Except DecodingError Operation :=
  item.map fun op => { op with id := 0 }

def DecodingError.row? : DecodingError → Option Row
  | .noDecoder row _ | .invalidRow row _ => some row
  | .unreadable _ => none

structure Answers (complaint : String → String) (delimiter : String) (line : List UInt8)
    (item : Except DecodingError Operation) : Prop where
  /-- The line alone gives the same item, perhaps under another number. -/
  alone : (operations complaint delimiter line).map unnumbered = [unnumbered item]
  unreadable : (∃ text, item = .error (.unreadable text)) ↔ Text.ofBytes? line = none
  noDecoder : (∃ row key, item = .error (.noDecoder row key)) ↔
    ∃ s, Text.ofBytes? line = some s ∧
      Text.trim ((Text.columns delimiter s).headD "") ∉ Records.kinds
  /-- The row in an error is the text of the line. -/
  carried : ∀ e row, item = .error e → e.row? = some row →
    Text.ofBytes? line = some (String.intercalate delimiter row)

/-! ## Rows and numbers -/

section Row
variable {complaint : String → String} {delimiter : String}

/-- The number of an operation is the only part of it that does not come from its row. -/
theorem operation_number (complaint : String → String) (delimiter : String) (id : Nat) (row : Row) :
    operation complaint delimiter id row =
      (operation complaint delimiter 0 row).map fun op => { op with id := id } := by
  unfold operation
  cases scheduledStart row with
  | error e => rfl
  | ok start =>
    cases dependency row with
    | error e => rfl
    | ok time => cases params complaint delimiter row <;> rfl

/-- Every failure is an invalid row, and about this one. -/
def Blames {α : Type} (row : Row) (r : Except DecodingError α) : Prop :=
  ∀ e, r = .error e → ∃ reason, e = .invalidRow row reason

theorem blames_ok {α : Type} (row : Row) (a : α) : Blames row (.ok a) := nofun

theorem blames_invalid {α : Type} (row : Row) (reason : String) :
    Blames row (.error (.invalidRow row reason) : Except DecodingError α) :=
  fun _ same => ⟨reason, (Except.error.inj same).symm⟩

theorem Blames.bind {α β : Type} {row : Row} {r : Except DecodingError α}
    {f : α → Except DecodingError β} (first : Blames row r) (later : ∀ a, Blames row (f a)) :
    Blames row (r >>= f) := by
  cases r with
  | error e => exact fun e' same => first e' (congrArg Except.error (Except.error.inj same))
  | ok a => exact later a

theorem blames_scheduledStart (row : Row) : Blames row (scheduledStart row) := by
  unfold scheduledStart
  split
  · split
    · exact blames_ok _ _
    · exact blames_invalid _ _
  · exact blames_invalid row _

theorem blames_dependency (row : Row) : Blames row (dependency row) := by
  simp only [dependency]
  split
  · exact blames_ok row _
  · split
    · exact blames_ok row _
    · exact blames_invalid row _

theorem blames_params (complaint : String → String) (delimiter : String) (row : Row) :
    Blames row (params complaint delimiter row) := by
  simp only [params]
  split
  · exact blames_ok row _
  · split
    · exact blames_ok row _
    · exact blames_invalid row _

/-- A row without an operation fails with an error that carries it. -/
theorem blames_operation (complaint : String → String) (delimiter : String) (id : Nat)
    (row : Row) :
    Blames row (operation complaint delimiter id row) :=
  (blames_scheduledStart row).bind fun _ =>
    (blames_dependency row).bind fun _ =>
      (blames_params complaint delimiter row).bind fun _ => blames_ok row _

/-- Whatever the next number is, a row gives the same operation and uses that number up, or it
gives the same error and leaves it. -/
theorem decodeRow_isolated (complaint : String → String) (delimiter : String)
    (row : Except DecodingError Row) :
    (∃ op : Operation, ∀ next, decodeRow (operationDecoders complaint delimiter) kindOf next row =
        (next + 1, .ok { op with id := next })) ∨
      ∃ e, ∀ next, decodeRow (operationDecoders complaint delimiter) kindOf next row =
        (next, .error e) := by
  cases row with
  | error e => exact .inr ⟨e, fun _ => rfl⟩
  | ok row =>
    by_cases known : Records.kinds.contains (kindOf row)
    · simp only [decodeRow, operationDecoders, known, if_true, decodeOperation]
      cases given : operation complaint delimiter 0 row with
      | ok op =>
        refine .inl ⟨op, fun next => ?_⟩
        rw [operation_number, given]
        rfl
      | error e =>
        refine .inr ⟨e, fun next => ?_⟩
        rw [operation_number, given]
        rfl
    · simp only [decodeRow, operationDecoders, known, Bool.false_eq_true, if_false]
      exact .inr ⟨_, fun _ => rfl⟩

/-- The next number changes nothing of an item but its number. -/
theorem unnumbered_decodeRow (next : Nat) (row : Except DecodingError Row) :
    unnumbered (decodeRow (operationDecoders complaint delimiter) kindOf next row).2 =
      unnumbered (decodeRow (operationDecoders complaint delimiter) kindOf 0 row).2 := by
  obtain ⟨op, given⟩ | ⟨e, failed⟩ := decodeRow_isolated complaint delimiter row
  · rw [given, given]
    rfl
  · rw [failed, failed]

/-- The operations are numbered without gaps. -/
theorem id_decode (rows : List (Except DecodingError Row)) (next k : Nat) (op : Operation)
    (found : ((decode (operationDecoders complaint delimiter) kindOf next rows).filterMap
      Except.toOption)[k]? = some op) : op.id = next + k := by
  induction rows generalizing next k with
  | nil => cases found
  | cons row rest ih =>
    simp only [decode] at found
    obtain ⟨op', given⟩ | ⟨e, failed⟩ := decodeRow_isolated complaint delimiter row
    · rw [given next] at found
      cases k with
      | zero =>
        cases found
        rfl
      | succ k =>
        rw [ih (next + 1) k found]
        omega
    · rw [failed next] at found
      exact ih next k found

end Row

/-! ## Lines and items -/

section Line
variable {complaint : String → String} {delimiter : String} {line : List UInt8}
  {row : Except DecodingError Row}

/-- No line holds a line feed. -/
theorem lineFeed_notMem_lines (bytes : List UInt8) : ∀ line ∈ Text.lines bytes, 10 ∉ line := by
  have grown : ∀ (bytes current : List UInt8), 10 ∉ current →
      ∀ line ∈ Text.linesFrom current bytes, 10 ∉ line := by
    intro bytes
    induction bytes with
    | nil =>
      intro current plain line member
      rw [Text.linesFrom] at member
      split at member
      · cases member
      · rw [List.mem_singleton.mp member, List.mem_reverse]
        exact plain
    | cons b rest ih =>
      intro current plain line member
      rw [Text.linesFrom] at member
      split at member
      next feed =>
        rcases List.mem_cons.mp member with rfl | later
        · rw [List.mem_reverse]
          unfold Text.withoutReturn
          split
          · exact fun inside => plain (List.mem_cons_of_mem _ inside)
          · exact plain
        · exact ih [] List.not_mem_nil line later
      next other =>
        refine ih (b :: current) (fun inside => ?_) line member
        rcases List.mem_cons.mp inside with same | earlier
        · exact other same.symm
        · exact plain earlier
  exact grown bytes [] List.not_mem_nil

/-- A line that gives an item gives a row, which is its columns or an error. -/
theorem ofLine_of_speaks (delimiter : String) (said : speaks line = true) :
    ofLine delimiter line = some
      (match Text.ofBytes? line with
        | none => .error (.unreadable notText)
        | some s => .ok (Text.columns delimiter s)) := by
  unfold speaks at said
  unfold ofLine
  cases read : Text.ofBytes? line with
  | none => rfl
  | some s =>
    rw [read] at said
    simp only [Text.trim_isEmpty]
    rw [if_neg (by simpa using said)]

theorem ofLine_of_silent (delimiter : String) (silent : speaks line = false) :
    ofLine delimiter line = none := by
  unfold speaks at silent
  unfold ofLine
  cases read : Text.ofBytes? line with
  | none =>
    rw [read] at silent
    cases silent
  | some s =>
    rw [read] at silent
    simp only [Text.trim_isEmpty]
    rw [if_pos (by simpa using silent)]

/-- A file that holds one line only. -/
theorem operations_line (whole : 10 ∉ line) (said : speaks line = true)
    (given : ofLine delimiter line = some row) :
    operations complaint delimiter line =
      [(decodeRow (operationDecoders complaint delimiter) kindOf 0 row).2] := by
  have shown : line ≠ [] := by
    rintro rfl
    exact absurd said (by decide)
  have lines : Text.lines line = [line] := by
    rw [Text.lines, Text.linesFrom_last whole, List.append_nil, List.reverse_reverse,
      if_neg (mt List.reverse_eq_nil_iff.mp shown)]
  rw [operations, ofBytes, lines, List.filterMap_cons, given]
  rfl

/-- The columns with the delimiter between them are the text, also when the delimiter is empty. -/
theorem whole_columns (delimiter s : String) :
    String.intercalate delimiter (Text.columns delimiter s) = s := by
  by_cases empty : delimiter = ""
  · have letters : ∀ l : List Char,
        [].intercalate (l.map (fun c => c.toString.toList) ++ [[]]) = l := by
      intro l
      induction l with
      | nil => rfl
      | cons c rest ih =>
        rw [List.map_cons, List.cons_append, List.intercalate_cons_of_ne_nil (by simp), ih,
          Char.toString, String.toList_singleton]
        rfl
    rw [empty, ← String.toList_inj, String.toList_intercalate, Text.columns, if_pos rfl,
      List.cons_append, List.map_cons, List.intercalate_cons_of_ne_nil (by simp), List.map_append,
      List.map_map]
    exact letters s.toList
  · exact Text.intercalate_columns empty s

/-- A row of text is decoded if its first column is a kind. -/
theorem decodeRow_text (complaint : String → String) (delimiter : String) (next : Nat) (row : Row) :
    (decodeRow (operationDecoders complaint delimiter) kindOf next (.ok row)).2 =
      if kindOf row ∈ Records.kinds then operation complaint delimiter next row
      else .error (.noDecoder row (kindOf row)) := by
  by_cases known : kindOf row ∈ Records.kinds
  · simp only [decodeRow, operationDecoders, List.contains_iff_mem.mpr known, if_true,
      decodeOperation, if_pos known]
    cases operation complaint delimiter next row <;> rfl
  · have unknown : Records.kinds.contains (kindOf row) = false :=
      Bool.eq_false_iff.mpr (mt List.contains_iff_mem.mp known)
    simp only [decodeRow, operationDecoders, unknown, Bool.false_eq_true, if_false, if_neg known]

/-- The item of a line answers it, whatever the next number is. -/
theorem answers_decodeRow (whole : 10 ∉ line) (said : speaks line = true)
    (given : ofLine delimiter line = some row) (next : Nat) :
    Answers complaint delimiter line
      (decodeRow (operationDecoders complaint delimiter) kindOf next row).2 := by
  have alone : (operations complaint delimiter line).map unnumbered =
      [unnumbered (decodeRow (operationDecoders complaint delimiter) kindOf next row).2] := by
    rw [operations_line whole said given, List.map_singleton, unnumbered_decodeRow next]
  have shape := ofLine_of_speaks delimiter said
  rw [given] at shape
  cases read : Text.ofBytes? line with
  | none =>
    rw [read] at shape
    cases shape
    exact
      { alone
        unreadable := ⟨fun _ => read, fun _ => ⟨_, rfl⟩⟩
        noDecoder := ⟨nofun, fun ⟨s, text, _⟩ => by cases read.symm.trans text⟩
        carried := fun e row failed about => by cases failed; cases about }
  | some s =>
    rw [read] at shape
    cases shape
    have item := decodeRow_text complaint delimiter next (Text.columns delimiter s)
    by_cases known : kindOf (Text.columns delimiter s) ∈ Records.kinds
    · -- every error of a decoder is an invalid row
      have blames := blames_operation complaint delimiter next (Text.columns delimiter s)
      rw [if_pos known] at item
      rw [item] at alone ⊢
      refine ⟨alone, ?_, ?_, ?_⟩
      · refine ⟨fun ⟨text, failed⟩ => ?_, fun unread => by cases read.symm.trans unread⟩
        obtain ⟨reason, same⟩ := blames _ failed
        cases same
      · refine ⟨fun ⟨row, key, failed⟩ => ?_, fun ⟨s', text, unknown⟩ => ?_⟩
        · obtain ⟨reason, same⟩ := blames _ failed
          cases same
        · cases read.symm.trans text
          exact absurd known unknown
      · intro e row failed about
        obtain ⟨reason, rfl⟩ := blames _ failed
        cases about
        rw [read, whole_columns]
    · rw [if_neg known] at item
      rw [item] at alone ⊢
      refine ⟨alone, ?_, ?_, ?_⟩
      · exact ⟨nofun, fun unread => by cases read.symm.trans unread⟩
      · exact ⟨fun _ => ⟨s, read, known⟩, fun _ => ⟨_, _, rfl⟩⟩
      · intro e row failed about
        cases failed
        cases about
        rw [read, whole_columns]

end Line

/-- One item for each line that gives one, in the order of the lines. -/
theorem answers_decode (complaint : String → String) (delimiter : String) (lines : List (List UInt8))
    (whole : ∀ line ∈ lines, 10 ∉ line) (next : Nat) :
    List.Forall₂ (Answers complaint delimiter) (lines.filter speaks)
      (decode (operationDecoders complaint delimiter) kindOf next
        (lines.filterMap (ofLine delimiter))) := by
  induction lines generalizing next with
  | nil => exact .nil
  | cons line rest ih =>
    obtain ⟨here, later⟩ := List.forall_mem_cons.mp whole
    cases said : speaks line with
    | false =>
      rw [List.filter_cons_of_neg (by simp [said]),
        List.filterMap_cons_none (ofLine_of_silent delimiter said)]
      exact ih later next
    | true =>
      have given := ofLine_of_speaks delimiter said
      rw [List.filter_cons_of_pos said, List.filterMap_cons_some given, decode]
      exact .cons (answers_decodeRow here said given next) (ih later _)

/-- Whatever the bytes are, each line that is unreadable or not blank gives one item, which
depends on that line alone but for its number, and the operations are numbered from zero
without gaps. -/
theorem operations_isolated (complaint : String → String) (delimiter : String)
    (bytes : List UInt8) :
    List.Forall₂ (Answers complaint delimiter) ((Text.lines bytes).filter speaks)
        (operations complaint delimiter bytes) ∧
      ∀ k (op : Operation),
        ((operations complaint delimiter bytes).filterMap Except.toOption)[k]? = some op →
          op.id = k := by
  constructor
  · exact answers_decode complaint delimiter (Text.lines bytes) (lineFeed_notMem_lines bytes) 0
  · intro k op found
    have number := id_decode (ofBytes delimiter bytes) 0 k op found
    omega

end PacedLoad.Rows
