import Mathlib
import PacedLoad.Proofs.Json.Compact
import PacedLoad.Proofs.Text.Lines
import PacedLoad.Rows.Operations

/-!
# Operations that are written and read back

An operation is written as a row of kind, start, dependency and compact parameters.
The delimiter may stand in the parameters: the columns after the third are put together
again as they were taken apart.  Blank lines may stand anywhere, and every line may
end either way.
-/

namespace PacedLoad.Rows

open Json (Value)

/-! ## Writing -/

/-- A delimiter that can not be taken for a part of a kind, of a number or of a line end. -/
structure Separates (delimiter : String) : Prop where
  nonempty : delimiter ≠ ""
  foreign : ∀ c ∈ delimiter.toList, c.isAlphanum = false ∧ c ≠ '\r' ∧ c ≠ '\n'

/-- An operation of which a row keeps everything but its number. -/
structure Writable (op : Operation) : Prop where
  kind : op.kind ∈ Records.kinds
  start : op.scheduledStart.nanos % nanosPerMilli = 0
  dependency : ∀ t ∈ op.dependencyTime, t.nanos % nanosPerMilli = 0
  params : Value.ofText? op.params.compact = some op.params

/-- A dependency in milliseconds, or nothing. -/
def dependencyText (dependency : Option Instant) : String :=
  (dependency.map fun t => toString t.millis).getD ""

def rowText (delimiter : String) (op : Operation) : String :=
  String.intercalate delimiter
    [op.kind, toString op.scheduledStart.millis, dependencyText op.dependencyTime, op.params.compact]

inductive LineEnd
  | feed
  | returnFeed

def LineEnd.beforeFeed : LineEnd → String
  | .feed => ""
  | .returnFeed => "\r"

inductive Line
  | operation (op : Operation)
  | blank (text : String)

namespace Line

def text (delimiter : String) : Line → String
  | .operation op => rowText delimiter op
  | .blank text => text

def operation? : Line → Option Operation
  | .operation op => some op
  | .blank _ => none

/-- The operation is one that can be written, the blank text is blank and stands on one line. -/
def WellFormed : Line → Prop
  | .operation op => Writable op
  | .blank text => (∀ c ∈ text.toList, Text.isBlank c = true) ∧ '\n' ∉ text.toList

end Line

/-- A file of operations: lines with their ends, and perhaps a last one without. -/
structure OperationFile where
  ended : List (Line × LineEnd)
  last : Option Line

def upToFeed (delimiter : String) (l : Line × LineEnd) : String :=
  l.1.text delimiter ++ l.2.beforeFeed

namespace OperationFile

def lines (file : OperationFile) : List Line := file.ended.map Prod.fst ++ file.last.toList

def operations (file : OperationFile) : List Operation := file.lines.filterMap Line.operation?

def lastText (delimiter : String) (file : OperationFile) : String :=
  (file.last.map (Line.text delimiter)).getD ""

def text (delimiter : String) (file : OperationFile) : String :=
  String.join (file.ended.map fun l => upToFeed delimiter l ++ "\n") ++ file.lastText delimiter

end OperationFile

/-! ## Rows -/

section Row
variable {complaint : String → String} {delimiter : String} {op : Operation}

theorem isAlphanum_kind : ∀ kind ∈ Records.kinds, ∀ c ∈ kind.toList, c.isAlphanum = true := by
  have all : Records.kinds.all (fun kind => kind.toList.all Char.isAlphanum) = true := by decide
  exact fun kind member => List.all_eq_true.mp (List.all_eq_true.mp all kind member)

theorem kind_ne_nil : ∀ kind ∈ Records.kinds, kind.toList ≠ [] := by decide

theorem isAlphanum_of_mem_toString {n : Nat} {c : Char} (inside : c ∈ (toString n).toList) :
    c.isAlphanum = true := by
  simp [Char.isAlphanum, Text.isDigit_of_mem_toString inside]

theorem isAlphanum_dependencyText (dependency : Option Instant) :
    ∀ c ∈ (dependencyText dependency).toList, c.isAlphanum = true := by
  cases dependency with
  | none => exact nofun
  | some t => exact fun c inside => isAlphanum_of_mem_toString inside

theorem Separates.apart (separates : Separates delimiter) {column : String}
    (plain : ∀ c ∈ column.toList, c.isAlphanum = true) :
    ∀ c ∈ column.toList, c ∉ delimiter.toList := by
  intro c inside shared
  have foreign := (separates.foreign c shared).1
  rw [plain c inside] at foreign
  exact absurd foreign (by decide)

/-- The parameters are taken apart, the columns before them are not. -/
theorem columns_rowText (separates : Separates delimiter) (writable : Writable op) :
    Text.columns delimiter (rowText delimiter op) =
      op.kind :: toString op.scheduledStart.millis :: dependencyText op.dependencyTime ::
        Text.columns delimiter op.params.compact := by
  have split := @Text.columns_append delimiter
  rw [rowText, String.intercalate_cons_cons,
    split separates.nonempty (separates.apart (isAlphanum_kind op.kind writable.kind)),
    String.intercalate_cons_cons,
    split separates.nonempty (separates.apart fun _ => isAlphanum_of_mem_toString),
    String.intercalate_cons_cons,
    split separates.nonempty (separates.apart (isAlphanum_dependencyText op.dependencyTime)),
    String.intercalate_singleton]

/-- The milliseconds of an instant are read back. -/
theorem millis?_millis (t : Instant) : millis? (toString t.millis) = some t.millis := by
  have fits : t.millis < 18446744073709551616 :=
    Nat.lt_of_le_of_lt (Nat.div_le_self _ _) t.nanos_lt
  rw [millis?, Text.trim_solid fun _ => Text.isBlank_of_mem_toString, Text.natural?_toString fits]

/-- An instant of whole milliseconds is its milliseconds. -/
theorem ofMillis_millis {t : Instant} (whole : t.nanos % nanosPerMilli = 0) :
    Instant.ofMillis t.millis = t := by
  have bound := t.nanos_lt
  refine Instant.ext ?_
  rw [Instant.ofMillis, Instant.millis, Nat.div_mul_cancel (Nat.dvd_of_mod_eq_zero whole),
    Instant.saturate_nanos]
  omega

theorem kindOf_rowText (separates : Separates delimiter) (writable : Writable op) :
    kindOf (Text.columns delimiter (rowText delimiter op)) = op.kind := by
  rw [columns_rowText separates writable]
  exact Text.trim_solid fun c inside =>
    Text.isBlank_of_isAlphanum (isAlphanum_kind op.kind writable.kind c inside)

theorem scheduledStart_rowText (separates : Separates delimiter) (writable : Writable op) :
    scheduledStart (Text.columns delimiter (rowText delimiter op)) = .ok op.scheduledStart := by
  rw [columns_rowText separates writable]
  simp only [scheduledStart, millis?_millis, ofMillis_millis writable.start]

theorem dependency_rowText (separates : Separates delimiter) (writable : Writable op) :
    dependency (Text.columns delimiter (rowText delimiter op)) = .ok op.dependencyTime := by
  have solid : Text.trim (dependencyText op.dependencyTime) = dependencyText op.dependencyTime :=
    Text.trim_solid fun c inside =>
      Text.isBlank_of_isAlphanum (isAlphanum_dependencyText op.dependencyTime c inside)
  have third : (Text.columns delimiter (rowText delimiter op)).getD 2 "" =
      dependencyText op.dependencyTime := by
    rw [columns_rowText separates writable]
    rfl
  simp only [dependency, third, solid]
  cases time : op.dependencyTime with
  | none => rfl
  | some t =>
    have shown : (dependencyText (some t)).isEmpty = false := by
      rw [String.isEmpty_eq_false_iff]
      exact Nat.repr_ne_empty
    have read : millis? (dependencyText (some t)) = some t.millis := millis?_millis t
    rw [shown, read]
    simp only [Bool.false_eq_true, if_false, ofMillis_millis (writable.dependency t time)]

theorem params_rowText (separates : Separates delimiter) (writable : Writable op) :
    params complaint delimiter (Text.columns delimiter (rowText delimiter op)) = .ok op.params := by
  have shown : (Text.trim op.params.compact).isEmpty = false := by
    rw [Text.trim_isEmpty, Bool.eq_false_iff]
    intro blank
    have read := writable.params
    rw [Json.ofText?_blank (List.all_eq_true.mp blank)] at read
    exact absurd read nofun
  rw [columns_rowText separates writable]
  simp only [params, List.drop_succ_cons, List.drop_zero,
    Text.intercalate_columns separates.nonempty, shown, writable.params, Bool.false_eq_true,
    if_false]

/-- A written row is read back as the operation under the number it is given. -/
theorem operation_rowText (separates : Separates delimiter) (writable : Writable op) (id : Nat) :
    operation complaint delimiter id (Text.columns delimiter (rowText delimiter op)) =
      .ok { op with id := id } := by
  simp only [operation, scheduledStart_rowText separates writable,
    dependency_rowText separates writable, params_rowText separates writable,
    kindOf_rowText separates writable]
  rfl

/-- One row uses up one number. -/
theorem decodeRow_rowText (separates : Separates delimiter) (writable : Writable op) (next : Nat) :
    decodeRow (operationDecoders complaint delimiter) kindOf next
        (.ok (Text.columns delimiter (rowText delimiter op))) =
      (next + 1, .ok { op with id := next }) := by
  simp only [decodeRow, kindOf_rowText separates writable, operationDecoders,
    List.contains_iff_mem.mpr writable.kind, if_true, decodeOperation,
    operation_rowText separates writable]

/-- The numbers go up from row to row. -/
theorem decode_rowText (separates : Separates delimiter) {ops : List Operation}
    (writable : ∀ op ∈ ops, Writable op) (next : Nat) :
    decode (operationDecoders complaint delimiter) kindOf next
        (ops.map fun op => .ok (Text.columns delimiter (rowText delimiter op))) =
      ops.mapIdx fun i op => .ok { op with id := next + i } := by
  induction ops generalizing next with
  | nil => rfl
  | cons op rest ih =>
    obtain ⟨here, later⟩ := List.forall_mem_cons.mp writable
    rw [List.map_cons, decode, decodeRow_rowText separates here, List.mapIdx_cons]
    simp only [ih later, Nat.add_zero, Nat.add_assoc, Nat.add_comm 1]

end Row

/-! ## Lines -/

section File
variable {delimiter : String}

/-- A line of text is a row unless all of it is blank. -/
theorem ofLine_bytesOf (delimiter s : String) :
    ofLine delimiter (Text.bytesOf s) =
      if s.toList.all Text.isBlank then none else some (.ok (Text.columns delimiter s)) := by
  rw [ofLine, Text.ofBytes?_bytesOf]
  simp only [Text.trim_isEmpty]

theorem isAlphanum_ne_lineEnd {c : Char} (plain : c.isAlphanum = true) : c ≠ '\r' ∧ c ≠ '\n' := by
  constructor
  all_goals
    rintro rfl
    exact absurd plain (by decide)

/-- A written operation stands on one line. -/
theorem rowText_oneLine (separates : Separates delimiter) {op : Operation}
    (writable : Writable op) : ∀ c ∈ (rowText delimiter op).toList, c ≠ '\r' ∧ c ≠ '\n' := by
  have kind := isAlphanum_kind op.kind writable.kind
  have dependency := isAlphanum_dependencyText op.dependencyTime
  have compact := Json.plain_compact op.params
  intro c inside
  simp only [rowText, String.intercalate_cons_cons, String.intercalate_singleton,
    String.toList_append, List.mem_append] at inside
  rcases inside with (here | mark) | (here | mark) | (here | mark) | here
  · exact isAlphanum_ne_lineEnd (kind c here)
  · exact (separates.foreign c mark).2
  · exact isAlphanum_ne_lineEnd (isAlphanum_of_mem_toString here)
  · exact (separates.foreign c mark).2
  · exact isAlphanum_ne_lineEnd (dependency c here)
  · exact (separates.foreign c mark).2
  · exact ⟨fun same => compact.return_notMem (same ▸ here),
      fun same => compact.lineFeed_notMem (same ▸ here)⟩

/-- A line is the row of its operation, or none. -/
theorem ofLine_text {line : Line} (wellFormed : line.WellFormed) :
    ofLine delimiter (Text.bytesOf (line.text delimiter)) =
      line.operation?.map fun op => .ok (Text.columns delimiter (rowText delimiter op)) := by
  cases line with
  | blank text =>
    have blank : text.toList.all Text.isBlank = true := List.all_eq_true.mpr wellFormed.1
    exact (ofLine_bytesOf delimiter text).trans (if_pos blank)
  | operation op =>
    refine (ofLine_bytesOf delimiter (rowText delimiter op)).trans (if_neg fun blank => ?_)
    obtain ⟨c, inside⟩ := List.exists_mem_of_ne_nil _ (kind_ne_nil op.kind wellFormed.kind)
    have shown := Text.isBlank_of_isAlphanum (isAlphanum_kind op.kind wellFormed.kind c inside)
    have first : c ∈ (rowText delimiter op).toList := by
      rw [rowText, String.intercalate_cons_cons, String.append_assoc, String.toList_append]
      exact List.mem_append_left _ inside
    rw [List.all_eq_true.mp blank c first] at shown
    exact absurd shown (by decide)

/-- Neither line end leaves anything of itself in the line. -/
theorem ofLine_chomp (separates : Separates delimiter) {line : Line} (wellFormed : line.WellFormed)
    (ending : LineEnd) :
    ofLine delimiter (Text.bytesOf (Text.chomp (upToFeed delimiter (line, ending)))) =
      ofLine delimiter (Text.bytesOf (line.text delimiter)) := by
  cases line with
  | blank text =>
    have blank : ∀ c ∈ (text ++ ending.beforeFeed).toList, Text.isBlank c = true := by
      intro c inside
      rw [String.toList_append, List.mem_append] at inside
      rcases inside with here | mark
      · exact wellFormed.1 c here
      · cases ending with
        | feed => exact absurd mark nofun
        | returnFeed => rw [List.mem_singleton.mp mark]; decide
    have chomped : (Text.chomp (text ++ ending.beforeFeed)).toList.all Text.isBlank = true :=
      List.all_eq_true.mpr fun c inside => blank c (Text.mem_chomp inside)
    have whole : text.toList.all Text.isBlank = true := List.all_eq_true.mpr wellFormed.1
    rw [upToFeed, Line.text, ofLine_bytesOf, ofLine_bytesOf, if_pos chomped, if_pos whole]
  | operation op =>
    have chomped : Text.chomp (rowText delimiter op ++ ending.beforeFeed) = rowText delimiter op := by
      cases ending with
      | feed =>
        rw [LineEnd.beforeFeed, String.append_empty]
        exact Text.chomp_other fun inside =>
          (rowText_oneLine separates wellFormed _ inside).1 rfl
      | returnFeed => exact Text.chomp_return _
    rw [upToFeed, Line.text, chomped]

theorem lineFeed_notMem_text (separates : Separates delimiter) {line : Line}
    (wellFormed : line.WellFormed) : '\n' ∉ (line.text delimiter).toList := by
  cases line with
  | blank text => exact wellFormed.2
  | operation op => exact fun inside => (rowText_oneLine separates wellFormed _ inside).2 rfl

theorem lineFeed_notMem_upToFeed (separates : Separates delimiter) {line : Line}
    (wellFormed : line.WellFormed) (ending : LineEnd) :
    '\n' ∉ (upToFeed delimiter (line, ending)).toList := by
  have mark : '\n' ∉ ending.beforeFeed.toList := by cases ending <;> decide
  rw [upToFeed, String.toList_append, List.mem_append]
  exact not_or.mpr ⟨lineFeed_notMem_text separates wellFormed, mark⟩

/-- An empty last line is none. -/
theorem filterMap_last (delimiter s : String) :
    (if s = "" then [] else [Text.bytesOf s]).filterMap (ofLine delimiter) =
      (ofLine delimiter (Text.bytesOf s)).toList := by
  split
  next empty =>
    subst empty
    rw [ofLine_bytesOf]
    rfl
  next => cases row : ofLine delimiter (Text.bytesOf s) <;> simp [row]

/-- What a file gives is what its lines give one by one. -/
theorem ofBytes_lines (separates : Separates delimiter) {file : OperationFile}
    (wellFormed : ∀ line ∈ file.lines, line.WellFormed) :
    ofBytes delimiter (Text.bytesOf (file.text delimiter)) =
      file.lines.filterMap fun line => ofLine delimiter (Text.bytesOf (line.text delimiter)) := by
  obtain ⟨ended, last⟩ := file
  obtain ⟨wellEnded, wellLast⟩ := List.forall_mem_append.mp wellFormed
  have well : ∀ l ∈ ended, l.1.WellFormed :=
    fun l member => wellEnded l.1 (List.mem_map_of_mem member)
  have whole : ∀ s ∈ ended.map (upToFeed delimiter), '\n' ∉ s.toList := by
    intro s inside
    obtain ⟨l, member, rfl⟩ := List.mem_map.mp inside
    exact lineFeed_notMem_upToFeed separates (well l member) l.2
  have wholeLast : '\n' ∉ (OperationFile.lastText delimiter ⟨ended, last⟩).toList := by
    cases last with
    | none => exact nofun
    | some line => exact lineFeed_notMem_text separates (wellLast line (by simp))
  have lastRow : (ofLine delimiter
        (Text.bytesOf (OperationFile.lastText delimiter ⟨ended, last⟩))).toList =
      last.toList.filterMap fun line => ofLine delimiter (Text.bytesOf (line.text delimiter)) := by
    cases last with
    | none => rw [OperationFile.lastText, Option.map_none, Option.getD_none, ofLine_bytesOf]; rfl
    | some line =>
      cases row : ofLine delimiter (Text.bytesOf (line.text delimiter)) <;>
        simp [OperationFile.lastText, row]
  have text : OperationFile.text delimiter ⟨ended, last⟩ =
      String.join ((ended.map (upToFeed delimiter)).map (· ++ "\n")) ++
        OperationFile.lastText delimiter ⟨ended, last⟩ := by
    rw [List.map_map]
    rfl
  rw [ofBytes, text, Text.lines_join _ _ whole wholeLast, List.filterMap_append, filterMap_last,
    lastRow, OperationFile.lines, List.filterMap_append, List.map_map, List.filterMap_map,
    List.filterMap_map]
  congr 1
  exact List.filterMap_congr fun l member => ofLine_chomp separates (well l member) l.2

/-- The rows of a file are those of its operations. -/
theorem ofBytes_text (separates : Separates delimiter) {file : OperationFile}
    (wellFormed : ∀ line ∈ file.lines, line.WellFormed) :
    ofBytes delimiter (Text.bytesOf (file.text delimiter)) =
      file.operations.map fun op => .ok (Text.columns delimiter (rowText delimiter op)) := by
  rw [ofBytes_lines separates wellFormed, OperationFile.operations, List.map_filterMap]
  exact List.filterMap_congr fun line member => ofLine_text (wellFormed line member)

end File

/-- Every file of operations is read back: all operations in order, numbered from zero. -/
theorem operations_text (complaint : String → String) {delimiter : String}
    (separates : Separates delimiter) {file : OperationFile}
    (wellFormed : ∀ line ∈ file.lines, line.WellFormed) :
    operations complaint delimiter (Text.bytesOf (file.text delimiter)) =
      file.operations.mapIdx fun id op => .ok { op with id := id } := by
  have writable : ∀ op ∈ file.operations, Writable op := by
    intro op inside
    obtain ⟨line, member, found⟩ := List.mem_filterMap.mp inside
    cases line with
    | blank text => exact absurd found nofun
    | operation other =>
      obtain rfl := Option.some.inj found
      exact wellFormed _ member
  rw [operations, ofBytes_text separates wellFormed, decode_rowText separates writable]
  simp only [Nat.zero_add]

/-- The parameters hold the delimiter, quotes, a line break and blanks. -/
def insertion : Operation where
  id := 7
  kind := "insert"
  scheduledStart := Instant.ofMillis 100
  dependencyTime := none
  params := .object [("key", .string "p|1"), ("table", .string " \"a||b\"\r\n ")]

def removal : Operation where
  id := 7
  kind := "delete"
  scheduledStart := Instant.ofMillis 200
  dependencyTime := some (Instant.ofMillis 100)
  params := .null

/-- Two rows between blank lines, of which the last one has no end. -/
def mixedFile : OperationFile where
  ended := [(.blank "", .feed), (.operation insertion, .returnFeed), (.blank " \t\r", .feed)]
  last := some (.operation removal)

example : rowText "|" removal = "delete|200|100|null" := by decide

theorem operations_text_mixed :
    Separates "|" ∧ (∀ line ∈ mixedFile.lines, line.WellFormed) ∧
      operations (fun _ => "expected value") "|" (Text.bytesOf (mixedFile.text "|")) =
        [.ok { insertion with id := 0 }, .ok { removal with id := 1 }] := by
  have separates : Separates "|" :=
    ⟨by decide, fun c inside => by rw [List.mem_singleton.mp inside]; decide⟩
  have inserted : Writable insertion :=
    { kind := by decide
      start := by decide
      dependency := fun t same => by cases same
      params := by cbv }
  have removed : Writable removal :=
    { kind := by decide
      start := by decide
      dependency := fun t same => Option.some.inj same ▸ by decide
      params := by cbv }
  have wellFormed : ∀ line ∈ mixedFile.lines, line.WellFormed :=
    List.forall_mem_cons.mpr ⟨⟨List.all_eq_true.mp rfl, by decide⟩,
      List.forall_mem_cons.mpr ⟨inserted,
        List.forall_mem_cons.mpr ⟨⟨List.all_eq_true.mp rfl, by decide⟩,
          List.forall_mem_cons.mpr ⟨removed, List.forall_mem_nil _⟩⟩⟩⟩
  exact ⟨separates, wellFormed, operations_text _ separates wellFormed⟩

end PacedLoad.Rows
