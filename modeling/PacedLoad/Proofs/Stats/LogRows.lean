import PacedLoad.Proofs.Rows.ReadBack
import PacedLoad.Stats.ResultsLog

/-!
# The log of results is read back

The log writes no quotes, so its rows can be told apart only as long as the delimiter shares no
character with them.  Then the reader of rows finds what was written: the header, and for each
result a row that is never blank, since it ends with numbers.  So the text of a log determines
what its rows tell.
-/

namespace PacedLoad.Stats

/-! ## Writes -/

theorem Sink.text_writeAll {sink after : Sink} {pieces : List String}
    (wrote : sink.writeAll pieces = (after, .ok ())) :
    after.text = sink.text ++ String.join pieces := by
  induction pieces generalizing sink with
  | nil =>
    cases wrote
    simp
  | cons piece rest ih =>
    rw [writeAll, write] at wrote
    cases refused : sink.refusal sink.writes sink.text piece with
    | some e => simp [refused] at wrote
    | none =>
      simp only [refused] at wrote
      rw [ih wrote, String.join_cons, String.append_assoc]

/-- A sink that never refuses anything. -/
def Sink.Willing (sink : Sink) : Prop := ∀ n written piece, sink.refusal n written piece = none

theorem Sink.Willing.writeAll {sink : Sink} (willing : sink.Willing) (pieces : List String) :
    ∃ after : Sink, sink.writeAll pieces = (after, .ok ()) ∧ after.Willing := by
  induction pieces generalizing sink with
  | nil => exact ⟨sink, rfl, willing⟩
  | cons piece rest ih =>
    rw [Sink.writeAll, write, willing]
    exact ih (show Sink.Willing { sink with writes := sink.writes + 1, text := _ } from willing)

namespace ResultsLog

/-- A log that has taken its header and the rows of some results, in this order, and has refused
nothing. -/
inductive Written (delimiter : String) : List OperationResult → ResultsLog → Prop
  | opened {sink : Sink} {log : ResultsLog} (blank : sink.text = "")
      (created : create sink delimiter = (log, .ok ())) : Written delimiter [] log
  | grown {results : List OperationResult} {r : OperationResult} {log after : ResultsLog}
      (before : Written delimiter results log) (wrote : log.write r = (after, .ok ())) :
      Written delimiter (results ++ [r]) after

variable {delimiter : String} {results : List OperationResult} {log : ResultsLog}

theorem writeFields_willing (log : ResultsLog) (willing : log.sink.Willing) (fields : List String) :
    ∃ after : ResultsLog, log.writeFields fields = (after, .ok ()) ∧ after.sink.Willing := by
  obtain ⟨sink, wrote, still⟩ := willing.writeAll (pieces log.delimiter fields)
  exact ⟨{ log with sink }, by rw [writeFields, wrote], still⟩

/-- A log without refusals exists for all results. -/
theorem exists_written (delimiter : String) (results : List OperationResult) :
    ∃ log, Written delimiter results log ∧ log.sink.Willing := by
  induction results using List.reverseRecOn with
  | nil =>
    obtain ⟨log, created, willing⟩ :=
      writeFields_willing ⟨delimiter, .boundless⟩ (fun _ _ _ => rfl) header
    exact ⟨log, .opened rfl created, willing⟩
  | append_singleton results r ih =>
    obtain ⟨log, written, willing⟩ := ih
    obtain ⟨after, wrote, still⟩ := writeFields_willing log willing (row r)
    exact ⟨after, .grown written wrote, still⟩

/-- The columns with the delimiter between them, up to the end of the line. -/
theorem join_pieces (delimiter : String) {fields : List String} (some : fields ≠ []) :
    String.join (pieces delimiter fields) = String.intercalate delimiter fields ++ "\n" := by
  rw [pieces, String.join_append]
  congr 1
  induction fields with
  | nil => exact absurd rfl some
  | cons column rest ih =>
    cases rest with
    | nil => simp
    | cons next more =>
      rw [List.intersperse_cons_cons, String.join_cons, String.join_cons, ih nofun,
        String.intercalate_cons_cons, String.append_assoc]

/-- Rows with their delimiters are lines. -/
theorem join_rows {rows : List (List String)} (some : ∀ fields ∈ rows, fields ≠ []) :
    String.join (rows.flatMap (pieces delimiter)) =
      String.join ((rows.map (String.intercalate delimiter)).map (· ++ "\n")) := by
  induction rows with
  | nil => rfl
  | cons fields rest ih =>
    obtain ⟨here, later⟩ := List.forall_mem_cons.mp some
    rw [List.flatMap_cons, String.join_append, join_pieces delimiter here, ih later, List.map_cons,
      List.map_cons, String.join_cons]

theorem writeFields_ok {after : ResultsLog} {fields : List String}
    (wrote : log.writeFields fields = (after, .ok ())) :
    after.delimiter = log.delimiter ∧
      after.sink.text = log.sink.text ++ String.join (pieces log.delimiter fields) := by
  rw [writeFields] at wrote
  obtain ⟨rfl, accepted⟩ := Prod.mk.inj wrote
  exact ⟨rfl, Sink.text_writeAll (Prod.ext rfl accepted)⟩

/-- A log that has refused nothing holds the text of its results. -/
theorem Written.text (written : Written delimiter results log) :
    log.delimiter = delimiter ∧ log.sink.text = textOf delimiter results := by
  induction written with
  | opened blank created =>
    obtain ⟨mark, text⟩ := writeFields_ok created
    refine ⟨mark, text.trans ?_⟩
    simp [blank, textOf]
  | grown before wrote ih =>
    obtain ⟨mark, text⟩ := writeFields_ok wrote
    obtain ⟨same, earlier⟩ := ih
    refine ⟨mark.trans same, text.trans ?_⟩
    simp [earlier, same, textOf, String.append_assoc]

/-! ## Reading -/

/-- Columns that make a line of their own, from which the delimiter and nothing else can be told
apart. -/
structure Legible (delimiter : String) (fields : List String) : Prop where
  apart : ∀ column ∈ fields, ∀ c ∈ column.toList, c ∉ delimiter.toList
  oneLine : ∀ column ∈ fields, ∀ c ∈ column.toList, c ≠ '\r' ∧ c ≠ '\n'
  shown : ∃ column ∈ fields, ∃ c ∈ column.toList, Text.isBlank c = false

theorem Legible.some {fields : List String} (legible : Legible delimiter fields) : fields ≠ [] := by
  obtain ⟨column, member, -⟩ := legible.shown
  exact List.ne_nil_of_mem member

/-- What stands in columns with delimiters between them. -/
theorem mem_intercalate {fields : List String} {c : Char}
    (inside : c ∈ (String.intercalate delimiter fields).toList) :
    c ∈ delimiter.toList ∨ ∃ column ∈ fields, c ∈ column.toList := by
  induction fields with
  | nil => simp at inside
  | cons column rest ih =>
    cases rest with
    | nil => exact .inr ⟨column, List.mem_cons_self, by simpa using inside⟩
    | cons next more =>
      rw [String.intercalate_cons_cons, String.toList_append, String.toList_append,
        List.mem_append, List.mem_append] at inside
      rcases inside with (here | mark) | later
      · exact .inr ⟨column, List.mem_cons_self, here⟩
      · exact .inl mark
      · rcases ih later with mark | ⟨other, member, there⟩
        · exact .inl mark
        · exact .inr ⟨other, List.mem_cons_of_mem _ member, there⟩

theorem mem_intercalate_of_mem {fields : List String} {column : String} {c : Char}
    (member : column ∈ fields) (inside : c ∈ column.toList) :
    c ∈ (String.intercalate delimiter fields).toList := by
  induction fields with
  | nil => cases member
  | cons first rest ih =>
    cases rest with
    | nil =>
      cases List.mem_singleton.mp member
      rwa [String.intercalate_singleton]
    | cons next more =>
      rw [String.intercalate_cons_cons, String.toList_append, String.toList_append,
        List.mem_append, List.mem_append]
      rcases List.mem_cons.mp member with rfl | later
      · exact .inl (.inl inside)
      · exact .inr (ih later)

/-- Rows of legible columns are read back, each in its place. -/
theorem ofBytes_legible (nonempty : delimiter ≠ "")
    (oneLine : ∀ c ∈ delimiter.toList, c ≠ '\r' ∧ c ≠ '\n') {rows : List (List String)}
    (legible : ∀ fields ∈ rows, Legible delimiter fields) :
    Rows.ofBytes delimiter (Text.bytesOf
        (String.join ((rows.map (String.intercalate delimiter)).map (· ++ "\n")))) =
      rows.map .ok := by
  have plain : ∀ fields ∈ rows, ∀ c ∈ (String.intercalate delimiter fields).toList,
      c ≠ '\r' ∧ c ≠ '\n' := by
    intro fields member c inside
    rcases mem_intercalate inside with mark | ⟨column, place, here⟩
    · exact oneLine c mark
    · exact (legible fields member).oneLine column place c here
  have line : ∀ fields ∈ rows, Rows.ofLine delimiter
      (Text.bytesOf (Text.chomp (String.intercalate delimiter fields))) = some (.ok fields) := by
    intro fields member
    rw [Text.chomp_other fun inside => (plain fields member _ inside).1 rfl, Rows.ofLine_bytesOf,
      if_neg, Text.columns_intercalate nonempty (legible fields member).some
        (legible fields member).apart]
    intro blank
    obtain ⟨column, place, c, inside, visible⟩ := (legible fields member).shown
    rw [List.all_eq_true.mp blank c (mem_intercalate_of_mem place inside)] at visible
    cases visible
  have whole : ∀ s ∈ rows.map (String.intercalate delimiter), '\n' ∉ s.toList := by
    intro s inside
    obtain ⟨fields, member, rfl⟩ := List.mem_map.mp inside
    exact fun feed => (plain fields member _ feed).2 rfl
  have lines := Text.lines_join (rows.map (String.intercalate delimiter)) "" whole nofun
  rw [String.append_empty, if_pos rfl, List.append_nil] at lines
  rw [Rows.ofBytes, lines, List.map_map, List.filterMap_map, ← List.filterMap_eq_map]
  exact List.filterMap_congr line

/-- What a row tells of a result: its kind, and in whole milliseconds when it was to start, when it
started and how long it ran, the last one to 64 bits. -/
def told (r : OperationResult) : String × Nat × Nat × Nat :=
  (r.operation.kind, r.operation.scheduledStart.nanos / 1000000, r.actualStart.nanos / 1000000,
    r.runDuration.nanos / 1000000 % 2 ^ 64)

/-- The four columns that tell it. -/
def columnsOf : String × Nat × Nat × Nat → List String
  | (kind, scheduled, actual, duration) =>
    [kind, toString scheduled, toString actual, toString duration]

theorem columnsOf_injective : Function.Injective columnsOf := by
  rintro ⟨kind, scheduled, actual, duration⟩ ⟨kind', scheduled', actual', duration'⟩ same
  have number : ∀ {m n : Nat}, toString m = toString n → m = n := Nat.repr_inj.mp
  simp only [columnsOf, List.cons.injEq, and_true] at same
  obtain ⟨kinds, first, second, third⟩ := same
  rw [kinds, number first, number second, number third]

/-- A delimiter that can not be taken for a part of the header, of a number or of the kind of a
result, nor for a part of a line end, and kinds that stand on one line. -/
structure Divides (delimiter : String) (results : List OperationResult) : Prop where
  nonempty : delimiter ≠ ""
  names : ∀ name ∈ header, ∀ c ∈ name.toList, c ∉ delimiter.toList
  digits : ∀ c ∈ delimiter.toList, c.isDigit = false
  kinds : ∀ r ∈ results, ∀ c ∈ r.operation.kind.toList, c ∉ delimiter.toList
  oneLine : ∀ c ∈ delimiter.toList, c ≠ '\r' ∧ c ≠ '\n'
  kindsOneLine : ∀ r ∈ results, ∀ c ∈ r.operation.kind.toList, c ≠ '\r' ∧ c ≠ '\n'

/-- What holds of each character of some texts. -/
theorem forall_of_all (texts : List String) (p : Char → Bool)
    (all : texts.all (fun s => s.toList.all p) = true) :
    ∀ s ∈ texts, ∀ c ∈ s.toList, p c = true :=
  fun s member => List.all_eq_true.mp (List.all_eq_true.mp all s member)

theorem header_oneLine : ∀ name ∈ header, ∀ c ∈ name.toList, c ≠ '\r' ∧ c ≠ '\n' := by
  intro name member c inside
  simpa using
    forall_of_all header (fun c => c != '\r' && c != '\n') (by decide) name member c inside

theorem header_legible (divides : Divides delimiter results) : Legible delimiter header where
  apart := divides.names
  oneLine := header_oneLine
  shown := ⟨"operation_type", List.mem_cons_self, 'o', by decide, by decide⟩

/-- The digits of a number stand on one line and are no part of the delimiter. -/
theorem Divides.number (divides : Divides delimiter results) {n : Nat} {c : Char}
    (inside : c ∈ (toString n).toList) : c ∉ delimiter.toList ∧ c ≠ '\r' ∧ c ≠ '\n' := by
  have digit := Text.isDigit_of_mem_toString inside
  refine ⟨fun mark => ?_, Rows.isAlphanum_ne_lineEnd (Rows.isAlphanum_of_mem_toString inside)⟩
  rw [divides.digits c mark] at digit
  cases digit

theorem row_legible (divides : Divides delimiter results) {r : OperationResult}
    (member : r ∈ results) : Legible delimiter (row r) := by
  have each : ∀ column ∈ row r, ∀ c ∈ column.toList,
      c ∉ delimiter.toList ∧ c ≠ '\r' ∧ c ≠ '\n' := by
    simp only [row, List.forall_mem_cons]
    exact ⟨fun c inside =>
        ⟨divides.kinds r member c inside, divides.kindsOneLine r member c inside⟩,
      fun _ => divides.number, fun _ => divides.number, fun _ => divides.number,
      List.forall_mem_nil _⟩
  refine ⟨fun column place c inside => (each column place c inside).1,
    fun column place c inside => (each column place c inside).2,
    toString r.operation.scheduledStart.millis, by simp [row], ?_⟩
  obtain ⟨c, inside⟩ := List.exists_mem_of_ne_nil _
    (mt String.toList_eq_nil_iff.mp (Nat.repr_ne_empty (n := r.operation.scheduledStart.millis)))
  exact ⟨c, inside, Text.isBlank_of_mem_toString inside⟩

/-- The rows that are read from a log that has refused nothing. -/
theorem Written.rows (written : Written delimiter results log)
    (divides : Divides delimiter results) :
    Rows.ofBytes delimiter (Text.bytesOf log.sink.text) =
      .ok header :: (results.map told).map fun t => .ok (columnsOf t) := by
  have legible : ∀ fields ∈ header :: results.map row, Legible delimiter fields := by
    refine List.forall_mem_cons.mpr ⟨header_legible divides, fun fields place => ?_⟩
    obtain ⟨r, member, rfl⟩ := List.mem_map.mp place
    exact row_legible divides member
  rw [written.text.2, textOf, join_rows fun fields member => (legible fields member).some,
    ofBytes_legible divides.nonempty divides.oneLine legible, List.map_cons, List.map_map,
    List.map_map]
  rfl

/-- Any results can be logged.  A log that has refused nothing is read back as its header and a row
of four columns for each result, in order, and no results that tell anything else give the same
text. -/
theorem rows_of_log (divides : Divides delimiter results) :
    (∃ log, Written delimiter results log) ∧
    ∀ log, Written delimiter results log →
      Rows.ofBytes delimiter (Text.bytesOf log.sink.text) =
        .ok header :: (results.map told).map (fun t => .ok (columnsOf t)) ∧
      ∀ others other, Divides delimiter others → Written delimiter others other →
        others.map told ≠ results.map told → other.sink.text ≠ log.sink.text := by
  obtain ⟨log, written, -⟩ := exists_written delimiter results
  refine ⟨⟨log, written⟩, fun log written => ⟨written.rows divides, ?_⟩⟩
  intro others other divides' written' different same
  have read := written'.rows divides'
  rw [same, written.rows divides] at read
  refine different (List.map_injective_iff.mpr ?_ (List.cons.inj read).2.symm)
  exact fun a b equal => columnsOf_injective (Except.ok.inj equal)

/-- A result without a kind, and one that ran for more milliseconds than 64 bits can count. -/
def spaced : List OperationResult :=
  [⟨⟨0, "", Instant.ofMillis 20, none, .null⟩, ⟨20999999, by decide⟩, Span.zero, 0, .null, false⟩,
    ⟨⟨1, "scan|all", Instant.first, none, .null⟩, Instant.last,
      ⟨18446744073709551619 * 1000000, by decide⟩, 0, .null, false⟩]

/-- Columns are read back between two spaces, an empty one too. -/
theorem rows_of_log_spaced :
    Divides "  " spaced ∧ ∃ log, Written "  " spaced log ∧
      Rows.ofBytes "  " (Text.bytesOf log.sink.text) =
        [.ok header, .ok ["", "20", "20", "0"], .ok ["scan|all", "0", "18446744073709", "3"]] ∧
      ∀ other, Written "  " [] other → other.sink.text ≠ log.sink.text := by
  have blank : ∀ c ∈ ("  ").toList, c = ' ' := by simp
  have kinds : ∀ r ∈ spaced, ∀ c ∈ r.operation.kind.toList, c ≠ ' ' ∧ c ≠ '\r' ∧ c ≠ '\n' := by
    intro r member c inside
    simpa using forall_of_all ["", "scan|all"]
      (fun c => c != ' ' && (c != '\r' && c != '\n')) (by decide) _
      (List.mem_map_of_mem (f := (·.operation.kind)) member) c inside
  have divides (results : List OperationResult) (some : ∀ r ∈ results, r ∈ spaced) :
      Divides "  " results :=
    { nonempty := by decide
      names := fun name member c inside mark => by
        have shown := forall_of_all header (· != ' ') (by decide) name member c inside
        simp [blank c mark] at shown
      digits := fun c mark => by rw [blank c mark]; decide
      kinds := fun r member c inside mark => (kinds r (some r member) c inside).1 (blank c mark)
      oneLine := fun c mark => by rw [blank c mark]; decide
      kindsOneLine := fun r member c inside => (kinds r (some r member) c inside).2 }
  obtain ⟨⟨log, written⟩, read⟩ := rows_of_log (divides spaced fun _ => id)
  obtain ⟨rows, distinct⟩ := read log written
  exact ⟨divides spaced fun _ => id, log, written, rows.trans (by decide),
    fun other empty => distinct [] other (divides [] nofun) empty nofun⟩

end ResultsLog

end PacedLoad.Stats
