import PacedLoad.Proofs.Text.Utf8

/-!
# Lines and columns of a text

A text without line feeds is one line, and only the carriage return just before its
end is taken off.  A column ends where the delimiter starts for the first time, and
columns that are put together again with the delimiter are the text that was taken
apart.
-/

namespace PacedLoad.Text

/-! ## Lines -/

/-- The bytes up to a line feed are a line. -/
theorem linesFrom_ended {line : List UInt8} (whole : 10 ∉ line) (current rest : List UInt8) :
    linesFrom current (line ++ 10 :: rest) =
      (withoutReturn (line.reverse ++ current)).reverse :: linesFrom [] rest := by
  induction line generalizing current with
  | nil => simp [linesFrom]
  | cons b line ih =>
    obtain ⟨here, later⟩ := List.ne_and_not_mem_of_not_mem_cons whole
    rw [List.cons_append, linesFrom, if_neg (Ne.symm here), ih later]
    simp

/-- The bytes after the last line feed are a line, if there are any. -/
theorem linesFrom_last {line : List UInt8} (whole : 10 ∉ line) (current : List UInt8) :
    linesFrom current line =
      if line.reverse ++ current = [] then [] else [(line.reverse ++ current).reverse] := by
  induction line generalizing current with
  | nil => rfl
  | cons b line ih =>
    obtain ⟨here, later⟩ := List.ne_and_not_mem_of_not_mem_cons whole
    rw [linesFrom, if_neg (Ne.symm here), ih later, List.reverse_cons, List.append_assoc]
    rfl

def chomp (s : String) : String :=
  if s.toList.getLast? = some '\r' then String.ofList s.toList.dropLast else s

theorem chomp_return (s : String) : chomp (s ++ "\r") = s := by
  simp [chomp]

theorem chomp_other {s : String} (plain : '\r' ∉ s.toList) : chomp s = s := by
  rw [chomp, if_neg fun last => plain (List.mem_of_getLast? last)]

theorem mem_chomp {s : String} {c : Char} (member : c ∈ (chomp s).toList) : c ∈ s.toList := by
  unfold chomp at member
  split at member
  · rw [String.toList_ofList] at member
    exact (List.dropLast_sublist _).subset member
  · exact member

theorem lineFeed_notMem_bytesOf {s : String} (whole : '\n' ∉ s.toList) : 10 ∉ bytesOf s := by
  intro member
  rw [bytesOf_eq] at member
  obtain ⟨c, inside, byte⟩ := List.mem_flatMap.mp member
  have same : c = '\n' := Char.toNat_inj.mp (toNat_of_mem_encodeChar byte (by decide))
  exact whole (same ▸ inside)

theorem withoutReturn_other {b : UInt8} (other : b ≠ 13) (rest : List UInt8) :
    withoutReturn (b :: rest) = b :: rest := by
  unfold withoutReturn
  split
  next same => exact absurd (List.cons.inj same).1 other
  next => rfl

/-- The carriage return at the end of a line is a character of its own. -/
theorem withoutReturn_bytesOf (s : String) :
    (withoutReturn (bytesOf s).reverse).reverse = bytesOf (chomp s) := by
  rcases List.eq_nil_or_concat s.toList with empty | ⟨front, c, text⟩
  · simp [bytesOf_eq, chomp, empty, withoutReturn]
  · rw [List.concat_eq_append] at text
    have bytes : (bytesOf s).reverse =
        (String.utf8EncodeChar c).reverse ++ (front.flatMap String.utf8EncodeChar).reverse := by
      simp [bytesOf_eq, text]
    by_cases ended : c = '\r'
    · subst ended
      have code : String.utf8EncodeChar '\r' = [13] := rfl
      simp [chomp, text, code, withoutReturn, bytesOf_eq]
    · have kept : chomp s = s := by simp [chomp, text, ended]
      rw [kept, bytes]
      cases code : (String.utf8EncodeChar c).reverse with
      | nil => exact absurd (List.reverse_eq_nil_iff.mp code) String.utf8EncodeChar_ne_nil
      | cons b rest =>
        have other : b ≠ 13 := by
          rintro rfl
          have member : 13 ∈ String.utf8EncodeChar c := by
            rw [← List.mem_reverse, code]
            exact List.mem_cons_self
          exact ended (Char.toNat_inj.mp (toNat_of_mem_encodeChar member (by decide)))
        rw [List.cons_append, withoutReturn_other other, ← List.cons_append, ← code, ← bytes,
          List.reverse_reverse]

/-- The lines of texts that end with line feeds, and of a last one that does not. -/
theorem lines_join (texts : List String) (last : String)
    (whole : ∀ s ∈ texts, '\n' ∉ s.toList) (wholeLast : '\n' ∉ last.toList) :
    lines (bytesOf (String.join (texts.map (· ++ "\n")) ++ last)) =
      texts.map (fun s => bytesOf (chomp s)) ++ if last = "" then [] else [bytesOf last] := by
  unfold lines
  induction texts with
  | nil =>
    have bytes : bytesOf last = [] ↔ last = "" := by
      rw [bytesOf_eq, ← String.toList_eq_nil_iff]
      cases last.toList with
      | nil => simp
      | cons c rest => simp [String.utf8EncodeChar_ne_nil]
    simp [linesFrom_last (lineFeed_notMem_bytesOf wholeLast), bytes]
  | cons s rest ih =>
    obtain ⟨here, later⟩ := List.forall_mem_cons.mp whole
    have feed : bytesOf "\n" = [10] := by
      rw [bytesOf_eq]
      rfl
    rw [List.map_cons, String.join_cons, bytesOf_append, bytesOf_append, bytesOf_append, feed,
      List.append_assoc, List.append_assoc, List.singleton_append,
      linesFrom_ended (lineFeed_notMem_bytesOf here), List.append_nil, withoutReturn_bytesOf,
      ← bytesOf_append, ih later]
    rfl

/-! ## Columns -/

/-- The delimiter starts with its first character. -/
theorem not_starts {delimiter : List Char} {c : Char} (other : delimiter.head? ≠ some c)
    (rest : List Char) : ¬ (delimiter ≠ [] ∧ delimiter.isPrefixOf (c :: rest) = true) := by
  rintro ⟨nonempty, starts⟩
  obtain ⟨d, more, rfl⟩ := List.exists_cons_of_ne_nil nonempty
  rw [List.isPrefixOf_cons_cons, Bool.and_eq_true, beq_iff_eq] at starts
  exact other (congrArg some starts.1)

/-- The delimiter does not start before the end of a column. -/
theorem columnsFrom_append {delimiter column : List Char}
    (apart : ∀ c ∈ column, delimiter.head? ≠ some c) (nonempty : delimiter ≠ [])
    (current rest : List Char) :
    columnsFrom delimiter current (column ++ delimiter ++ rest) =
      (current.reverse ++ column) :: columnsFrom delimiter [] rest := by
  induction column generalizing current with
  | nil =>
    obtain ⟨d, more, rfl⟩ := List.exists_cons_of_ne_nil nonempty
    rw [List.nil_append, List.cons_append, columnsFrom, if_pos]
    · simp
    · simp [List.isPrefixOf_iff_prefix]
  | cons c column ih =>
    obtain ⟨here, later⟩ := List.forall_mem_cons.mp apart
    rw [List.cons_append, List.cons_append, columnsFrom, if_neg (not_starts here _), ih later]
    simp

/-- Where the delimiter does not start, all that is left is one column. -/
theorem columnsFrom_last {delimiter column : List Char}
    (apart : ∀ c ∈ column, delimiter.head? ≠ some c) (current : List Char) :
    columnsFrom delimiter current column = [current.reverse ++ column] := by
  induction column generalizing current with
  | nil => simp [columnsFrom]
  | cons c column ih =>
    obtain ⟨here, later⟩ := List.forall_mem_cons.mp apart
    rw [columnsFrom, if_neg (not_starts here _), ih later]
    simp

theorem columnsFrom_ne_nil (delimiter current s : List Char) :
    columnsFrom delimiter current s ≠ [] := by
  fun_induction columnsFrom delimiter current s <;> simp_all

/-- Columns that are put together again. -/
theorem intercalate_columnsFrom (delimiter current s : List Char) :
    delimiter.intercalate (columnsFrom delimiter current s) = current.reverse ++ s := by
  fun_induction columnsFrom delimiter current s with
  | case1 current => simp
  | case2 current c rest starts ih =>
    obtain ⟨nonempty, starts⟩ := starts
    obtain ⟨after, whole⟩ := List.isPrefixOf_iff_prefix.mp starts
    rw [List.intercalate_cons_of_ne_nil (columnsFrom_ne_nil _ _ _), ih]
    obtain ⟨d, more, rfl⟩ := List.exists_cons_of_ne_nil nonempty
    obtain ⟨rfl, rfl⟩ := List.cons.inj whole
    simp
  | case3 current c rest other ih => simp [ih]

/-- A text that shares no character with the delimiter is a column. -/
theorem columns_append {delimiter column : String} (nonempty : delimiter ≠ "")
    (apart : ∀ c ∈ column.toList, c ∉ delimiter.toList) (rest : String) :
    columns delimiter (column ++ delimiter ++ rest) = column :: columns delimiter rest := by
  have head : ∀ c ∈ column.toList, delimiter.toList.head? ≠ some c :=
    fun c inside first => apart c inside (List.mem_of_head? first)
  simp only [columns, if_neg nonempty, String.toList_append]
  rw [columnsFrom_append head (mt String.toList_eq_nil_iff.mp nonempty)]
  simp

theorem columns_single {delimiter column : String} (nonempty : delimiter ≠ "")
    (apart : ∀ c ∈ column.toList, c ∉ delimiter.toList) : columns delimiter column = [column] := by
  have head : ∀ c ∈ column.toList, delimiter.toList.head? ≠ some c :=
    fun c inside first => apart c inside (List.mem_of_head? first)
  rw [columns, if_neg nonempty, columnsFrom_last head]
  simp

/-- Texts that share no character with the delimiter are found again between delimiters. -/
theorem columns_intercalate {delimiter : String} (nonempty : delimiter ≠ "") {row : List String}
    (some : row ≠ []) (apart : ∀ column ∈ row, ∀ c ∈ column.toList, c ∉ delimiter.toList) :
    columns delimiter (String.intercalate delimiter row) = row := by
  induction row with
  | nil => exact absurd rfl some
  | cons column rest ih =>
    obtain ⟨here, later⟩ := List.forall_mem_cons.mp apart
    cases rest with
    | nil => rw [String.intercalate_singleton, columns_single nonempty here]
    | cons next more =>
      rw [String.intercalate_cons_cons, columns_append nonempty here, ih nofun later]

/-- The columns with the delimiter between them are the text. -/
theorem intercalate_columns {delimiter : String} (nonempty : delimiter ≠ "") (s : String) :
    String.intercalate delimiter (columns delimiter s) = s := by
  refine String.toList_inj.mp ?_
  rw [columns, if_neg nonempty, String.toList_intercalate, List.map_map]
  have plain : String.toList ∘ String.ofList = id := funext fun l => String.toList_ofList
  rw [plain, List.map_id, intercalate_columnsFrom]
  rfl

end PacedLoad.Text
