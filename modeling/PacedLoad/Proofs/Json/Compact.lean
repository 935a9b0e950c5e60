import PacedLoad.Json.Text
import PacedLoad.Json.Tree
import PacedLoad.Proofs.Text.Numeral

/-!
# Compact text

The compact text of a value stands on one line: control characters occur only inside
strings, where they are escaped.  A text that is read as a value is not blank.
-/

namespace PacedLoad.Json

/-! ## Text without control characters -/

/-- A text without control characters. -/
def Plain (s : String) : Prop := ∀ c ∈ s.toList, ' ' ≤ c

instance (s : String) : Decidable (Plain s) := List.decidableBAll (' ' ≤ ·) s.toList

@[simp] theorem plain_append {s t : String} : Plain (s ++ t) ↔ Plain s ∧ Plain t := by
  simp [Plain, or_imp, forall_and]

@[simp] theorem plain_ofList {l : List Char} : Plain (String.ofList l) ↔ ∀ c ∈ l, ' ' ≤ c := by
  rw [Plain, String.toList_ofList]

theorem Plain.lineFeed_notMem {s : String} (plain : Plain s) : '\n' ∉ s.toList :=
  fun inside => absurd (plain _ inside) (by decide)

theorem Plain.return_notMem {s : String} (plain : Plain s) : '\r' ∉ s.toList :=
  fun inside => absurd (plain _ inside) (by decide)

theorem space_le_of_isDigit {c : Char} (digit : c.isDigit = true) : ' ' ≤ c := by
  simp only [Char.isDigit, Bool.and_eq_true, decide_eq_true_eq, ge_iff_le] at digit
  exact Char.le_trans (b := '0') (by decide) digit.1

theorem plain_natural (n : Nat) : Plain (toString n) :=
  fun _ inside => space_le_of_isDigit (Text.isDigit_of_mem_toString inside)

theorem plain_integer (n : Int) : Plain (toString n) := by
  cases n with
  | ofNat n => exact plain_natural n
  | negSucc n => exact plain_append.mpr ⟨by decide, plain_natural (n + 1)⟩

/-! ## Doubles -/

theorem plain_pointAfter {digits : List Char} (plain : Plain (String.ofList digits)) (k : Nat) :
    Plain (Decimal.pointAfter digits k) := by
  rw [plain_ofList] at plain
  simp only [Decimal.pointAfter, plain_append, plain_ofList]
  exact ⟨⟨fun c inside => plain c (List.mem_of_mem_take inside), by decide⟩,
    fun c inside => plain c (List.mem_of_mem_drop inside)⟩

theorem plain_zeros (n : Nat) : Plain (Decimal.zeros n) :=
  plain_ofList.mpr fun c inside => by rw [List.eq_of_mem_replicate inside]; decide

theorem plain_leading (s : Decimal.Scaled) : Plain (String.ofList s.leading.1) := by
  refine plain_ofList.mpr fun c inside => ?_
  have digits := (List.dropWhile_sublist _).subset (List.mem_reverse.mp inside)
  exact plain_natural s.digits c (List.mem_reverse.mp digits)

theorem plain_positive (s : Decimal.Scaled) : Plain (doubleLayout.positive s) := by
  have digits := plain_leading s
  have point : Plain "0." := by decide
  have tail : Plain doubleLayout.wholeTail := by decide
  have positive : Plain doubleLayout.positiveMark := by decide
  have negative : Plain doubleLayout.negativeMark := by decide
  unfold Decimal.Layout.positive
  dsimp only
  split_ifs
  all_goals simp only [plain_append, plain_pointAfter digits, plain_zeros, plain_natural, digits,
    point, tail, positive, negative, and_self]

theorem plain_double (x : Binary64) : Plain (doubleText x) := by
  unfold doubleText Decimal.Layout.text?
  split
  · rename_i negative m q content
    have sign : Plain (if negative then "-" else "") := by cases negative <;> decide
    dsimp only
    generalize (if negative then "-" else "") = mark at sign ⊢
    split
    · exact plain_append.mpr ⟨plain_append.mpr ⟨sign, by decide⟩, by decide⟩
    · exact plain_append.mpr ⟨sign, plain_positive _⟩
  · decide

/-! ## Strings -/

theorem space_le_hexDigit : ∀ n < 16, ' ' ≤ hexDigit n := by decide

/-- A control character is escaped. -/
theorem space_le_of_mem_escape {c d : Char} (inside : d ∈ escape c) : ' ' ≤ d := by
  unfold escape at inside
  split at inside
  case h_8 =>
    split at inside
    next control =>
      have code : c.toNat < 32 := control
      have high := space_le_hexDigit (c.toNat / 16) (by omega)
      have low := space_le_hexDigit (c.toNat % 16) (by omega)
      simp only [List.mem_cons, List.not_mem_nil, or_false] at inside
      rcases inside with rfl | rfl | rfl | rfl | rfl | rfl
      all_goals first
        | exact high
        | exact low
        | decide
    next printed =>
      rw [List.mem_singleton.mp inside]
      exact Char.not_lt.mp printed
  all_goals
    simp only [List.mem_cons, List.not_mem_nil, or_false] at inside
    rcases inside with rfl | rfl <;> decide

theorem plain_quote (s : String) : Plain (quote s) := by
  refine plain_ofList.mpr fun c inside => ?_
  simp only [List.mem_cons, List.mem_append, List.mem_flatMap, List.not_mem_nil, or_false] at inside
  rcases inside with rfl | ⟨_, -, inside⟩ | rfl
  · decide
  · exact space_le_of_mem_escape inside
  · decide

/-! ## Values -/

mutual

/-- The compact text of a value has no control characters. -/
theorem plain_compact : (v : Value) → Plain v.compact
  | .null => by decide
  | .bool b => by cases b <;> decide
  | .int n => plain_integer n
  | .double x => plain_double x
  | .string s => plain_quote s
  | .array items => by
    simp only [Value.compact, plain_append, plain_compactItems items]
    decide
  | .object members => by
    simp only [Value.compact, plain_append, plain_compactMembers members]
    decide

theorem plain_compactItems : (items : List Value) → Plain (Value.compactItems items)
  | [] => by decide
  | [v] => plain_compact v
  | v :: next :: rest => by
    simp only [Value.compactItems, plain_append, plain_compact v, plain_compactItems (next :: rest)]
    decide

theorem plain_compactMembers : (members : List (String × Value)) →
    Plain (Value.compactMembers members)
  | [] => by decide
  | [(k, v)] => by
    simp only [Value.compactMembers, plain_append, plain_quote, plain_compact v]
    decide
  | (k, v) :: next :: rest => by
    simp only [Value.compactMembers, plain_append, plain_quote, plain_compact v,
      plain_compactMembers (next :: rest)]
    decide

end

/-! ## Blank text -/

theorem scan_blank {c : Char} (blank : Text.isBlank c = true) (rest : List Char) :
    scan c rest = none := by
  unfold scan
  split
  case h_12 =>
    rw [if_neg]
    intro digit
    simp [Text.isBlank_of_isDigit digit] at blank
  all_goals exact absurd blank (by decide)

theorem tokens_blank {s : List Char} (blank : ∀ c ∈ s, Text.isBlank c = true) :
    tokens s = some [] ∨ tokens s = none := by
  fun_induction tokens s with
  | case1 => exact .inl rfl
  | case2 c rest here ih => exact ih (List.forall_mem_cons.mp blank).2
  | case3 => exact .inr rfl
  | case4 c rest here t after scanned shorter ih =>
    rw [scan_blank (blank c List.mem_cons_self)] at scanned
    exact absurd scanned nofun

/-- A blank text is not read as a value. -/
theorem ofText?_blank {text : String} (blank : ∀ c ∈ text.toList, Text.isBlank c = true) :
    Value.ofText? text = none := by
  rw [Value.ofText?, Tree.ofText?]
  rcases tokens_blank blank with none | wrong
  · rw [none]
    rfl
  · rw [wrong]
    rfl

end PacedLoad.Json
