import Mathlib.Data.List.TakeWhile
import Mathlib.Data.String.Basic
import PacedLoad.Text.Blank
import PacedLoad.Text.Numeral

/-!
# Blanks and numerals

Trimming only takes blanks away, and only from the ends.  A natural number that is
written in decimal digits is read back if it fits 64 bits.
-/

namespace PacedLoad.Text

/-! ## Blanks -/

theorem dropWhile_isBlank {l : List Char} (solid : ∀ c ∈ l, isBlank c = false) :
    l.dropWhile isBlank = l := by
  cases l with
  | nil => rfl
  | cons c rest => rw [List.dropWhile_cons_of_neg (by simp [solid c List.mem_cons_self])]

/-- A text without blanks stays as it is. -/
theorem trim_solid {s : String} (solid : ∀ c ∈ s.toList, isBlank c = false) : trim s = s := by
  have back : ∀ c ∈ s.toList.reverse, isBlank c = false :=
    fun c inside => solid c (List.mem_reverse.mp inside)
  rw [trim, dropWhile_isBlank solid, dropWhile_isBlank back, List.reverse_reverse,
    String.ofList_toList]

/-- Nothing is left of a text if all of it is blank, and only then. -/
theorem trim_isEmpty (s : String) : (trim s).isEmpty = s.toList.all isBlank := by
  rw [Bool.eq_iff_iff, String.isEmpty_iff, trim, ← String.toList_eq_nil_iff, String.toList_ofList,
    List.reverse_eq_nil_iff, List.dropWhile_eq_nil_iff, List.all_eq_true]
  constructor
  · intro blank c inside
    by_cases kept : c ∈ s.toList.dropWhile isBlank
    · exact blank c (List.mem_reverse.mpr kept)
    · rw [← List.takeWhile_append_dropWhile (p := isBlank) (l := s.toList)] at inside
      exact List.mem_takeWhile_imp ((List.mem_append.mp inside).resolve_right kept)
  · intro blank c kept
    exact blank c ((List.dropWhile_sublist _).subset (List.mem_reverse.mp kept))

theorem isBlank_of_isAlphanum {c : Char} (plain : c.isAlphanum = true) : isBlank c = false := by
  have ranges : ((65 ≤ c.toNat ∧ c.toNat ≤ 90) ∨ (97 ≤ c.toNat ∧ c.toNat ≤ 122)) ∨
      (48 ≤ c.toNat ∧ c.toNat ≤ 57) := by
    rcases Bool.or_eq_true_iff.mp plain with letter | digit
    · rcases Bool.or_eq_true_iff.mp letter with upper | lower
      · exact .inl (.inl (of_decide_eq_true upper))
      · obtain ⟨least, greatest⟩ := Bool.and_eq_true_iff.mp lower
        exact .inl (.inr ⟨of_decide_eq_true least, of_decide_eq_true greatest⟩)
    · obtain ⟨least, greatest⟩ := Bool.and_eq_true_iff.mp digit
      exact .inr ⟨of_decide_eq_true least, of_decide_eq_true greatest⟩
  simp only [isBlank, Bool.or_eq_false_iff, Bool.and_eq_false_iff, decide_eq_false_iff_not,
    beq_eq_false_iff_ne]
  omega

theorem isBlank_of_isDigit {c : Char} (digit : c.isDigit = true) : isBlank c = false :=
  isBlank_of_isAlphanum (by rw [Char.isAlphanum, digit, Bool.or_true])

/-! ## Numerals -/

/-- A natural number is written in decimal digits. -/
theorem isDigit_of_mem_toString {n : Nat} {c : Char} (member : c ∈ (toString n).toList) :
    c.isDigit = true := by
  rw [Nat.toString_eq_ofList_toDigits, String.toList_ofList] at member
  exact Nat.isDigit_of_mem_toDigits (by decide) (by decide) member

theorem isBlank_of_mem_toString {n : Nat} {c : Char} (member : c ∈ (toString n).toList) :
    isBlank c = false :=
  isBlank_of_isDigit (isDigit_of_mem_toString member)

/-- The digits of a natural number stand for it. -/
theorem digitsValue?_toString (n : Nat) : digitsValue? (toString n).toList = some n := by
  have digits : (toString n).toList.all Char.isDigit = true :=
    List.all_eq_true.mpr fun c => isDigit_of_mem_toString
  rw [digitsValue?, digits, if_neg (by simp), Nat.toString_eq_ofList_toDigits,
    String.toList_ofList]
  conv_rhs => rw [← Nat.ofDigitChars_toDigits (b := 10) (n := n) (by decide) (by decide),
    Nat.ofDigitChars_eq_foldl]
  simp only [Nat.mul_comm 10]

/-- A natural number of at most 64 bits is read back from its digits. -/
theorem natural?_toString {n : Nat} (fits : n < 18446744073709551616) :
    natural? (toString n) = some n := by
  have unsigned : ∀ rest, (toString n).toList ≠ '+' :: rest := by
    intro rest signed
    have digit : '+'.isDigit = true :=
      isDigit_of_mem_toString (n := n) (signed ▸ List.mem_cons_self)
    exact absurd digit (by decide)
  unfold natural?
  split
  · exact absurd ‹_› (unsigned _)
  · rw [digitsValue?_toString, Option.filter_some, if_pos (decide_eq_true fits)]

end PacedLoad.Text
