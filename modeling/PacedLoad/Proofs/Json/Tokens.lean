import Mathlib.Data.List.TakeWhile
import Mathlib.Data.String.Basic
import PacedLoad.Json.Number
import PacedLoad.Json.Text
import PacedLoad.Json.Tree
import PacedLoad.Proofs.Text.Numeral

/-!
# Tokens of a text that is put together

A token that is complete stays what it is when more text follows; only a number has to be
broken off.  So two texts one after the other have the tokens of both.  A whole number and a
quoted string are single tokens that mean what was written.
-/

namespace PacedLoad.Json

variable {s after more : List Char}

/-! ## Text that follows -/

/-- A text that does not carry on a number that ends before it. -/
def Breaks (s : List Char) : Prop :=
  ∀ c ∈ s.head?, c.isDigit = false ∧ c ≠ '.' ∧ c ≠ 'e' ∧ c ≠ 'E'

theorem breaks_cons {c : Char} {rest : List Char} :
    Breaks (c :: rest) ↔ c.isDigit = false ∧ c ≠ '.' ∧ c ≠ 'e' ∧ c ≠ 'E' := by
  simp [Breaks]

theorem breaks_mark {c : Char} {rest : List Char} (mark : c ∈ [',', ':', ']', '\x7d']) :
    Breaks (c :: rest) := by
  simp only [List.mem_cons, List.not_mem_nil, or_false] at mark
  rcases mark with rfl | rfl | rfl | rfl <;> exact breaks_cons.mpr (by decide)

theorem digits_append (s : List Char) (breaks : Breaks more) :
    digits (s ++ more) = ((digits s).1, (digits s).2 ++ more) := by
  induction s with
  | nil =>
    cases more with
    | nil => rfl
    | cons c rest => simp [digits, (breaks_cons.mp breaks).1]
  | cons c rest ih =>
    simp only [digits, Prod.mk.injEq] at ih ⊢
    by_cases digit : c.isDigit = true
    · simp [digit, ih.1, ih.2]
    · simp [digit]

theorem scanFraction_of_ne (pointless : ∀ rest, s ≠ '.' :: rest) :
    scanFraction s = some ([], s) := by
  unfold scanFraction
  split
  next rest => exact absurd rfl (pointless rest)
  next => rfl

theorem scanFraction_append {found : List Char} (breaks : Breaks more)
    (scanned : scanFraction s = some (found, after)) :
    scanFraction (s ++ more) = some (found, after ++ more) := by
  unfold scanFraction at scanned
  split at scanned
  next rest =>
    dsimp only at scanned
    split at scanned
    · cases scanned
    next digit =>
      cases scanned
      simp only [scanFraction, List.cons_append, digits_append rest breaks, if_neg digit]
  next pointless =>
    cases scanned
    refine scanFraction_of_ne fun rest point => ?_
    cases s with
    | nil =>
      rw [List.nil_append] at point
      exact (breaks_cons.mp (point ▸ breaks)).2.1 rfl
    | cons c tail =>
      obtain ⟨rfl, -⟩ := List.cons.inj point
      exact pointless tail rfl

theorem scanPower_append {negative : Bool} {e : Option (Bool × List Char)} (breaks : Breaks more)
    (scanned : scanPower negative s = some (e, after)) :
    scanPower negative (s ++ more) = some (e, after ++ more) := by
  unfold scanPower at scanned ⊢
  rw [digits_append s breaks]
  dsimp only at scanned ⊢
  split at scanned
  · cases scanned
  next digit =>
    cases scanned
    rw [if_neg digit]

theorem scanExponent_append {e : Option (Bool × List Char)} (breaks : Breaks more)
    (scanned : scanExponent s = some (e, after)) :
    scanExponent (s ++ more) = some (e, after ++ more) := by
  unfold scanExponent at scanned
  split at scanned
  next =>
    cases scanned
    cases more with
    | nil => rfl
    | cons c rest =>
      obtain ⟨-, -, lower, upper⟩ := breaks_cons.mp breaks
      simp [scanExponent, lower, upper]
  next c rest =>
    split at scanned
    next mark =>
      simp only [List.cons_append, scanExponent, if_pos mark]
      split at scanned
      next => exact scanPower_append breaks scanned
      next => exact scanPower_append breaks scanned
      next minusless plusless =>
        cases rest with
        | nil => cases scanned
        | cons d tail =>
          rw [List.cons_append]
          split
          next minus =>
            obtain ⟨rfl, -⟩ := List.cons.inj minus
            exact absurd rfl (minusless tail)
          next plus =>
            obtain ⟨rfl, -⟩ := List.cons.inj plus
            exact absurd rfl (plusless tail)
          next => exact scanPower_append breaks scanned
    next unmarked =>
      cases scanned
      simp [scanExponent, unmarked]

theorem scanNumber_append {negative : Bool} {n : Numeral} (breaks : Breaks more)
    (scanned : scanNumber negative s = some (n, after)) :
    scanNumber negative (s ++ more) = some (n, after ++ more) := by
  unfold scanNumber at scanned ⊢
  rw [digits_append s breaks]
  dsimp only at scanned ⊢
  split at scanned
  · cases scanned
  next wellFormed =>
    simp only [bind, Option.bind_eq_some_iff, Prod.exists] at scanned
    obtain ⟨_, _, fraction, _, _, exponent, whole⟩ := scanned
    cases whole
    rw [if_neg wellFormed, scanFraction_append breaks fraction]
    simp only [bind, Option.bind_some, scanExponent_append breaks exponent]

/-- A character that needs no escape stands for itself. -/
theorem scanString_printed {c : Char} (notQuote : c ≠ '"') (printed : ¬(c = '\\' ∨ c < ' '))
    (rest : List Char) :
    scanString (c :: rest) = (scanString rest).map fun p => (.char c :: p.1, p.2) := by
  rw [scanString.eq_5 c rest (fun quote => notQuote quote)
    (fun _ _ _ _ _ slash _ => printed (.inl slash)) (fun _ _ slash _ => printed (.inl slash)),
    if_neg printed]
  cases scanString rest <;> rfl

theorem scanString_append {parts : List StringPart} (more : List Char)
    (scanned : scanString s = some (parts, after)) :
    scanString (s ++ more) = some (parts, after ++ more) := by
  fun_induction scanString s generalizing parts after with
  | case1 => cases scanned
  | case2 rest =>
    cases scanned
    simp [scanString]
  | case3 a b c d rest ih =>
    simp only [bind, Option.bind_eq_some_iff, Prod.exists] at scanned
    obtain ⟨_, first, _, second, _, third, _, fourth, _, _, later, same⟩ := scanned
    cases same
    simp only [List.cons_append, scanString, first, second, third, fourth, bind, Option.bind_some,
      ih later]
  | case4 c rest named ih =>
    simp only [bind, Option.bind_eq_some_iff, Prod.exists] at scanned
    obtain ⟨char, escaped, _, _, later, same⟩ := scanned
    cases same
    -- A unit that is cut short stays an error, whatever follows.
    have known : c ≠ 'u' := by
      rintro rfl
      cases escaped
    simp [scanString, known, escaped, ih later]
  | case5 => cases scanned
  | case6 c rest notQuote _ _ printed ih =>
    simp only [bind, Option.bind_eq_some_iff, Prod.exists] at scanned
    obtain ⟨_, _, later, same⟩ := scanned
    cases same
    rw [List.cons_append, scanString_printed notQuote printed, ih later]
    rfl

/-- A word is found at the start of a text also when more follows. -/
theorem word_append {word : List Char} {n : Nat} {t t' : Token} (size : word.length = n)
    (scanned : (if s.take n = word then some (t', s.drop n) else none) = some (t, after)) :
    (if (s ++ more).take n = word then some (t', (s ++ more).drop n) else none) =
      some (t, after ++ more) := by
  split at scanned
  next same =>
    cases scanned
    have long : n ≤ s.length := by
      have := congrArg List.length same
      rw [List.length_take] at this
      omega
    rw [List.take_append_of_le_length long, List.drop_append_of_le_length long, if_pos same]
  · cases scanned

theorem scan_append {c : Char} {t : Token} (breaks : Breaks more)
    (scanned : scan c s = some (t, after)) : scan c (s ++ more) = some (t, after ++ more) := by
  unfold scan at scanned ⊢
  split at scanned
  case h_7 =>
    simp only [Option.map_eq_some_iff, Prod.exists, Prod.mk.injEq] at scanned
    obtain ⟨_, _, found, rfl, rfl⟩ := scanned
    rw [scanString_append more found]
    rfl
  case h_8 => exact word_append rfl scanned
  case h_9 => exact word_append rfl scanned
  case h_10 => exact word_append rfl scanned
  case h_11 =>
    simp only [Option.map_eq_some_iff, Prod.exists, Prod.mk.injEq] at scanned
    obtain ⟨_, _, found, rfl, rfl⟩ := scanned
    rw [scanNumber_append breaks found]
    rfl
  case h_12 =>
    split at scanned
    next digit =>
      simp only [Option.map_eq_some_iff, Prod.exists, Prod.mk.injEq] at scanned
      obtain ⟨_, _, found, rfl, rfl⟩ := scanned
      rw [← List.cons_append, scanNumber_append breaks found, if_pos digit]
      rfl
    · cases scanned
  all_goals
    cases scanned
    rfl

theorem tokens_nil : tokens [] = some [] := by rw [tokens]

theorem tokens_cons (c : Char) (rest : List Char) :
    tokens (c :: rest) = if isBlank c then tokens rest else
      (scan c rest).bind fun p => (tokens p.2).map (p.1 :: ·) := by
  rw [tokens]
  split
  · rfl
  · split
    next none => rw [none]; rfl
    next found => simp only [found, Option.bind_some]

/-- Two texts one after the other have the tokens of both. -/
theorem tokens_append {ts : List Token} (breaks : Breaks more) (split : tokens s = some ts) :
    tokens (s ++ more) = (tokens more).map (ts ++ ·) := by
  fun_induction tokens s generalizing ts with
  | case1 =>
    cases split
    exact (Option.map_id' (x := tokens more)).symm
  | case2 c rest blank ih => rw [List.cons_append, tokens_cons, if_pos blank, ih split]
  | case3 => cases split
  | case4 c rest solid t after scanned _ ih =>
    obtain ⟨later, found, rfl⟩ := Option.map_eq_some_iff.mp split
    rw [List.cons_append, tokens_cons, if_neg solid, scan_append breaks scanned, Option.bind_some,
      ih found, Option.map_map]
    rfl

/-! ## Whole numbers -/

def Numeral.ofInt (n : Int) : Numeral := ⟨decide (n < 0), Nat.toDigits 10 n.natAbs, [], none⟩

/-- No needless zero leads. -/
theorem head?_toDigits {n : Nat} (positive : 0 < n) : (Nat.toDigits 10 n).head? ≠ some '0' := by
  induction n using Nat.strongRecOn with
  | ind n ih =>
    by_cases small : n < 10
    · rw [Nat.toDigits_of_lt_base small]
      have zeroOnly : ∀ n < 10, n.digitChar = '0' → n = 0 := by decide
      intro zero
      exact absurd (zeroOnly n small (Option.some.inj zero)) (by omega)
    · rw [Nat.toDigits_of_base_le (by decide) (by omega),
        List.head?_append_of_ne_nil _ Nat.toDigits_ne_nil]
      exact ih (n / 10) (by omega) (by omega)

theorem scanNumber_toDigits (negative : Bool) (n : Nat) :
    scanNumber negative (Nat.toDigits 10 n) =
      some (⟨negative, Nat.toDigits 10 n, [], none⟩, []) := by
  have allDigits : ∀ c ∈ Nat.toDigits 10 n, c.isDigit = true :=
    fun c => Nat.isDigit_of_mem_toDigits (by decide) (by decide)
  have whole : digits (Nat.toDigits 10 n) = (Nat.toDigits 10 n, []) := by
    rw [digits, List.takeWhile_eq_self_iff.mpr allDigits, List.dropWhile_eq_nil_iff.mpr allDigits]
  have wellFormed : ¬((Nat.toDigits 10 n).isEmpty = true ∨
      ((Nat.toDigits 10 n).head? = some '0' ∧ (Nat.toDigits 10 n).length ≠ 1)) := by
    rintro (empty | ⟨zero, long⟩)
    · exact Nat.toDigits_ne_nil (List.isEmpty_iff.mp empty)
    · rcases Nat.eq_zero_or_pos n with rfl | positive
      · exact long (by rw [Nat.toDigits_zero]; rfl)
      · exact head?_toDigits positive zero
  rw [scanNumber, whole]
  dsimp only
  rw [if_neg wellFormed]
  rfl

theorem scan_digit {c : Char} (digit : c.isDigit = true) (rest : List Char) :
    scan c rest = (scanNumber false (c :: rest)).map fun p => (.number p.1, p.2) := by
  unfold scan
  split
  case h_12 => rw [if_pos digit]
  all_goals exact absurd digit (by decide)

theorem isBlank_of_isDigit {c : Char} (digit : c.isDigit = true) : isBlank c = false := by
  have notBlank : ∀ d, d.isDigit = false → c ≠ d := by
    rintro d other rfl
    rw [digit] at other
    cases other
  simp [isBlank, notBlank]

theorem tokens_natural (n : Nat) :
    tokens (toString n).toList = some [.number (Numeral.ofInt n)] := by
  rw [Nat.toString_eq_ofList_toDigits, String.toList_ofList]
  have scanned := scanNumber_toDigits false n
  have digit : ∀ c ∈ (Nat.toDigits 10 n).head?, c.isDigit = true := fun c first =>
    Nat.isDigit_of_mem_toDigits (by decide) (by decide) (List.mem_of_mem_head? first)
  cases written : Nat.toDigits 10 n with
  | nil => exact absurd written Nat.toDigits_ne_nil
  | cons c rest =>
    have first : c.isDigit = true := digit c (by rw [written]; rfl)
    rw [tokens_cons, isBlank_of_isDigit first, if_neg Bool.false_ne_true, scan_digit first,
      ← written, scanned, Option.map_some, Option.bind_some, tokens_nil, Numeral.ofInt,
      decide_eq_false (by omega), Int.natAbs_natCast]
    rfl

theorem tokens_integer (n : Int) :
    tokens (toString n).toList = some [.number (Numeral.ofInt n)] := by
  cases n with
  | ofNat n => exact tokens_natural n
  | negSucc n =>
    have written : (toString (Int.negSucc n)).toList = '-' :: Nat.toDigits 10 (n + 1) := by
      change ("-" ++ toString (n + 1)).toList = _
      simp
    rw [written, tokens_cons, if_neg (by decide), scan, scanNumber_toDigits, Option.map_some,
      Option.bind_some, tokens_nil, Numeral.ofInt, decide_eq_true (Int.negSucc_lt_zero n)]
    rfl

theorem digitsValue_toDigits (n : Nat) : digitsValue (Nat.toDigits 10 n) = n := by
  conv_rhs => rw [← Nat.ofDigitChars_toDigits (b := 10) (n := n) (by decide) (by decide),
    Nat.ofDigitChars_eq_foldl]
  simp only [digitsValue, digitValue, Nat.mul_comm 10]

/-- A whole number that fits 64 bits means itself. -/
theorem value?_ofInt {n : Int} (least : -9223372036854775808 ≤ n)
    (greatest : n < 18446744073709551616) : (Numeral.ofInt n).value? = some (.int n) := by
  rw [Numeral.value?, Numeral.ofInt]
  dsimp only
  rw [digitsValue_toDigits]
  by_cases negative : n < 0
  · rw [decide_eq_true negative, if_neg (by simp), if_pos (by simp; omega)]
    exact congrArg (fun k => some (Value.int k)) (by omega)
  · rw [decide_eq_false negative, if_pos (by simp; omega)]
    exact congrArg (fun k => some (Value.int k)) (by omega)

/-! ## Quoted strings -/

/-- A character as it is written inside a string: by number if it is a control character without
a name, else as itself. -/
def StringPart.ofChar (c : Char) : StringPart :=
  if c < ' ' ∧ c ∉ ['\x08', '\x0c', '\n', '\r', '\t'] then .unit c.toNat else .char c

def spelled (s : String) : List StringPart := s.toList.map StringPart.ofChar

theorem hexValue?_hexDigit : ∀ n < 16, hexValue? (hexDigit n) = some n := by decide

theorem scanString_named {c char : Char} (known : unescape? c = some char) (rest : List Char) :
    scanString ('\\' :: c :: rest) = (scanString rest).map fun p => (.char char :: p.1, p.2) := by
  have notUnit : c ≠ 'u' := by
    rintro rfl
    cases known
  simp only [scanString.eq_4 c rest fun _ _ _ _ _ unit _ => notUnit unit, known, bind,
    Option.bind_some]
  cases scanString rest <;> rfl

/-- An escaped character is read as one part. -/
theorem scanString_escape (c : Char) (rest : List Char) :
    scanString (escape c ++ rest) =
      (scanString rest).map fun p => (StringPart.ofChar c :: p.1, p.2) := by
  unfold escape
  split
  case h_8 notQuote notSlash notBack notFeed notLine notReturn notTab =>
    split
    next control =>
      have code : c.toNat < 32 := control
      have high := hexValue?_hexDigit (c.toNat / 16) (by omega)
      have low := hexValue?_hexDigit (c.toNat % 16) (by omega)
      have zero : hexValue? '0' = some 0 := by decide
      have same : ((0 * 16 + 0) * 16 + c.toNat / 16) * 16 + c.toNat % 16 = c.toNat := by omega
      have unnamed : c ∉ ['\x08', '\x0c', '\n', '\r', '\t'] := by
        simp only [List.mem_cons, not_or]
        exact ⟨notBack, notFeed, notLine, notReturn, notTab, List.not_mem_nil⟩
      have byNumber : StringPart.ofChar c = .unit c.toNat := if_pos ⟨control, unnamed⟩
      simp only [List.cons_append, List.nil_append, scanString, zero, high, low, bind,
        Option.bind_some, same, byNumber]
      cases scanString rest <;> rfl
    next printed =>
      have itself : StringPart.ofChar c = .char c := if_neg fun control => printed control.1
      rw [itself]
      exact scanString_printed notQuote (fun odd => odd.elim notSlash printed) rest
  all_goals exact scanString_named rfl rest

theorem scanString_spelled (s rest : List Char) :
    scanString (s.flatMap escape ++ '"' :: rest) = some (s.map StringPart.ofChar, rest) := by
  induction s with
  | nil => simp [scanString]
  | cons c tail ih =>
    rw [List.flatMap_cons, List.append_assoc, scanString_escape, ih]
    rfl

theorem tokens_quote (s : String) : tokens (quote s).toList = some [.string (spelled s)] := by
  rw [quote, String.toList_ofList, tokens_cons, if_neg (by decide), scan, scanString_spelled,
    Option.map_some, Option.bind_some, tokens_nil]
  rfl

/-- A part that is no half of a pair stands for a character of its own. -/
theorem characters?_ofChar (c : Char) (rest : List StringPart) :
    characters? (StringPart.ofChar c :: rest) = (characters? rest).map (c :: ·) := by
  unfold StringPart.ofChar
  split
  next control =>
    have code : c.toNat < 32 := control.1
    have notHigh : isHighSurrogate c.toNat = false := by simp [isHighSurrogate]; omega
    have notLow : isLowSurrogate c.toNat = false := by simp [isLowSurrogate]; omega
    cases rest with
    | nil => simp [characters?, notHigh, notLow]
    | cons part tail => cases part <;> simp [characters?, notHigh, notLow]
  next => rfl

/-- A quoted string is read as the string. -/
theorem text?_spelled (s : String) : text? (spelled s) = some s := by
  have all : ∀ l : List Char, characters? (l.map StringPart.ofChar) = some l := by
    intro l
    induction l with
    | nil => rfl
    | cons c rest ih => rw [List.map_cons, characters?_ofChar, ih]; rfl
  rw [text?, spelled, all, Option.map_some, String.ofList_toList]

end PacedLoad.Json
