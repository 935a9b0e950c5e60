import PacedLoad.Binary64

/-!
# Tokens of JSON text

Splits text into brackets, separators, words, numbers and strings.  Numbers
and escapes are kept as they are written; what they mean is decided later, so
that a part that nobody asks for may hold a number out of range or half of a
surrogate pair.
-/

namespace PacedLoad.Json

/-- A number as it is written: sign, whole digits, digits after the point, and the sign and
digits of an exponent. -/
structure Numeral where
  negative : Bool
  whole : List Char
  fraction : List Char
  exponent : Option (Bool × List Char)
deriving DecidableEq, Repr

/-- A part of a string: a character that is written out or escaped by name, or a 16-bit unit
that is escaped by number. -/
inductive StringPart
  | char (c : Char)
  | unit (n : Nat)
deriving DecidableEq, Repr

inductive Token
  | openBrace | closeBrace | openBracket | closeBracket | comma | colon
  | null
  | bool (b : Bool)
  | number (n : Numeral)
  | string (parts : List StringPart)
deriving DecidableEq, Repr

/-- Space, tab, line feed and carriage return may stand between tokens. -/
def isBlank (c : Char) : Bool := c == ' ' || c == '\t' || c == '\n' || c == '\r'

def hexValue? (c : Char) : Option Nat :=
  if '0' ≤ c ∧ c ≤ '9' then some (c.toNat - '0'.toNat)
  else if 'a' ≤ c ∧ c ≤ 'f' then some (c.toNat - 'a'.toNat + 10)
  else if 'A' ≤ c ∧ c ≤ 'F' then some (c.toNat - 'A'.toNat + 10)
  else none

def unescape? : Char → Option Char
  | '"' => some '"'
  | '\\' => some '\\'
  | '/' => some '/'
  | 'b' => some '\x08'
  | 'f' => some '\x0c'
  | 'n' => some '\n'
  | 'r' => some '\r'
  | 't' => some '\t'
  | _ => none

/-- The rest of a string after its opening quote, and what follows its closing quote. -/
def scanString : List Char → Option (List StringPart × List Char)
  | [] => none
  | '"' :: rest => some ([], rest)
  | '\\' :: 'u' :: a :: b :: c :: d :: rest => do
    let n := (((← hexValue? a) * 16 + (← hexValue? b)) * 16 + (← hexValue? c)) * 16 + (← hexValue? d)
    let (parts, after) ← scanString rest
    some (.unit n :: parts, after)
  | '\\' :: c :: rest => do
    let char ← unescape? c
    let (parts, after) ← scanString rest
    some (.char char :: parts, after)
  | c :: rest =>
    if c = '\\' ∨ c < ' ' then none
    else do
      let (parts, after) ← scanString rest
      some (.char c :: parts, after)

/-- Leading decimal digits and what follows them. -/
def digits (s : List Char) : List Char × List Char := (s.takeWhile Char.isDigit, s.dropWhile Char.isDigit)

/-- Digits after a point, of which there must be one; no point means no digits. -/
def scanFraction : List Char → Option (List Char × List Char)
  | '.' :: rest =>
    let (found, after) := digits rest
    if found.isEmpty then none else some (found, after)
  | s => some ([], s)

/-- The sign and digits of an exponent, of which there must be one digit. -/
def scanPower (negative : Bool) (s : List Char) : Option (Option (Bool × List Char) × List Char) :=
  let (found, after) := digits s
  if found.isEmpty then none else some (some (negative, found), after)

/-- An exponent, if there is one. -/
def scanExponent : List Char → Option (Option (Bool × List Char) × List Char)
  | [] => some (none, [])
  | c :: rest =>
    if c = 'e' ∨ c = 'E' then
      match rest with
      | '-' :: more => scanPower true more
      | '+' :: more => scanPower false more
      | more => scanPower false more
    else some (none, c :: rest)

/-- A number without its sign: no whole digits or a needless leading zero are refused. -/
def scanNumber (negative : Bool) (s : List Char) : Option (Numeral × List Char) := do
  let (whole, afterWhole) := digits s
  if whole.isEmpty ∨ (whole.head? = some '0' ∧ whole.length ≠ 1) then none
  else
    let (fraction, afterFraction) ← scanFraction afterWhole
    let (exponent, rest) ← scanExponent afterFraction
    some (⟨negative, whole, fraction, exponent⟩, rest)

/-- The token that starts with character `c`, and what follows it. -/
def scan (c : Char) (rest : List Char) : Option (Token × List Char) :=
  match c with
  | '{' => some (.openBrace, rest)
  | '}' => some (.closeBrace, rest)
  | '[' => some (.openBracket, rest)
  | ']' => some (.closeBracket, rest)
  | ',' => some (.comma, rest)
  | ':' => some (.colon, rest)
  | '"' => (scanString rest).map fun (parts, after) => (.string parts, after)
  | 'n' => if rest.take 3 = "ull".toList then some (.null, rest.drop 3) else none
  | 't' => if rest.take 3 = "rue".toList then some (.bool true, rest.drop 3) else none
  | 'f' => if rest.take 4 = "alse".toList then some (.bool false, rest.drop 4) else none
  | '-' => (scanNumber true rest).map fun (n, after) => (.number n, after)
  | c => if c.isDigit then (scanNumber false (c :: rest)).map fun (n, after) => (.number n, after) else none

theorem scanString_length {s after : List Char} {parts : List StringPart}
    (h : scanString s = some (parts, after)) : after.length < s.length := by
  fun_induction scanString s generalizing parts after with
  | case1 => simp at h
  | case2 rest =>
    simp only [Option.some.injEq, Prod.mk.injEq] at h
    simp [← h.2]
  | case3 a b c d rest ih =>
    simp only [bind, Option.bind_eq_some_iff] at h
    obtain ⟨_, _, _, _, _, _, _, _, ⟨_, after'⟩, hs, h⟩ := h
    have := ih hs
    simp only [Option.some.injEq, Prod.mk.injEq] at h
    simp only [List.length_cons, ← h.2]
    omega
  | case4 c rest _ ih =>
    simp only [bind, Option.bind_eq_some_iff] at h
    obtain ⟨_, _, ⟨_, after'⟩, hs, h⟩ := h
    have := ih hs
    simp only [Option.some.injEq, Prod.mk.injEq] at h
    simp only [List.length_cons, ← h.2]
    omega
  | case5 => simp at h
  | case6 c rest _ _ _ _ ih =>
    simp only [bind, Option.bind_eq_some_iff] at h
    obtain ⟨⟨_, after'⟩, hs, h⟩ := h
    have := ih hs
    simp only [Option.some.injEq, Prod.mk.injEq] at h
    simp only [List.length_cons, ← h.2]
    omega

theorem digits_length (s : List Char) : (digits s).1.length + (digits s).2.length = s.length := by
  rw [← List.length_append, digits, List.takeWhile_append_dropWhile]

theorem scanFraction_length {s found after : List Char}
    (h : scanFraction s = some (found, after)) : after.length ≤ s.length := by
  unfold scanFraction at h
  split at h
  · rename_i rest
    have := digits_length rest
    dsimp only at h
    split at h
    · simp at h
    · simp only [Option.some.injEq, Prod.mk.injEq] at h
      simp only [List.length_cons, ← h.2]
      omega
  · simp_all

theorem scanPower_length {negative : Bool} {s after : List Char} {e : Option (Bool × List Char)}
    (h : scanPower negative s = some (e, after)) : after.length ≤ s.length := by
  unfold scanPower at h
  have := digits_length s
  dsimp only at h
  split at h
  · simp at h
  · simp only [Option.some.injEq, Prod.mk.injEq] at h
    simp only [← h.2]
    omega

theorem scanExponent_length {s after : List Char} {e : Option (Bool × List Char)}
    (h : scanExponent s = some (e, after)) : after.length ≤ s.length := by
  unfold scanExponent at h
  split at h
  · simp_all
  · split at h
    · split at h
      · have := scanPower_length h
        simp only [List.length_cons]
        omega
      · have := scanPower_length h
        simp only [List.length_cons]
        omega
      · have := scanPower_length h
        simp only [List.length_cons]
        omega
    · simp_all

theorem scanNumber_length {negative : Bool} {s after : List Char} {n : Numeral}
    (h : scanNumber negative s = some (n, after)) : after.length < s.length := by
  unfold scanNumber at h
  have hsum := digits_length s
  dsimp only at h
  split at h
  · simp at h
  · rename_i hwhole
    simp only [bind, Option.bind_eq_some_iff, Prod.exists, Option.some.injEq, Prod.mk.injEq] at h
    obtain ⟨_, _, hf, _, _, he, _, rfl⟩ := h
    have := scanFraction_length hf
    have := scanExponent_length he
    have : 0 < (digits s).1.length := by
      rw [List.length_pos_iff]
      intro h0
      simp [h0] at hwhole
    omega

theorem scan_length {c : Char} {rest after : List Char} {t : Token}
    (h : scan c rest = some (t, after)) : after.length ≤ rest.length := by
  unfold scan at h
  split at h
  case h_7 =>
    simp only [Option.map_eq_some_iff, Prod.exists, Prod.mk.injEq] at h
    obtain ⟨_, _, hs, _, rfl⟩ := h
    exact Nat.le_of_lt (scanString_length hs)
  case h_11 =>
    simp only [Option.map_eq_some_iff, Prod.exists, Prod.mk.injEq] at h
    obtain ⟨_, _, hs, _, rfl⟩ := h
    exact Nat.le_of_lt (scanNumber_length hs)
  case h_12 =>
    split at h
    · simp only [Option.map_eq_some_iff, Prod.exists, Prod.mk.injEq] at h
      obtain ⟨_, _, hs, _, rfl⟩ := h
      exact Nat.le_of_lt_succ (scanNumber_length hs)
    · simp at h
  all_goals first
    | (split at h
       · simp only [Option.some.injEq, Prod.mk.injEq] at h
         simp [← h.2]
       · simp at h)
    | (simp only [Option.some.injEq, Prod.mk.injEq] at h
       simp [← h.2])

/-- The tokens of a text, or `none` when some part of it is no token. -/
def tokens (s : List Char) : Option (List Token) :=
  match s with
  | [] => some []
  | c :: rest =>
    if isBlank c then tokens rest
    else
      match h : scan c rest with
      | none => none
      | some (t, after) =>
        have := scan_length h
        (tokens after).map (t :: ·)
termination_by s.length

end PacedLoad.Json
