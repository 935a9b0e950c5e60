/-!
# Whole numbers in text

Decimal digits after an optional sign.  Leading zeros are allowed, blanks are
not.
-/

namespace PacedLoad.Text

/-- The number that a list of decimal digits stands for; there must be one. -/
def digitsValue? (s : List Char) : Option Nat :=
  if s.isEmpty || !s.all Char.isDigit then none
  else some (s.foldl (fun n c => n * 10 + (c.toNat - '0'.toNat)) 0)

/-- A number of at most 64 bits, perhaps after a plus sign. -/
def natural? (s : String) : Option Nat :=
  let value :=
    match s.toList with
    | '+' :: rest => digitsValue? rest
    | rest => digitsValue? rest
  value.filter fun n => decide (n < 18446744073709551616)

/-- A number that fits 64 bits with a sign, perhaps after a plus or minus sign. -/
def integer? (s : String) : Option Int :=
  match s.toList with
  | '-' :: rest => ((digitsValue? rest).filter fun n => decide (n ≤ 9223372036854775808)).map fun n => -(n : Int)
  | '+' :: rest => ((digitsValue? rest).filter fun n => decide (n < 9223372036854775808)).map Int.ofNat
  | rest => ((digitsValue? rest).filter fun n => decide (n < 9223372036854775808)).map Int.ofNat

end PacedLoad.Text
