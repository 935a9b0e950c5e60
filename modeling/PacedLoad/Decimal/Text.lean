import PacedLoad.Decimal.Shortest

/-!
# Doubles as decimal text

A layout says which numbers are written out in full and how an exponent is
written.
-/

namespace PacedLoad.Decimal

/-- How a double is written. -/
structure Layout where
  /-- Numbers from `10 ^ leastPlain` on are written in full. -/
  leastPlain : Int
  /-- Numbers from `10 ^ pastPlain` on are written with an exponent. -/
  pastPlain : Int
  /-- What a number written in full ends with when it is whole. -/
  wholeTail : String
  /-- What stands before an exponent that is not negative. -/
  positiveMark : String
  /-- What stands before the digits of a negative exponent. -/
  negativeMark : String

/-- Zeros, to the left of a fraction or to the right of a whole number. -/
def zeros (n : Nat) : String := String.ofList (List.replicate n '0')

/-- Puts a point after the first `k` characters. -/
def pointAfter (digits : List Char) (k : Nat) : String :=
  String.ofList (digits.take k) ++ "." ++ String.ofList (digits.drop k)

/-- The digits of a decimal number without the zeros at their end, and the power of ten of
the first one. -/
def Scaled.leading (s : Scaled) : List Char × Int :=
  let digits := (toString s.digits).toList
  ((digits.reverse.dropWhile (· == '0')).reverse, s.exponent + digits.length - 1)

def Layout.positive (l : Layout) (s : Scaled) : String :=
  let (digits, lead) := s.leading
  let count := digits.length
  if l.leastPlain ≤ lead ∧ lead < l.pastPlain then
    if lead < 0 then "0." ++ zeros (-lead - 1).toNat ++ String.ofList digits
    else
      let whole := lead.toNat + 1
      if count ≤ whole then String.ofList digits ++ zeros (whole - count) ++ l.wholeTail
      else pointAfter digits whole
  else
    let mantissa := if count = 1 then String.ofList digits else pointAfter digits 1
    if 0 ≤ lead then mantissa ++ l.positiveMark ++ toString lead.toNat
    else mantissa ++ l.negativeMark ++ toString (-lead).toNat

/-- A double as text; `none` when it is not finite. -/
def Layout.text? (l : Layout) (x : Binary64) : Option String :=
  match x.content with
  | .finite negative m q =>
    let sign := if negative then "-" else ""
    if m = 0 then some (sign ++ "0" ++ l.wholeTail)
    else some (sign ++ l.positive (shortest m q))
  | _ => none

end PacedLoad.Decimal
