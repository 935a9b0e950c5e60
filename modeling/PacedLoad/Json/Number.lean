import PacedLoad.Json.Token
import PacedLoad.Json.Value

/-!
# The meaning of numbers

A whole number that fits 64 bits is exact.  For any other number the leading
digits are kept as long as they fit 64 bits, and the double nearest to them is
multiplied or divided by a power of ten, each step rounded once.
-/

namespace PacedLoad.Json

/-- Leading digits of a number, as far as they fit 64 bits, and a power of ten. -/
structure Leading where
  significand : Nat
  exponent : Int
deriving DecidableEq, Repr

def digitValue (c : Char) : Nat := c.toNat - '0'.toNat

/-- One more digit, if the number still fits 64 bits. -/
def Leading.push? (l : Leading) (c : Char) : Option Nat :=
  let n := l.significand * 10 + digitValue c
  if n < 18446744073709551616 then some n else none

/-- Whole digits: from the first that does not fit on, each only counts as a power of ten. -/
def Leading.whole (l : Leading) : List Char → Leading
  | [] => l
  | c :: rest =>
    match l.push? c with
    | some n => whole ⟨n, l.exponent⟩ rest
    | none => ⟨l.significand, l.exponent + (rest.length + 1 : Nat)⟩

/-- Digits after the point: from the first that does not fit on, they are left out. -/
def Leading.fraction (l : Leading) : List Char → Leading
  | [] => l
  | c :: rest =>
    match l.push? c with
    | some n => fraction ⟨n, l.exponent - 1⟩ rest
    | none => l

def digitsValue (s : List Char) : Nat := s.foldl (fun n c => n * 10 + digitValue c) 0

/-- The power of ten that an exponent stands for. -/
def powerValue : Option (Bool × List Char) → Int
  | none => 0
  | some (negative, s) => if negative then -(digitsValue s : Int) else digitsValue s

/-- The double times a power of ten; `none` when that is too large. -/
def scale (x : Binary64) (e : Int) : Option Binary64 :=
  if x.isZero then some x
  else if e < -308 then scale (x.div (Binary64.powerOfTen 308)) (e + 308)
  else if e < 0 then some (x.div (Binary64.powerOfTen (-e).toNat))
  else if 308 < e then none
  else
    let y := x.mul (Binary64.powerOfTen e.toNat)
    if y.isFinite then some y else none
termination_by (-e).toNat

/-- The digits of a number with its powers of ten. -/
def Numeral.leading (n : Numeral) : Leading :=
  let l := (Leading.whole ⟨0, 0⟩ n.whole).fraction n.fraction
  ⟨l.significand, l.exponent + powerValue n.exponent⟩

/-- The double that a number stands for; `none` when it is too large. -/
def Numeral.double? (n : Numeral) : Option Binary64 :=
  let l := n.leading
  (scale (Binary64.ofNat l.significand) l.exponent).map fun x => if n.negative then x.neg else x

/-- The value that a number stands for; `none` when it is too large. -/
def Numeral.value? (n : Numeral) : Option Value :=
  let size := digitsValue n.whole
  if n.fraction.isEmpty ∧ n.exponent.isNone ∧ n.negative = false ∧ size < 18446744073709551616 then
    some (.int size)
  else if n.fraction.isEmpty ∧ n.exponent.isNone ∧ n.negative ∧ 0 < size ∧ size ≤ 9223372036854775808 then
    some (.int (-size))
  else n.double?.map .double

end PacedLoad.Json
