/-!
# Double-precision numbers

Numbers in the 64-bit binary format, held as their bits.  Every operation is
the exact rational result rounded once to the nearest double, a tie going to
the even neighbour.
-/

namespace PacedLoad

/-- A double-precision number as its 64 bits: sign, 11 bits of exponent, 52 of fraction. -/
structure Binary64 where
  bits : UInt64
deriving DecidableEq, Repr

namespace Binary64

/-- What the bits stand for.  A finite number is `m * 2 ^ q`, negated when `negative`. -/
inductive Content
  | nan
  | infinite (negative : Bool)
  | finite (negative : Bool) (m : Nat) (q : Int)
deriving DecidableEq, Repr

/-- How many fractions there are: 52 bits hold `2 ^ 52` of them. -/
def fractions : Nat := 4503599627370496

def signBit (negative : Bool) : Nat := if negative then 9223372036854775808 else 0

/-- The double with the given sign and the given lower 63 bits. -/
def ofParts (negative : Bool) (magnitude : Nat) : Binary64 :=
  ⟨UInt64.ofNat (signBit negative + magnitude)⟩

/-- The lower 63 bits of both infinities. -/
def infiniteMagnitude : Nat := 2047 * fractions

def infinity (negative : Bool) : Binary64 := ofParts negative infiniteMagnitude

def notANumber : Binary64 := ofParts false (infiniteMagnitude + fractions / 2)

def zero (negative : Bool) : Binary64 := ofParts negative 0

def content (x : Binary64) : Content :=
  let n := x.bits.toNat
  let negative := decide (signBit true ≤ n)
  let exponent : Nat := n / fractions % 2048
  let fraction : Nat := n % fractions
  if exponent = 2047 then (if fraction = 0 then .infinite negative else .nan)
  else if exponent = 0 then .finite negative fraction (-1074)
  else .finite negative (fractions + fraction) ((exponent : Int) - 1075)

/-- The whole number nearest to `num / den`, a half going to the even neighbour. -/
def roundDiv (num den : Nat) : Nat :=
  let below := num / den
  let twice := 2 * (num % den)
  if twice < den then below
  else if den < twice then below + 1
  else below + below % 2

/-- The greatest `e` with `2 ^ e ≤ num / den`, for a positive quotient. -/
def floorLog2 (num den : Nat) : Int :=
  let guess : Int := (Nat.log2 num : Int) - (Nat.log2 den : Int)
  if num * Nat.pow 2 (-guess).toNat < den * Nat.pow 2 guess.toNat then guess - 1 else guess

/-- The double nearest to `num / den`; a quotient past the largest double is infinite. -/
def ofRatio (negative : Bool) (num den : Nat) : Binary64 :=
  if num = 0 then zero negative else
    let q := max (floorLog2 num den - 52) (-1074)
    let m := roundDiv (num * Nat.pow 2 (-q).toNat) (den * Nat.pow 2 q.toNat)
    ofParts negative (min infiniteMagnitude ((q + 1074).toNat * fractions + m))

/-- The double nearest to a natural number. -/
def ofNat (n : Nat) : Binary64 := ofRatio false n 1

/-- The double nearest to `10 ^ k`. -/
def powerOfTen (k : Nat) : Binary64 := ofNat (Nat.pow 10 k)

def neg (x : Binary64) : Binary64 := ⟨x.bits ^^^ 0x8000000000000000⟩

/-- A finite number is negative or not, and has the size `num / den`. -/
def sized (m : Nat) (q : Int) : Nat × Nat := (m * Nat.pow 2 q.toNat, Nat.pow 2 (-q).toNat)

/-- The product, rounded once. -/
def mul (x y : Binary64) : Binary64 :=
  match x.content, y.content with
  | .nan, _ | _, .nan => notANumber
  | .infinite a, .infinite b => infinity (a != b)
  | .infinite a, .finite b m _ | .finite a m _, .infinite b =>
    if m = 0 then notANumber else infinity (a != b)
  | .finite a m p, .finite b n q =>
    let (num, den) := sized (m * n) (p + q)
    ofRatio (a != b) num den

/-- The quotient, rounded once. -/
def div (x y : Binary64) : Binary64 :=
  match x.content, y.content with
  | .nan, _ | _, .nan => notANumber
  | .infinite _, .infinite _ => notANumber
  | .infinite a, .finite b _ _ => infinity (a != b)
  | .finite a _ _, .infinite b => zero (a != b)
  | .finite a m p, .finite b n q =>
    if n = 0 then (if m = 0 then notANumber else infinity (a != b))
    else
      let (num, den) := sized m (p - q)
      ofRatio (a != b) num (den * n)

/-- The sum of two numbers that are not negative, rounded once. -/
def addNonneg (x y : Binary64) : Binary64 :=
  match x.content, y.content with
  | .nan, _ | _, .nan => notANumber
  | .infinite _, _ | _, .infinite _ => infinity false
  | .finite _ m p, .finite _ n q =>
    let low := min p q
    let (num, den) := sized (m * Nat.pow 2 (p - low).toNat + n * Nat.pow 2 (q - low).toNat) low
    ofRatio false num den

def isFinite (x : Binary64) : Bool :=
  match x.content with
  | .finite .. => true
  | _ => false

def isZero (x : Binary64) : Bool :=
  match x.content with
  | .finite _ 0 _ => true
  | _ => false

/-- The least natural number that is not below `x`, stopping at `2 ^ 64 - 1`; no number is 0. -/
def ceilNat (x : Binary64) : Nat :=
  match x.content with
  | .nan => 0
  | .infinite negative => if negative then 0 else 18446744073709551615
  | .finite negative m q =>
    if negative then 0 else
      let (num, den) := sized m q
      min ((num + den - 1) / den) 18446744073709551615

end Binary64

end PacedLoad
