import PacedLoad.Binary64

/-!
# Shortest decimal digits of a double

Among the decimal numbers that round to a double, the digits chosen are those
of the shortest one, of two equally short ones the nearer, and of two equally
near ones the even.  All comparisons are exact.
-/

namespace PacedLoad.Decimal

/-- A positive decimal number `digits * 10 ^ exponent`. -/
structure Scaled where
  digits : Nat
  exponent : Int
deriving DecidableEq, Repr

/-- The positive numbers that round to `m * 2 ^ q`, in units of `2 ^ (q - 2)`, so that the
number itself is `4 * m`.  Below a power of two the next double is only half as far. -/
structure Interval where
  low : Nat
  mid : Nat
  high : Nat
  closed : Bool
  q : Int

/-- The numbers that round to the double `m * 2 ^ q`. -/
def Interval.around (m : Nat) (q : Int) : Interval where
  low := if m = Binary64.fractions ∧ q ≠ -1074 then 4 * m - 1 else 4 * m - 2
  mid := 4 * m
  high := 4 * m + 2
  closed := m % 2 = 0
  q := q - 2

/-- `n` units of the interval and `d` steps of `10 ^ e`, both as multiples of one small number. -/
def Interval.common (i : Interval) (e : Int) (n d : Nat) : Nat × Nat :=
  (n * Nat.pow 2 i.q.toNat * Nat.pow 10 (-e).toNat,
    d * Nat.pow 10 e.toNat * Nat.pow 2 (-i.q).toNat)

/-- Whether `d * 10 ^ e` rounds to the double. -/
def Interval.holds (i : Interval) (e : Int) (d : Nat) : Bool :=
  let (low, x) := i.common e i.low d
  let (high, _) := i.common e i.high d
  if i.closed then decide (low ≤ x ∧ x ≤ high) else decide (low < x ∧ x < high)

/-- The neighbour of the double on the grid of `10 ^ e` that rounds to it: the nearer one, if
both do, and the even one, if both are equally near. -/
def Interval.onGrid (i : Interval) (e : Int) : Option Nat :=
  let (mid, step) := i.common e i.mid 1
  let below := mid / step
  let above := below + 1
  match i.holds e below && below != 0, i.holds e above with
  | false, false => none
  | true, false => some below
  | false, true => some above
  | true, true => some (Binary64.roundDiv mid step)

/-- The first grid with a hit, going from coarse to fine. -/
def Interval.firstHit (i : Interval) : Nat → Int → Scaled
  | 0, e => ⟨(i.onGrid e).getD 0, e⟩
  | more + 1, e =>
    match i.onGrid e with
    | some d => ⟨d, e⟩
    | none => i.firstHit more (e - 1)

/-- A power of ten that is more than a positive number below `2 ^ (bits + q)`. -/
def coarsest (bits : Nat) (q : Int) : Int :=
  ((bits : Int) + q) * 30103 / 100000 + 1

/-- The shortest digits of the positive double `m * 2 ^ q`. -/
def shortest (m : Nat) (q : Int) : Scaled :=
  (Interval.around m q).firstHit 20 (coarsest (Nat.log2 m + 1) q)

end PacedLoad.Decimal
