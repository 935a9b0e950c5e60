import PacedLoad.Time.Basic

/-!
# Instants and spans as text

An instant is written in milliseconds, with six decimal places when it is not
whole.  A span is written in the largest unit of which it holds at least one,
without trailing zeros.
-/

namespace PacedLoad

/-- The decimal digits of `n` after as many zeros as make `width` digits. -/
def zeroPadded (width n : Nat) : String :=
  let digits := toString n
  String.ofList (List.replicate (width - digits.length) '0') ++ digits

/-- A decimal fraction with its point: `places` digits of `n` without the zeros at their end. -/
def fractionText (places n : Nat) : String :=
  if n = 0 then "" else
    let digits := (zeroPadded places n).toList
    "." ++ String.ofList (digits.reverse.dropWhile (· == '0')).reverse

/-- Milliseconds, with the six digits below them when they are not all zero. -/
def Instant.text (t : Instant) : String :=
  let below := t.nanos % nanosPerMilli
  if below = 0 then s!"{t.millis}ms" else s!"{t.millis}." ++ zeroPadded 6 below ++ "ms"

/-- Seconds, milliseconds, microseconds or nanoseconds: the largest of which there is at least one. -/
def Span.text (d : Span) : String :=
  let n := d.nanos
  if n ≥ 1000000000 then toString (n / 1000000000) ++ fractionText 9 (n % 1000000000) ++ "s"
  else if n ≥ 1000000 then toString (n / 1000000) ++ fractionText 6 (n % 1000000) ++ "ms"
  else if n ≥ 1000 then toString (n / 1000) ++ fractionText 3 (n % 1000) ++ "µs"
  else toString n ++ "ns"

instance : ToString Instant := ⟨Instant.text⟩

instance : ToString Span := ⟨Span.text⟩

end PacedLoad
