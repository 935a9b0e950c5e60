import PacedLoad.Binary64
import PacedLoad.Time.Basic

/-!
# Summaries of spans

Sum and extremes are kept along the way.  Every sample is kept too, so that
percentiles are exact.  A percentile is the sample at the nearest rank in
ascending order.
-/

namespace PacedLoad.Stats

/-- The samples recorded so far, in nanoseconds of at most 64 bits, with their sum, the least and
the greatest of them. -/
structure Recorder where
  samples : List Nat
  total : Nat
  least : Nat
  greatest : Nat
deriving DecidableEq, Repr

/-- Count, extremes, mean and percentiles of some samples, in nanoseconds. -/
structure Summary where
  count : Nat
  least : Nat
  greatest : Nat
  mean : Nat
  p50 : Nat
  p90 : Nat
  p95 : Nat
  p99 : Nat
deriving DecidableEq, Repr

def Summary.zero : Summary := ⟨0, 0, 0, 0, 0, 0, 0, 0⟩

/-- The position, counted from 1, of a percentile among `n` samples: the least whole number
that is not below `(p / 100) * n` in double precision, but from 1 to `n`. -/
def rank (p : Binary64) (n : Nat) : Nat :=
  max 1 (min n ((p.div (Binary64.ofNat 100)).mul (Binary64.ofNat n)).ceilNat)

/-- The sample at the rank of a percentile; zero when there are none. -/
def nearestRank (sorted : List Nat) (p : Binary64) : Nat :=
  sorted.getD (rank p sorted.length - 1) 0

def ascending (samples : List Nat) : List Nat := samples.mergeSort

namespace Recorder

def empty : Recorder := ⟨[], 0, 0, 0⟩

def record (r : Recorder) (d : Span) : Recorder :=
  let nanos := d.clampedNanos
  { samples := r.samples ++ [nanos]
    total := r.total + nanos
    least := if r.samples.isEmpty then nanos else min r.least nanos
    greatest := if r.samples.isEmpty then nanos else max r.greatest nanos }

def count (r : Recorder) : Nat := r.samples.length

/-- The summary of all samples.  Of the mean only the low 64 bits are kept. -/
def summary (r : Recorder) : Summary :=
  if r.samples.isEmpty then Summary.zero
  else
    let sorted := ascending r.samples
    let percentile (p : Nat) := nearestRank sorted (Binary64.ofNat p)
    { count := r.count
      least := r.least
      greatest := r.greatest
      mean := r.total / r.count % 18446744073709551616
      p50 := percentile 50
      p90 := percentile 90
      p95 := percentile 95
      p99 := percentile 99 }

end Recorder

end PacedLoad.Stats
