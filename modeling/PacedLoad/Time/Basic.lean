/-!
# Points in time and spans

Time is counted in whole nanoseconds.  An instant fits 64 bits and its
arithmetic stops at both ends of that range; a span may be wider than 64 bits
of nanoseconds, since it counts up to 64 bits of seconds.
-/

namespace PacedLoad

abbrev nanosPerMilli : Nat := 1000000

abbrev nanosPerSecond : Nat := 1000000000

/-- A point in time, in nanoseconds since the epoch. -/
structure Instant where
  nanos : Nat
  nanos_lt : nanos < 18446744073709551616
deriving DecidableEq, Repr

/-- A length of time: up to 64 bits of whole seconds and a fraction in nanoseconds. -/
structure Span where
  nanos : Nat
  nanos_lt : nanos < 18446744073709551616000000000
deriving DecidableEq, Repr

/-- Nanoseconds, stopping at the largest 64-bit number. -/
def Span.clampedNanos (d : Span) : Nat := min d.nanos (18446744073709551615)

namespace Instant

@[ext] theorem ext {a b : Instant} (h : a.nanos = b.nanos) : a = b := by
  cases a
  cases b
  simp_all

instance : LE Instant := ⟨fun a b => a.nanos ≤ b.nanos⟩

instance : LT Instant := ⟨fun a b => a.nanos < b.nanos⟩

instance (a b : Instant) : Decidable (a ≤ b) := inferInstanceAs (Decidable (a.nanos ≤ b.nanos))

instance (a b : Instant) : Decidable (a < b) := inferInstanceAs (Decidable (a.nanos < b.nanos))

instance : Min Instant := minOfLe

instance : Max Instant := maxOfLe

instance : Ord Instant := ⟨fun a b => compare a.nanos b.nanos⟩

theorem le_iff {a b : Instant} : a ≤ b ↔ a.nanos ≤ b.nanos := Iff.rfl

theorem lt_iff {a b : Instant} : a < b ↔ a.nanos < b.nanos := Iff.rfl

/-- The instant at `n` nanoseconds, or the last instant when there is none. -/
def saturate (n : Nat) : Instant := ⟨min n (18446744073709551615), by omega⟩

/-- The first instant. -/
def first : Instant := ⟨0, by decide⟩

/-- The last instant. -/
def last : Instant := ⟨18446744073709551615, by decide⟩

instance : Inhabited Instant := ⟨first⟩

/-- The instant at exactly `n` nanoseconds. -/
def ofNanos? (n : Nat) : Option Instant :=
  if h : n < 18446744073709551616 then some ⟨n, h⟩ else none

/-- The instant `n` milliseconds after the epoch, stopping at the last one. -/
def ofMillis (n : Nat) : Instant := saturate (n * nanosPerMilli)

/-- The instant `n` seconds after the epoch, stopping at the last one. -/
def ofSeconds (n : Nat) : Instant := ofMillis (n * 1000)

def millis (t : Instant) : Nat := t.nanos / nanosPerMilli

/-- The instant a span later, stopping at the last one.  The span is cut to 64 bits of nanoseconds
before it is added. -/
def plus (t : Instant) (d : Span) : Instant := saturate (t.nanos + d.clampedNanos)

/-- The instant a span earlier, stopping at the first one.  The span is cut to 64 bits of
nanoseconds before it is taken away. -/
def minus (t : Instant) (d : Span) : Instant :=
  ⟨t.nanos - d.clampedNanos, Nat.lt_of_le_of_lt (Nat.sub_le ..) t.nanos_lt⟩

/-- The span from `earlier` to `t`, empty when `earlier` is later. -/
def since (t earlier : Instant) : Span :=
  ⟨t.nanos - earlier.nanos, by have := t.nanos_lt; omega⟩

/-- The instant just before, which only the first one lacks. -/
def stepBack (t : Instant) : Option Instant :=
  if t.nanos = 0 then none else some ⟨t.nanos - 1, by have := t.nanos_lt; omega⟩

@[simp] theorem saturate_nanos (n : Nat) : (saturate n).nanos = min n (18446744073709551615) := rfl

/-- The sum stops wherever the span that was cut would have passed its bound. -/
@[simp] theorem plus_nanos (t : Instant) (d : Span) :
    (t.plus d).nanos = min (t.nanos + d.nanos) (18446744073709551615) := by
  simp only [plus, saturate_nanos, Span.clampedNanos]
  omega

/-- An instant is never as late as the bound at which the span is cut. -/
@[simp] theorem minus_nanos (t : Instant) (d : Span) :
    (t.minus d).nanos = t.nanos - d.nanos := by
  have bound := t.nanos_lt
  simp only [minus, Span.clampedNanos]
  omega

@[simp] theorem since_nanos (t earlier : Instant) :
    (t.since earlier).nanos = t.nanos - earlier.nanos := rfl

end Instant

namespace Span

@[ext] theorem ext {a b : Span} (h : a.nanos = b.nanos) : a = b := by
  cases a
  cases b
  simp_all

instance : LE Span := ⟨fun a b => a.nanos ≤ b.nanos⟩

instance : LT Span := ⟨fun a b => a.nanos < b.nanos⟩

instance (a b : Span) : Decidable (a ≤ b) := inferInstanceAs (Decidable (a.nanos ≤ b.nanos))

instance (a b : Span) : Decidable (a < b) := inferInstanceAs (Decidable (a.nanos < b.nanos))

def zero : Span := ⟨0, by decide⟩

instance : Inhabited Span := ⟨zero⟩

/-- The span of exactly `n` nanoseconds. -/
def ofNanos? (n : Nat) : Option Span :=
  if h : n < 18446744073709551616000000000 then some ⟨n, h⟩ else none

/-- The span of `n` nanoseconds, or the longest one when there is none. -/
def saturate (n : Nat) : Span := ⟨min n (18446744073709551615999999999), by omega⟩

/-- The span of `n` milliseconds, stopping at the longest one. -/
def ofMillis (n : Nat) : Span := saturate (n * nanosPerMilli)

def wholeMillis (d : Span) : Nat := d.nanos / nanosPerMilli

/-- Whole milliseconds, stopping at the largest 64-bit number. -/
def millis (d : Span) : Nat := min d.wholeMillis (18446744073709551615)

/-- Whole milliseconds, with only the low 64 bits kept. -/
def lowMillis (d : Span) : Nat := d.wholeMillis % 18446744073709551616

def seconds (d : Span) : Nat := d.nanos / nanosPerSecond

/-- The part of a second beyond the whole ones, in nanoseconds. -/
def subsecNanos (d : Span) : Nat := d.nanos % nanosPerSecond

theorem le_iff {a b : Span} : a ≤ b ↔ a.nanos ≤ b.nanos := Iff.rfl

theorem lt_iff {a b : Span} : a < b ↔ a.nanos < b.nanos := Iff.rfl

end Span

end PacedLoad
