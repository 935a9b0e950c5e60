import PacedLoad.Watermark.Writer

/-!
# Writers that count copies

The outstanding times of a writer, each once with the number of its copies.  A number
of copies has 32 bits.  Calls change a tracker in place, and answer whether they are
accepted.
-/

namespace PacedLoad.Watermark

/-- Times in ascending order, each with the number of its copies. -/
abbrev Copies := List (Instant × UInt32)

namespace Copies

/-- The number of copies of a time, if it is there. -/
def find? (t : Instant) : Copies → Option UInt32
  | [] => none
  | (u, n) :: rest => if t = u then some n else find? t rest

def add (t : Instant) : Copies → Copies
  | [] => [(t, 1)]
  | (u, n) :: rest =>
    if t < u then (t, 1) :: (u, n) :: rest
    else if t = u then (u, n + 1) :: rest
    else (u, n) :: add t rest

/-- Takes one copy of a time away, and the time itself with the last of them. -/
def remove (t : Instant) : Copies → Copies
  | [] => []
  | (u, n) :: rest =>
    if t = u then if 1 < n then (u, n - 1) :: rest else rest
    else (u, n) :: remove t rest

def size : Copies → Nat
  | [] => 0
  | (_, n) :: rest => n.toNat + size rest

end Copies

/-- What a writer has initiated and not completed, and the last time that it initiated. -/
structure Tracker where
  outstanding : Copies
  lastInitiated : Option Instant
deriving DecidableEq, Repr

namespace Tracker

/-- A writer that has initiated nothing. -/
def fresh : Tracker := ⟨[], none⟩

def add (w : Tracker) (time : Instant) : Tracker := ⟨w.outstanding.add time, some time⟩

def initiated (w : Tracker) (time : Instant) : Tracker × Except Violation Unit :=
  match w.lastInitiated with
  | none => (w.add time, .ok ())
  | some last =>
    if time < last then (w, .error (.initiatedTooEarly time last)) else (w.add time, .ok ())

def completed (w : Tracker) (time : Instant) : Tracker × Except Violation Unit :=
  match w.outstanding.find? time with
  | none => (w, .error (.notOutstanding time))
  | some _ => ({ w with outstanding := w.outstanding.remove time }, .ok ())

/-- Just before the earliest outstanding time, or the last initiated time when nothing is
outstanding. -/
def completionTime (w : Tracker) : Option Instant :=
  match w.outstanding with
  | [] => w.lastInitiated
  | (earliest, _) :: _ => earliest.stepBack

def outstandingCount (w : Tracker) : Nat := w.outstanding.size

end Tracker

end PacedLoad.Watermark
