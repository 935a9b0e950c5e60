import PacedLoad.Time.Text

/-!
# The completion time of one writer

A writer announces start times in ascending order and later completes each of
them, in any order.  Up to its completion time everything it announced is
complete.
-/

namespace PacedLoad.Watermark

/-- Why an announcement is refused. -/
inductive Violation
  | initiatedTooEarly (time last : Instant)
  | notOutstanding (time : Instant)
  | unknownWriter (writer : Nat)
  | unknownPeer (peer : String)
  | peerRegressed (peer : String) (previous time : Instant)
deriving DecidableEq, Repr

def Violation.message : Violation → String
  | .initiatedTooEarly time last => s!"initiated time {time} precedes last initiated time {last}"
  | .notOutstanding time => s!"completed time {time} has no outstanding initiated time"
  | .unknownWriter writer => s!"unknown writer {writer}"
  | .unknownPeer peer => s!"unknown peer {peer}"
  | .peerRegressed peer previous time =>
    s!"peer {peer} completion time regressed from {previous} to {time}"

/-- The times that a writer has initiated and not completed, in the order in which it initiated
them, and the last one that it initiated.  A time stands there once for each announcement. -/
structure Writer where
  outstanding : List Instant
  lastInitiated : Option Instant
deriving DecidableEq, Repr

namespace Writer

/-- A writer that has announced nothing. -/
def fresh : Writer := ⟨[], none⟩

def add (w : Writer) (time : Instant) : Writer := ⟨w.outstanding ++ [time], some time⟩

/-- Announces a start time, which must not be below the last one. -/
def initiated (w : Writer) (time : Instant) : Except Violation Writer :=
  match w.lastInitiated with
  | none => .ok (w.add time)
  | some last => if time < last then .error (.initiatedTooEarly time last) else .ok (w.add time)

def completed (w : Writer) (time : Instant) : Except Violation Writer :=
  if time ∈ w.outstanding then .ok { w with outstanding := w.outstanding.erase time }
  else .error (.notOutstanding time)

/-- Just before the earliest outstanding time, or the last initiated time when nothing is
outstanding. -/
def completionTime (w : Writer) : Option Instant :=
  match w.outstanding with
  | [] => w.lastInitiated
  | earliest :: _ => earliest.stepBack

end Writer

end PacedLoad.Watermark
