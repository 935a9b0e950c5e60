import PacedLoad.Watermark.Service
import PacedLoad.Watermark.Tracker

/-!
# The board of all completion times

The trackers of all writers and the last reports of all declared peers.  Calls change the
board in place; a call that is refused answers why.
-/

namespace PacedLoad.Watermark

/-- All writers, numbered in the order of their registration, and the last report of every
declared peer. -/
structure Board where
  writers : List Tracker
  peers : Keyed (Option Instant)
deriving DecidableEq, Repr

namespace Board

def start (peers : List String) : Board := ⟨[], Keyed.ofList (peers.map fun p => (p, none))⟩

/-- Adds a writer, whose number is the second part. -/
def register (b : Board) : Board × Nat :=
  ({ b with writers := b.writers ++ [Tracker.fresh] }, b.writers.length)

def withWriter (b : Board) (writer : Nat) (f : Tracker → Tracker × Except Violation Unit) :
    Board × Except Violation Unit :=
  match b.writers[writer]? with
  | none => (b, .error (.unknownWriter writer))
  | some w =>
    let (w, answer) := f w
    ({ b with writers := b.writers.set writer w }, answer)

def initiated (b : Board) (writer : Nat) (time : Instant) : Board × Except Violation Unit :=
  b.withWriter writer fun w => w.initiated time

def completed (b : Board) (writer : Nat) (time : Instant) : Board × Except Violation Unit :=
  b.withWriter writer fun w => w.completed time

/-- A peer reports its own completion time, which must not go back. -/
def external (b : Board) (peer : String) (time : Instant) : Board × Except Violation Unit :=
  match Keyed.find? peer b.peers with
  | none => (b, .error (.unknownPeer peer))
  | some previous =>
    if previous.any (time < ·) then
      (b, .error (.peerRegressed peer (previous.getD time) time))
    else ({ b with peers := Keyed.insert peer (some time) b.peers }, .ok ())

def sources (b : Board) : List (Option Instant) :=
  b.writers.map Tracker.completionTime ++ b.peers.map (·.2)

/-- The time up to which everything is complete. -/
def globalCompletionTime (b : Board) : Option Instant := lowest b.sources

def apply (b : Board) (e : Event) : Except Violation Board :=
  match e with
  | .initiated writer time => kept (b.initiated writer time)
  | .completed writer time => kept (b.completed writer time)
  | .external peer time => kept (b.external peer time)
where
  /-- The board after a call that was accepted. -/
  kept : Board × Except Violation Unit → Except Violation Board
    | (b, .ok ()) => .ok b
    | (_, .error v) => .error v

end Board

instance : Bookkeeping Board where
  start := Board.start
  register := Board.register
  apply := Board.apply
  globalCompletionTime := Board.globalCompletionTime

end PacedLoad.Watermark
