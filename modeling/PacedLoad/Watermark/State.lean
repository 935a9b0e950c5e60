import PacedLoad.Keyed
import PacedLoad.Watermark.Writer

/-!
# The global completion time

All writers and all declared peers together: up to the global completion time
everything is complete everywhere.  It is unknown as long as one of them is.
-/

namespace PacedLoad.Watermark

/-- The least of several times; unknown when one of them is, and when there are none. -/
def lowest : List (Option Instant) → Option Instant
  | [] => none
  | [t] => t
  | t :: rest =>
    match t, lowest rest with
    | some a, some b => some (min a b)
    | _, _ => none

/-- All writers, numbered in the order of their registration, and the last report of every
declared peer. -/
structure State where
  writers : List Writer
  peers : Keyed (Option Instant)
deriving DecidableEq, Repr

namespace State

def start (peers : List String) : State := ⟨[], Keyed.ofList (peers.map fun p => (p, none))⟩

/-- Adds a writer, whose number is the second part. -/
def register (s : State) : State × Nat :=
  ({ s with writers := s.writers ++ [Writer.fresh] }, s.writers.length)

def withWriter (s : State) (writer : Nat) (f : Writer → Except Violation Writer) :
    Except Violation State :=
  match s.writers[writer]? with
  | none => .error (.unknownWriter writer)
  | some w => (f w).map fun w => { s with writers := s.writers.set writer w }

def initiated (s : State) (writer : Nat) (time : Instant) : Except Violation State :=
  s.withWriter writer fun w => w.initiated time

def completed (s : State) (writer : Nat) (time : Instant) : Except Violation State :=
  s.withWriter writer fun w => w.completed time

/-- A peer reports its own completion time, which must not go back. -/
def external (s : State) (peer : String) (time : Instant) : Except Violation State :=
  match Keyed.find? peer s.peers with
  | none => .error (.unknownPeer peer)
  | some previous =>
    if previous.any (time < ·) then .error (.peerRegressed peer (previous.getD time) time)
    else .ok { s with peers := Keyed.insert peer (some time) s.peers }

def sources (s : State) : List (Option Instant) :=
  s.writers.map Writer.completionTime ++ s.peers.map (·.2)

/-- The time up to which everything is complete. -/
def globalCompletionTime (s : State) : Option Instant := lowest s.sources

end State

end PacedLoad.Watermark
