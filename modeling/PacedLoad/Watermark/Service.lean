import PacedLoad.Service.Basic
import PacedLoad.Watermark.State

/-!
# The completion time service

A worker owns the completion times.  After every change it publishes the global
completion time in a slot that anyone may read without asking.  The slot can not
show the last instant, which stands there for the one before.
-/

namespace PacedLoad.Watermark

inductive Event
  | initiated (writer : Nat) (time : Instant)
  | completed (writer : Nat) (time : Instant)
  | external (peer : String) (time : Instant)
deriving DecidableEq, Repr

inductive Request
  | register
  | read
deriving DecidableEq, Repr

inductive Answer
  | writer (id : Nat)
  | time (gct : Option Instant)
deriving DecidableEq, Repr

/-- A way to keep the completion times of all writers and peers. -/
class Bookkeeping (σ : Type) where
  start : List String → σ
  register : σ → σ × Nat
  apply : σ → Event → Except Violation σ
  globalCompletionTime : σ → Option Instant

namespace Slot

/-- What the slot holds while the time is unknown: the number of the last instant. -/
def unknown : UInt64 := 18446744073709551615

/-- Puts a time into the slot.  The last instant is put there as the one before it. -/
def store : Option Instant → UInt64
  | none => unknown
  | some t => .ofNat (min t.nanos 18446744073709551614)

def load (slot : UInt64) : Option Instant :=
  if slot = unknown then none else some (.saturate slot.toNat)

end Slot

/-- The completion times and the published slot. -/
structure Coordinator (σ : Type := State) where
  state : σ
  slot : UInt64
deriving DecidableEq, Repr

namespace Coordinator

variable {σ : Type}

def published (c : Coordinator σ) : Option Instant := Slot.load c.slot

def apply (s : State) : Event → Except Violation State
  | .initiated writer time => s.initiated writer time
  | .completed writer time => s.completed writer time
  | .external peer time => s.external peer time

variable [Bookkeeping σ]

/-- No writers, peers that have not reported, and an unknown time in the slot. -/
def start (peers : List String) : Coordinator σ := ⟨Bookkeeping.start peers, Slot.unknown⟩

/-- Puts the global completion time into the slot. -/
def publish (s : σ) : Coordinator σ := ⟨s, Slot.store (Bookkeeping.globalCompletionTime s)⟩

end Coordinator

instance : Bookkeeping State where
  start := State.start
  register := State.register
  apply := Coordinator.apply
  globalCompletionTime := State.globalCompletionTime

def serviceName : String := "completion-time-service"

def duty {σ : Type} [Bookkeeping σ] : Duty (Coordinator σ) Event Request Answer where
  name := serviceName
  onEvent c j e :=
    match Bookkeeping.apply c.state e with
    | .ok s => ((Coordinator.publish s, j), none)
    | .error v => ((c, j), some v.message)
  onRequest _ c
    | .register =>
      let (s, id) := Bookkeeping.register c.state
      (Coordinator.publish s, .writer id)
    | .read => (c, .time (Bookkeeping.globalCompletionTime c.state))

structure Patience where
  registration : Span
  read : Span
  shutdown : Span
  pollInterval : Span
deriving DecidableEq, Repr

namespace Patience

/-- Two seconds for answers, five for the end. -/
def standard : Patience :=
  ⟨Span.ofMillis 2000, Span.ofMillis 2000, Span.ofMillis 5000, Span.ofMillis 100⟩

end Patience

def errorMessage : ServiceError → String
  | .timeout what => s!"Timed out: {what}"
  | .protocol what => s!"Protocol violation: {what}"
  | .shuttingDown => "Can not submit initiated time after calling shutdown"
  | .reported errors => "Coordination failed with reported errors:\n" ++ errors
  | .channelClosed => "Completion time service channel closed"

/-- The running service with the handles of its registered writers. -/
structure Service (σ : Type := State) where
  core : PacedLoad.Service (Coordinator σ) Event Request Answer
  patience : Patience
  /-- Numbers of the writers whose registration was answered in time, in that order. -/
  writers : List Nat
deriving Repr

namespace Service

variable {σ : Type}

def start [Bookkeeping σ] (peers : List String) (patience : Patience) : Service σ :=
  ⟨PacedLoad.Service.start (Coordinator.start peers), patience, []⟩

def gct (s : Service σ) : Option Instant := s.core.worker.state.published

/-- What a client is doing while it waits. -/
def registering : String := "registering local writer"

@[inherit_doc registering] def reading : String := "reading global completion time"

@[inherit_doc registering] def stopping : String := "shutting down"

/-- A writer announces a start time, unless the service is shutting down. -/
def submitInitiated (s : Service σ) (j : Journal) (writer : Nat) (time : Instant) :
    Service σ × Except ServiceError Unit :=
  let (core, r) := s.core.submitWhileUp j (.initiated writer time)
  ({ s with core }, r)

def submitCompleted (s : Service σ) (j : Journal) (writer : Nat) (time : Instant) :
    Service σ × Except ServiceError Unit :=
  let (core, r) := s.core.submit j (.completed writer time)
  ({ s with core }, r)

def submitExternal (s : Service σ) (j : Journal) (peer : String) (time : Instant) :
    Service σ × Except ServiceError Unit :=
  let (core, r) := s.core.submit j (.external peer time)
  ({ s with core }, r)

/-- Asks for something; the answer is the number of a cell. -/
def ask (s : Service σ) (j : Journal) (r : Request) : Service σ × Except ServiceError Nat :=
  let (core, t) := s.core.ask j r
  ({ s with core }, t)

def registered (s : Service σ) : Except ServiceError Answer → Service σ × Except ServiceError Nat
  | .ok (.writer id) => ({ s with writers := s.writers ++ [id] }, .ok id)
  | .ok (.time _) => (s, .error .channelClosed)
  | .error e => (s, .error e)

def pollRegistration (s : Service σ) (j : Journal) (expired : Bool) (ticket : Nat) :
    Option (Service σ × Except ServiceError Nat) :=
  (s.core.answer j registering s.patience.registration expired ticket).map fun r =>
    { s with core := s.core.modifyCell ticket Cell.dropPending }.registered r

def timeOf : Answer → Option Instant
  | .time t => t
  | .writer _ => none

def pollReading (s : Service σ) (j : Journal) (expired : Bool) (ticket : Nat) :
    Option (Service σ × Except ServiceError (Option Instant)) :=
  (s.core.answer j reading s.patience.read expired ticket).map fun r =>
    ({ s with core := s.core.modifyCell ticket Cell.dropPending }, r.map timeOf)

/-- Refuses new start times and sends the last message.  The answer is false when that was
already done. -/
def beginShutdown (s : Service σ) (j : Journal) : Service σ × Except ServiceError Bool :=
  let (already, core) := s.core.refuse
  if already then ({ s with core }, .ok false)
  else
    let (core, r) := core.terminate j
    ({ s with core }, r.map fun _ => true)

def pollShutdown (s : Service σ) (j : Journal) (expired : Bool) : Option (Except ServiceError Unit) :=
  s.core.ended j stopping s.patience.shutdown expired

def deliver [Bookkeeping σ] (s : Service σ) (j : Journal) : Service σ × Journal :=
  let (core, j) := s.core.deliver duty Instant.first j
  ({ s with core }, j)

end Service

end PacedLoad.Watermark
