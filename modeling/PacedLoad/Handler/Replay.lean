import PacedLoad.Delay
import PacedLoad.Handler.Phase

/-!
# Handlers alone

Runs one handler against given readings of the clock and of the global
completion time.  The last reading of either repeats for ever.  What the handler
needed is kept in order, so that one can tell how often it looked where.
-/

namespace PacedLoad.Handler

structure Replay where
  policy : DelayPolicy
  journal : Journal
  /-- The readings of the clock that are left. -/
  clock : List Instant
  /-- The readings of the global completion time that are left; unknown when there are none. -/
  watermark : List (Option Instant)
  body : BodyResult
  /-- The error with which a completed time is refused. -/
  refusal : Option ServiceError
  /-- All needs so far. -/
  needs : List Need

/-- All readings but the first, which stays when it is the last. -/
def laterReadings {α : Type} : List α → List α
  | _ :: t :: rest => t :: rest
  | readings => readings

theorem length_laterReadings {α : Type} (readings : List α) :
    (laterReadings readings).length ≤ readings.length := by
  match readings with
  | [] => exact Nat.le_refl _
  | [_] => exact Nat.le_refl _
  | _ :: _ :: _ => exact Nat.le_succ _

namespace Replay

def answer (s : Replay) (op : Operation) : Need → Event
  | .clock => .clock (s.clock.headD Instant.first)
  | .watermark => .watermark (s.watermark.headD none)
  | .verdict => .verdict (s.policy.judge op s.journal).1
  | .slot => .slot true
  | .body => .body s.body
  | .submission => .submission (match s.refusal with | some e => .error e | none => .ok ())

def after (s : Replay) (op : Operation) (need : Need) : Replay :=
  { s with
    journal := if need = .verdict then (s.policy.judge op s.journal).2 else s.journal
    clock := if need = .clock then laterReadings s.clock else s.clock
    watermark := if need = .watermark then laterReadings s.watermark else s.watermark
    needs := s.needs ++ [need] }

def completions (s : Replay) : Nat :=
  if s.refusal.isSome then 0 else s.needs.count .submission

/-- What a step lowers unless the handler waits for something that never comes. -/
def weight (s : Replay) (phase : Phase) : Nat :=
  12 * (s.clock.length + s.watermark.length) + phase.stepsLeft

/-- Runs a handler up to a phase in which `stop` holds, or in which it stays for ever. -/
def run (stop : Phase → Bool) (op : Operation) (s : Replay) (phase : Phase) : Replay × Phase :=
  if stop phase then (s, phase)
  else
    match phase.need with
    | none => (s, phase)
    | some need =>
      let following := phase.next op s.policy.tolerated (s.answer op need)
      if (s.after op need).weight following < s.weight phase then
        run stop op (s.after op need) following
      else (s, phase)
termination_by s.weight phase

/-- Whether the wait for the start is over. -/
def decided : Phase → Bool
  | .released _ | .refused _ => true
  | _ => false

/-- How the wait of an operation ends, without a completed time for a refused start.  The answer
is `none` when it never ends. -/
def release (s : Replay) (op : Operation) : Replay × Option (Except ExecutionError Release) :=
  match s.run decided op .waiting with
  | (s, .released r) => (s, some (.ok r))
  | (s, .refused delay) => (s, some (.error (.excessiveDelay op.id delay)))
  | (s, _) => (s, none)

/-- How often a handler that was released had paused: after every look at the clock while it
waited, but the last. -/
def pauses (s : Replay) : Nat :=
  (s.needs.takeWhile fun need => need == .clock || need == .watermark).count .clock - 1

def needsSlot (phase : Phase) : Bool := phase.need == some .slot

/-- The first half of a handler: how the wait for the start ends. -/
def waitForStart (s : Replay) (op : Operation) : Replay × Option (Except ExecutionError Release) :=
  match s.run needsSlot op .waiting with
  | (s, .released r) => (s, some (.ok r))
  | (s, .finished (.error e)) => (s, some (.error e))
  | (s, _) => (s, none)

/-- The second half of a handler: the outcome of an operation that starts now. -/
def execute (s : Replay) (op : Operation) (lateStartAccepted : Bool) : Replay × Option Outcome :=
  let (s, phase) := s.run (fun _ => false) op (.admitted lateStartAccepted)
  (s, phase.outcome?)

def call (s : Replay) (op : Operation) : Replay × Option Outcome :=
  let (s, phase) := s.run (fun _ => false) op .waiting
  (s, phase.outcome?)

end Replay

/-- The pause between two looks of a handler that waits for its start. -/
def standardSleep : Span := Span.ofMillis 1

end PacedLoad.Handler
