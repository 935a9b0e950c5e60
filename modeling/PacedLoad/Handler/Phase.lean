import PacedLoad.Handler.Outcome

/-!
# The phases of a handler

A handler carries one operation from its announced start to its outcome.  Between
two phases it does one thing that others can notice: it looks at a clock, at the
global completion time or at the answer of the delay policy, gets a slot, lets
the body run, or completes the announced start time.  Whoever runs the handler
provides the answer, so that all runners share one transition function.
-/

namespace PacedLoad.Handler

/-- A start that was let go: when, and whether it was late and accepted as such. -/
structure Release where
  time : Instant
  lateStartAccepted : Bool
deriving DecidableEq, Repr

/-- How far a handler has come. -/
inductive Phase
  /-- Looks at the clock. -/
  | waiting
  /-- The start is due; looks at the global completion time. -/
  | dependent (now : Instant)
  /-- The start is late; asks the delay policy. -/
  | late (now : Instant)
  /-- Let go; needs a slot. -/
  | released (release : Release)
  /-- The late start was refused; completes the start time. -/
  | refused (delay : Span)
  /-- Has a slot; looks at the clock. -/
  | admitted (lateStartAccepted : Bool)
  /-- The body runs. -/
  | started (lateStartAccepted : Bool) (start : Instant)
  /-- The body has returned; looks at the clock. -/
  | ended (lateStartAccepted : Bool) (start : Instant) (result : Except Failure Product)
  /-- Completes the start time. -/
  | completing (outcome : Outcome)
  | finished (outcome : Outcome)

/-- What a handler needs for its next step. -/
inductive Need
  | clock | watermark | verdict | slot | body | submission
deriving DecidableEq, Repr

inductive Event
  | clock (now : Instant)
  | watermark (gct : Option Instant)
  | verdict (accepted : Bool)
  | slot (granted : Bool)
  | body (result : BodyResult)
  | submission (result : Except ServiceError Unit)

/-- Whether the work that an operation depends on is complete. -/
def dependencyMet (op : Operation) (gct : Option Instant) : Bool :=
  match op.dependencyTime with
  | none => true
  | some required => gct.any (required ≤ ·)

namespace Phase

def need : Phase → Option Need
  | .waiting | .admitted _ | .ended .. => some .clock
  | .dependent _ => some .watermark
  | .late _ => some .verdict
  | .released _ => some .slot
  | .started .. => some .body
  | .refused _ | .completing _ => some .submission
  | .finished _ => none

/-- The phase of an operation that is due and whose dependency is met.  A start is late when it
is later than tolerated. -/
def due (op : Operation) (tolerated : Span) (now : Instant) : Phase :=
  if op.scheduledStart.plus tolerated < now then .late now else .released ⟨now, false⟩

/-- The end of a handler whose completed time was submitted.  A refused submission hides what
came before. -/
def close (op : Operation) (submitted : Except ServiceError Unit) (outcome : Outcome) : Phase :=
  match submitted with
  | .ok () => .finished outcome
  | .error e => .finished (.error (.completionTime op.id e))

/-- The next phase after an answer.  An answer that was not needed changes nothing. -/
def next (op : Operation) (tolerated : Span) : Phase → Event → Phase
  | .waiting, .clock now =>
    if now < op.scheduledStart then .waiting
    else if op.dependencyTime.isSome then .dependent now
    else due op tolerated now
  | .dependent now, .watermark gct =>
    if dependencyMet op gct then due op tolerated now else .waiting
  | .late now, .verdict accepted =>
    if accepted then .released ⟨now, true⟩ else .refused (now.since op.scheduledStart)
  | .released r, .slot granted =>
    if granted then .admitted r.lateStartAccepted else .finished (.error (.interrupted op.id))
  | .refused delay, .submission s => close op s (.error (.excessiveDelay op.id delay))
  | .admitted accepted, .clock now => .started accepted now
  | .started accepted start, .body (.returned r) => .ended accepted start r
  | .started .., .body (.panicked m) => .finished (.error (.panicked op.id m))
  | .ended accepted start r, .clock now =>
    .completing (outcomeOf op accepted start (now.since start) r)
  | .completing outcome, .submission s => close op s outcome
  | phase, _ => phase

def occupies : Phase → Bool
  | .admitted _ | .started .. | .ended .. | .completing _ => true
  | _ => false

/-- Whether the handler can be interrupted: while it waits for its start, for a slot or for its
body. -/
def interruptible : Phase → Bool
  | .waiting | .released _ | .started .. => true
  | _ => false

/-- The outcome, once there is one. -/
def outcome? : Phase → Option Outcome
  | .finished outcome => some outcome
  | _ => none

/-- How many steps are left, if nothing has to be waited for.  Completing a start time counts
for two steps, since it leaves a message behind. -/
def stepsLeft : Phase → Nat
  | .waiting => 11
  | .dependent _ => 10
  | .late _ => 9
  | .released _ => 8
  | .admitted _ => 7
  | .started .. => 6
  | .ended .. => 5
  | .refused _ => 4
  | .completing _ => 4
  | .finished _ => 2

end Phase

end PacedLoad.Handler
