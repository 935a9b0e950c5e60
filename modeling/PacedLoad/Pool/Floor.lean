import PacedLoad.Delay
import PacedLoad.Pool.Basic
import PacedLoad.Watermark.Calls

/-!
# The floor on which handlers work

The pool together with all that its handlers touch: the completion time service,
the delay policy, the shared journal and the state of the bodies.  Each function
from one floor to an optional next one is a single step of one of the parties,
and yields nothing when that party can not move.
-/

namespace PacedLoad

open Handler

/-- The pool and what its handlers touch. -/
structure Floor (β : Type) (σ : Type := Watermark.State) where
  watermark : Watermark.Service σ
  journal : Journal
  policy : DelayPolicy
  pool : Pool β
  /-- What the bodies share. -/
  shared : β

namespace Floor

variable {β σ : Type}

def announce (f : Floor β σ) (op : Operation) (writer : Nat) :
    Floor β σ × Except ExecutionError Unit :=
  let (watermark, r) := f.watermark.submitInitiated f.journal writer op.scheduledStart
  ({ f with watermark }, r.mapError (.completionTime op.id))

def submit (f : Floor β σ) (op : Operation) (writer : Nat) (work : Work β) :
    Floor β σ × Except ExecutionError Unit :=
  match f.pool.submit op writer work with
  | .ok pool => ({ f with pool }, .ok ())
  | .error e => (f, .error e)

/-- The answer to what a task needs, unless it has to wait for it. -/
def respond (f : Floor β σ) (ticket : Nat) (t : Task β) (now : Instant) :
    Need → Option (Floor β σ × Event)
  | .clock => some (f, .clock now)
  | .watermark => some (f, .watermark f.watermark.gct)
  | .verdict =>
    let (accepted, journal) := f.policy.judge t.operation f.journal
    some ({ f with journal }, .verdict accepted)
  | .slot =>
    if f.pool.shutDown then some (f, .slot false)
    else if f.pool.admits ticket then some (f, .slot true)
    else none
  | .body => (t.work f.shared t.operation).map fun (shared, r) => ({ f with shared }, .body r)
  | .submission =>
    let (watermark, r) :=
      f.watermark.submitCompleted f.journal t.writer t.operation.scheduledStart
    some ({ f with watermark }, .submission r)

/-- One step of a task.  The clock shows `now`, if the task looks at it. -/
def stepTask (f : Floor β σ) (ticket : Nat) (now : Instant) : Option (Floor β σ) := do
  let t ← f.pool.tasks[ticket]?
  let need ← t.phase.need
  let (g, e) ← f.respond ticket t now need
  return { g with
    pool := g.pool.move ticket t.phase (t.phase.next t.operation f.policy.tolerated e) }

def interrupt (f : Floor β σ) (ticket : Nat) : Option (Floor β σ) :=
  (f.pool.interrupt ticket).map fun pool => { f with pool }

def stepWatermark [Watermark.Bookkeeping σ] (f : Floor β σ) : Option (Floor β σ) :=
  if f.watermark.core.queue.isEmpty then none
  else
    let (watermark, journal) := f.watermark.deliver f.journal
    some { f with watermark, journal }

/-- How many steps are left, if nothing has to be waited for. -/
def weight (f : Floor β σ) : Nat := f.pool.weight + f.watermark.core.queue.length

/-! What follows lets all parties move as long as they can while the clock shows one time. -/

def tickets (f : Floor β σ) : List Nat :=
  (List.range f.pool.tasks.length).filter fun i => f.pool.tasks[i]?.any fun t => !t.taken

def waits (f : Floor β σ) (ticket : Nat) : Bool :=
  f.pool.tasks[ticket]?.any fun t => t.phase matches .waiting

/-- Steps of one task until it waits, at most `fuel` of them. -/
def turn (now : Instant) (ticket : Nat) : Nat → Floor β σ → Floor β σ
  | 0, f => f
  | fuel + 1, f =>
    match f.stepTask ticket now with
    | none => f
    | some g => if g.waits ticket then g else turn now ticket fuel g

/-- Lets the worker take all messages, interrupts what can be interrupted after a shutdown, and
gives every task a turn. -/
def round [Watermark.Bookkeeping σ] (now : Instant) (f : Floor β σ) : Floor β σ :=
  let (watermark, journal) := f.watermark.settle f.journal
  f.tickets.foldl (fun f ticket => turn now ticket 11 ((f.interrupt ticket).getD f))
    { f with watermark, journal }

/-- Rounds as long as they lead on. -/
def settle [Watermark.Bookkeeping σ] (now : Instant) (f : Floor β σ) : Floor β σ :=
  let g := f.round now
  if g.weight < f.weight then settle now g else g
termination_by f.weight

end Floor

end PacedLoad
