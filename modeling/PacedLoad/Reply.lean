import PacedLoad.Journal
import PacedLoad.Time.Text

/-!
# Reply cells

A cell hands one value from a resolving half to a waiting half.  Either half may
go away first.  A wait polls: at each poll a value wins over all else, then come
reported errors, then the deadline.
-/

namespace PacedLoad

inductive WaitError
  /-- The deadline passed. -/
  | timeout (allowed : Span)
  /-- The resolving half is gone. -/
  | closed
  /-- Errors were reported meanwhile. -/
  | reported (errors : String)
deriving DecidableEq, Repr

def WaitError.message : WaitError → String
  | .timeout allowed => s!"No value within {allowed}"
  | .closed => "Resolver dropped before setting a value"
  | .reported errors => "Gave up after errors were reported:\n" ++ errors

structure PollSchedule where
  interval : Span
  timeout : Span
deriving DecidableEq, Repr

namespace PollSchedule

/-- Ten polls a second for two seconds. -/
def standard : PollSchedule := ⟨Span.ofMillis 100, Span.ofMillis 2000⟩

end PollSchedule

/-- The text of the reported errors, if there are any and the wait looks at them. -/
def reportedText (journal : Option Journal) : Option String :=
  journal.bind fun j => if j.hasErrors then some j.text else none

/-- What one poll decides: `none` to go on waiting.  What is waited for comes first, then
reported errors, then the deadline. -/
def pollVerdict (ready : Bool) (journal : Option Journal) (expired : Bool) (timeout : Span) :
    Option (Except WaitError Unit) :=
  if ready then some (.ok ())
  else
    match reportedText journal with
    | some errors => some (.error (.reported errors))
    | none => if expired then some (.error (.timeout timeout)) else none

/-- The number and the verdict of the first poll that decides, counting on from `n`.  What is
waited for is ready from poll `readyAt` on, and a poll takes no time but the interval after it. -/
def pollFrom (readyAt : Nat) (journal : Option Journal) (schedule : PollSchedule) :
    Nat → Nat → Option (Nat × Except WaitError Unit)
  | 0, _ => none
  | more + 1, n =>
    let expired := decide (schedule.timeout.nanos ≤ (n - 1) * schedule.interval.nanos)
    match pollVerdict (decide (readyAt ≤ n)) journal expired schedule.timeout with
    | some r => some (n, r)
    | none => pollFrom readyAt journal schedule more (n + 1)

/-- How many polls a wait makes and how it ends, when what it waits for is ready from poll
`readyAt` on, or never. -/
def pollScript (readyAt : Option Nat) (journal : Option Journal) (schedule : PollSchedule) :
    Nat × Except WaitError Unit :=
  match readyAt with
  | some k => (pollFrom k journal schedule (k + 1) 1).getD (k, .ok ())
  | none => (1, ((pollVerdict false journal true schedule.timeout).getD (.ok ())))

/-- A value on its way from one half to the other. -/
structure Cell (α : Type) where
  value : Option α
  /-- The resolving half still exists and has not been used. -/
  resolver : Bool
  /-- The waiting half still exists. -/
  pending : Bool
deriving DecidableEq, Repr

namespace Cell

variable {α : Type}

def fresh : Cell α := ⟨none, true, true⟩

/-- Uses up the resolving half.  The value arrives only while the waiting half exists. -/
def resolve (c : Cell α) (a : α) : Cell α :=
  if c.resolver && c.pending then { c with value := some a, resolver := false }
  else { c with resolver := false }

@[simp] theorem pending_resolve (c : Cell α) (a : α) : (c.resolve a).pending = c.pending := by
  unfold resolve
  split <;> rfl

@[simp] theorem resolver_resolve (c : Cell α) (a : α) : (c.resolve a).resolver = false := by
  unfold resolve
  split <;> rfl

theorem value_resolve (c : Cell α) (a : α) :
    (c.resolve a).value = if c.resolver && c.pending then some a else c.value := by
  unfold resolve
  split <;> rfl

/-- A used or dropped resolving half does nothing any more. -/
theorem resolve_of_used {c : Cell α} (used : c.resolver = false) (a : α) : c.resolve a = c := by
  obtain ⟨value, resolver, pending⟩ := c
  subst used
  rfl

def reachable (c : Cell α) : Bool := c.resolver && c.pending

def dropResolver (c : Cell α) : Cell α := { c with resolver := false }

@[simp] theorem resolver_dropResolver (c : Cell α) : c.dropResolver.resolver = false := rfl

@[simp] theorem value_dropResolver (c : Cell α) : c.dropResolver.value = c.value := rfl

@[simp] theorem pending_dropResolver (c : Cell α) : c.dropResolver.pending = c.pending := rfl

def dropPending (c : Cell α) : Cell α := { c with pending := false }

/-- Whether the cell holds a value or never will. -/
def settled (c : Cell α) : Bool := c.value.isSome || !c.resolver

/-- Takes the value out, if it is there. -/
def tryGet (c : Cell α) : Cell α × Except WaitError (Option α) :=
  match c.value with
  | some a => ({ c with value := none }, .ok (some a))
  | none => (c, if c.resolver then .ok none else .error .closed)

/-- What the cell and the journal say once the cell is settled. -/
def ending (c : Cell α) (journal : Option Journal) : Except WaitError α :=
  match c.value with
  | some a => .ok a
  | none =>
    match reportedText journal with
    | some errors => .error (.reported errors)
    | none => .error .closed

/-- What one poll of a wait decides: `none` to go on waiting. -/
def verdict (c : Cell α) (journal : Option Journal) (expired : Bool) (timeout : Span) :
    Option (Except WaitError α) :=
  match pollVerdict c.settled journal expired timeout with
  | none => none
  | some (.error e) => some (.error e)
  | some (.ok ()) => some (c.ending journal)

end Cell

end PacedLoad
