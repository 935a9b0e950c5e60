import PacedLoad.Reply

/-!
# Waiting for a reply

A wait polls its cell, naps and polls again, until a poll decides.  Meanwhile the
resolving half may be used or dropped, errors may be reported, and time passes on a
clock that never goes back.
-/

namespace PacedLoad

/-- Something that happens around a wait, never within a poll. -/
inductive Incident (α : Type)
  | resolve (a : α)
  | dropResolver
  | report (source message : String)
  | pass (nanos : Nat)
deriving DecidableEq, Repr

/-- A cell, the journal that a wait looks at, if it looks at one, and the monotonic clock. -/
structure Exchange (α : Type) where
  cell : Cell α
  journal : Option Journal
  now : Nat
deriving Repr

namespace Exchange

variable {α : Type}

def fresh (journal : Option Journal) (now : Nat) : Exchange α := ⟨Cell.fresh, journal, now⟩

def happen (x : Exchange α) : Incident α → Exchange α
  | .resolve a => { x with cell := x.cell.resolve a }
  | .dropResolver => { x with cell := x.cell.dropResolver }
  | .report source message => { x with journal := x.journal.map (·.report source message) }
  | .pass nanos => { x with now := x.now + nanos }

/-- Takes the value out, if it is there. -/
def check (x : Exchange α) : Exchange α × Except WaitError (Option α) :=
  let (cell, got) := x.cell.tryGet
  ({ x with cell := cell }, got)

/-- One poll of a wait: it checks the cell and decides, or finds nothing that decides. -/
def poll (deadline : Nat) (timeout : Span) (x : Exchange α) :
    Exchange α × Option (Except WaitError α) :=
  (x.check.1, x.cell.verdict x.journal (decide (deadline ≤ x.now)) timeout)

/-- Polls until a poll decides, with what happens before each poll and a nap after each; answers
with the number of polls that did not decide, and with the verdict. -/
def waitUntil (deadline : Nat) (schedule : PollSchedule) :
    List (List (Incident α)) → Exchange α → Exchange α × Option (Nat × Except WaitError α)
  | [], x => (x, none)
  | before :: later, x =>
    match (before.foldl happen x).poll deadline schedule.timeout with
    | (x, some verdict) => (x, some (0, verdict))
    | (x, none) =>
      let (x, ended) := waitUntil deadline schedule later
        (x.happen (.pass schedule.interval.nanos))
      (x, ended.map fun (n, verdict) => (n + 1, verdict))

/-- A wait that begins now, with what happens before each of its polls.  It has no end yet when
none of these polls decides. -/
def wait (x : Exchange α) (schedule : PollSchedule) (incidents : List (List (Incident α))) :
    Exchange α × Option (Nat × Except WaitError α) :=
  waitUntil (x.now + schedule.timeout.nanos) schedule incidents x

end Exchange

end PacedLoad
