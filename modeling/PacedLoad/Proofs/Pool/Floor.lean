import PacedLoad.Pool.Floor
import PacedLoad.Proofs.Entries
import PacedLoad.Proofs.Handler.Phase
import PacedLoad.Proofs.Pool.Log
import PacedLoad.Proofs.Service.Basic

/-!
# The steps of handlers

What one step of a handler can do to the floor: it gets an answer to what it
needs, goes on to the next phase, and sends nothing but the completion of its
start.
-/

namespace PacedLoad

open Handler

variable {β σ : Type}

def Task.untaken (t : Task β) : Task β := { t with taken := false }

/-- What may be answered to a need of a task other than the completion of its start: `gct` stands
in the published slot, and no slot is granted once the pool is `closing`. -/
def Task.Answers (gct : Option Instant) (closing : Bool) (t : Task β) : Need → Event → Prop
  | .clock, e => ∃ now, e = .clock now
  | .watermark, e => e = .watermark gct
  | .verdict, e => ∃ accepted, e = .verdict accepted
  | .slot, e => ∃ granted, e = .slot granted ∧ (granted = false → closing = true)
  | .body, e => ∃ before after r, e = .body r ∧ t.work before t.operation = some (after, r)
  | .submission, _ => False

namespace Pool

def jobs (p : Pool β) : List (Task β) := p.tasks.map Task.untaken

theorem jobs_getElem? (p : Pool β) (i : Nat) : p.jobs[i]? = p.tasks[i]?.map Task.untaken := by
  simp [jobs]

theorem submit_ok {p q : Pool β} {op : Operation} {writer : Nat} {work : Work β}
    (success : p.submit op writer work = .ok q) :
    p.shutDown = false ∧ q.shutDown = false ∧
      q.tasks = p.tasks ++ [⟨op, writer, work, .waiting, false⟩] := by
  unfold submit at success
  split at success
  · cases success
  next accepting =>
    cases success
    exact ⟨by simpa using accepting, by simpa using accepting, rfl⟩

/-- Only a pool that was shut down refuses an operation. -/
theorem submit_error {p : Pool β} {op : Operation} {writer : Nat} {work : Work β}
    {e : ExecutionError} (failure : p.submit op writer work = .error e) : p.shutDown = true := by
  unfold submit at failure
  split at failure
  next closed => exact closed
  next => cases failure

/-- The outcome that is taken is that of the finished task that waits first, which is only
marked. -/
theorem tryTake_some {p q : Pool β} {outcome : Outcome} (success : p.tryTake = some (outcome, q)) :
    ∃ (ticket : Nat) (task : Task β), p.done = ticket :: q.done ∧ p.tasks[ticket]? = some task ∧
      task.phase = .finished outcome ∧ q.shutDown = p.shutDown ∧
      q.tasks = p.tasks.modify ticket fun t => { t with taken := true } := by
  unfold tryTake at success
  split at success
  · cases success
  next ticket rest waiting =>
    obtain ⟨outcome', found, same⟩ := Option.map_eq_some_iff.mp success
    cases same
    obtain ⟨task, member, ended⟩ := Option.bind_eq_some_iff.mp found
    refine ⟨ticket, task, waiting, member, ?_, rfl, rfl⟩
    revert ended
    cases task.phase <;> simp [Phase.outcome?]

/-- Taking an outcome leaves the jobs alone. -/
theorem jobs_tryTake {p q : Pool β} {outcome : Outcome} (success : p.tryTake = some (outcome, q)) :
    q.jobs = p.jobs := by
  obtain ⟨ticket, -, -, -, -, -, tasks⟩ := tryTake_some success
  refine List.ext_getElem? fun i => ?_
  simp only [jobs, tasks, List.getElem?_map, List.getElem?_modify]
  cases p.tasks[i]? with
  | none => rfl
  | some other => by_cases same : ticket = i <;> simp [same, Task.untaken]

theorem jobs_move (p : Pool β) (ticket : Nat) (before after : Phase) :
    (p.move ticket before after).jobs =
      p.jobs.modify ticket fun t => { t with phase := after } := by
  refine List.ext_getElem? fun i => ?_
  simp only [jobs, move, modify, List.getElem?_map, List.getElem?_modify]
  cases p.tasks[i]? with
  | none => rfl
  | some other => by_cases same : ticket = i <;> simp [same, Task.untaken]

@[simp] theorem shutDown_move (p : Pool β) (ticket : Nat) (before after : Phase) :
    (p.move ticket before after).shutDown = p.shutDown := rfl

@[simp] theorem tasks_move (p : Pool β) (ticket : Nat) (before after : Phase) :
    (p.move ticket before after).tasks =
      p.tasks.modify ticket fun t => { t with phase := after } := rfl

/-- Only a pool that was shut down interrupts a task. -/
theorem interrupt_some {p q : Pool β} {ticket : Nat} (success : p.interrupt ticket = some q) :
    ∃ task, p.tasks[ticket]? = some task ∧ p.shutDown = true ∧ task.phase.interruptible = true ∧
      q = p.move ticket task.phase (.finished (.error (.interrupted task.operation.id))) := by
  unfold interrupt at success
  split at success
  next task found =>
    split at success
    next possible =>
      obtain ⟨closed, interruptible⟩ := Bool.and_eq_true_iff.mp possible
      exact ⟨task, found, closed, interruptible, (Option.some.inj success).symm⟩
    next => cases success
  next => cases success

end Pool

namespace Floor

/-- The events that the completion time service was sent between two floors. -/
def heard (f g : Floor β σ) : List Watermark.Event :=
  (g.watermark.core.queue.drop f.watermark.core.queue.length).filterMap fun
    | .event e => some e
    | _ => none

theorem heard_same {f g : Floor β σ}
    (same : g.watermark.core.queue = f.watermark.core.queue) : f.heard g = [] := by
  simp [heard, same]

theorem heard_shorter {f g : Floor β σ}
    (shorter : g.watermark.core.queue.length ≤ f.watermark.core.queue.length) :
    f.heard g = [] := by
  simp [heard, List.drop_eq_nil_of_le shorter]

theorem heard_event {f g : Floor β σ} {e : Watermark.Event}
    (sent : g.watermark.core.queue = f.watermark.core.queue ++ [.event e]) : f.heard g = [e] := by
  simp [heard, sent]

def Answers (f : Floor β σ) (t : Task β) : Need → Event → Prop
  | .submission, e => e = .submission
      (f.watermark.submitCompleted f.journal t.writer t.operation.scheduledStart).2
  | need, e => t.Answers f.watermark.gct f.pool.shutDown need e

/-- The completion time service after a need of a task was met. -/
def serviceAfter (f : Floor β σ) (t : Task β) : Need → Watermark.Service σ
  | .submission =>
    (f.watermark.submitCompleted f.journal t.writer t.operation.scheduledStart).1
  | _ => f.watermark

theorem respond_some {f g : Floor β σ} {ticket : Nat} {t : Task β} {now : Instant} {need : Need}
    {e : Event} (answered : f.respond ticket t now need = some (g, e)) :
    f.Answers t need e ∧ g.watermark = f.serviceAfter t need ∧ g.pool = f.pool ∧
      g.policy = f.policy := by
  cases need with
  | clock =>
    cases answered
    exact ⟨⟨now, rfl⟩, rfl, rfl, rfl⟩
  | watermark =>
    cases answered
    exact ⟨rfl, rfl, rfl, rfl⟩
  | verdict =>
    cases answered
    exact ⟨⟨_, rfl⟩, rfl, rfl, rfl⟩
  | slot =>
    simp only [respond] at answered
    split at answered
    next closed =>
      cases answered
      exact ⟨⟨false, rfl, fun _ => closed⟩, rfl, rfl, rfl⟩
    next =>
      split at answered
      · cases answered
        exact ⟨⟨true, rfl, nofun⟩, rfl, rfl, rfl⟩
      · cases answered
  | body =>
    obtain ⟨⟨shared, r⟩, worked, same⟩ := Option.map_eq_some_iff.mp answered
    cases same
    exact ⟨⟨f.shared, shared, r, rfl, worked⟩, rfl, rfl, rfl⟩
  | submission =>
    cases answered
    exact ⟨rfl, rfl, rfl, rfl⟩

/-- All that a step of a task does. -/
theorem stepTask_some {f g : Floor β σ} {ticket : Nat} {now : Instant}
    (moved : f.stepTask ticket now = some g) :
    ∃ t need e, f.pool.tasks[ticket]? = some t ∧ t.phase.need = some need ∧ f.Answers t need e ∧
      g.watermark = f.serviceAfter t need ∧ g.policy = f.policy ∧
      g.pool = f.pool.move ticket t.phase (t.phase.next t.operation f.policy.tolerated e) := by
  obtain ⟨t, found, moved⟩ := Option.bind_eq_some_iff.mp moved
  obtain ⟨need, needs, moved⟩ := Option.bind_eq_some_iff.mp moved
  obtain ⟨⟨g', e⟩, answered, moved⟩ := Option.bind_eq_some_iff.mp moved
  obtain ⟨answers, service, pool, policy⟩ := respond_some answered
  cases moved
  exact ⟨t, need, e, found, needs, answers, service, policy, by rw [pool]⟩

theorem serviceAfter_of_ne {f : Floor β σ} {t : Task β} {need : Need}
    (other : need ≠ .submission) : f.serviceAfter t need = f.watermark := by
  cases need <;> first | rfl | exact absurd rfl other

/-- While the service runs it takes the completion. -/
theorem serviceAfter_open {f : Floor β σ} (t : Task β) (running : f.watermark.core.isOpen = true) :
    (f.serviceAfter t .submission).core =
      { f.watermark.core with
        counted := f.watermark.core.counted + 1
        queue := f.watermark.core.queue ++
          [.event (.completed t.writer t.operation.scheduledStart)] } ∧
    (f.watermark.submitCompleted f.journal t.writer t.operation.scheduledStart).2 = .ok () := by
  simp only [serviceAfter, Watermark.Service.submitCompleted, Service.submit_of_open running,
    and_self]

/-- A service that has stopped refuses the completion. -/
theorem serviceAfter_closed {f : Floor β σ} (t : Task β)
    (stopped : f.watermark.core.isOpen = false) :
    (f.serviceAfter t .submission).core =
      { f.watermark.core with counted := f.watermark.core.counted + 1 } ∧
    (f.watermark.submitCompleted f.journal t.writer t.operation.scheduledStart).2 =
      .error (PacedLoad.Service.closedError f.journal) := by
  simp only [serviceAfter, Watermark.Service.submitCompleted, Service.submit_of_closed stopped,
    and_self]

/-- A running service takes an announcement unless it is shutting down. -/
theorem announce_open {f : Floor β σ} (op : Operation) (writer : Nat)
    (running : f.watermark.core.isOpen = true) (up : f.watermark.core.shuttingDown = false) :
    ∃ g, f.announce op writer = (g, .ok ()) ∧ g.pool = f.pool ∧ g.policy = f.policy ∧
      g.watermark.core = { f.watermark.core with
        counted := f.watermark.core.counted + 1
        queue := f.watermark.core.queue ++ [.event (.initiated writer op.scheduledStart)] } := by
  simp only [announce, Watermark.Service.submitInitiated, PacedLoad.Service.submitWhileUp, up,
    PacedLoad.Service.submit_of_open running, Except.mapError, Bool.false_eq_true, if_false]
  exact ⟨_, rfl, rfl, rfl, rfl⟩

/-- An announcement that is refused is counted at most. -/
theorem announce_cases (f : Floor β σ) (op : Operation) (writer : Nat) :
    (f.watermark.core.isOpen = true ∧ f.watermark.core.shuttingDown = false) ∨
      ∃ g e, f.announce op writer = (g, .error e) ∧ g.pool = f.pool ∧ g.policy = f.policy ∧
        g.watermark.core.worker = f.watermark.core.worker ∧
        g.watermark.core.queue = f.watermark.core.queue ∧
        g.watermark.core.cells = f.watermark.core.cells := by
  cases up : f.watermark.core.shuttingDown with
  | true =>
    refine .inr ⟨f, .completionTime op.id .shuttingDown, ?_, rfl, rfl, rfl, rfl, rfl⟩
    simp only [announce, Watermark.Service.submitInitiated, PacedLoad.Service.submitWhileUp, up,
      if_true, Except.mapError]
  | false =>
    cases running : f.watermark.core.isOpen with
    | true => exact .inl ⟨rfl, rfl⟩
    | false =>
      simp only [announce, Watermark.Service.submitInitiated, PacedLoad.Service.submitWhileUp, up,
        PacedLoad.Service.submit_of_closed running, Except.mapError, Bool.false_eq_true, if_false]
      exact .inr ⟨_, _, rfl, rfl, rfl, rfl, rfl, rfl⟩

/-- A submission adds a task that waits for its start, unless the pool was shut down. -/
theorem submit_tasks (f : Floor β σ) (op : Operation) (writer : Nat) (work : Work β) :
    (f.submit op writer work).1.watermark = f.watermark ∧
      (f.submit op writer work).1.pool.tasks =
        if f.pool.shutDown then f.pool.tasks
        else f.pool.tasks ++ [⟨op, writer, work, .waiting, false⟩] := by
  unfold submit Pool.submit
  cases f.pool.shutDown <;> exact ⟨rfl, rfl⟩

/-- The worker takes a message if there is one. -/
theorem stepWatermark_some [Watermark.Bookkeeping σ] {f g : Floor β σ} (moved : f.stepWatermark = some g) :
    f.watermark.core.queue ≠ [] ∧ g.watermark = (f.watermark.deliver f.journal).1 ∧
      g.pool = f.pool ∧ g.policy = f.policy := by
  unfold stepWatermark at moved
  split at moved
  · cases moved
  next some =>
    cases moved
    exact ⟨fun none => some (by simp [none]), rfl, rfl, rfl⟩

end Floor

end PacedLoad
