import PacedLoad.Proofs.Pool.Floor
import PacedLoad.Proofs.Watermark.Service

/-!
# What handlers tell the completion time service

A session is any sequence of moves around the pool: operations are announced and
submitted, tasks move, outcomes are taken, the pool is shut down, the worker takes
messages, and the published slot shows whatever it may.  All that the service is
told is written down, together with the handler that told it.  As long as every
announcement and every completion is accepted, a handler whose outcome is taken
has completed its start exactly if it was not cut short.
-/

namespace PacedLoad

open Handler Watermark

namespace Floor

variable {β : Type}

inductive Move (β : Type)
  /-- An operation is announced and then submitted to the pool. -/
  | enter (op : Operation) (writer : Nat) (work : Work β)
  | task (ticket : Nat) (now : Instant)
  | interruption (ticket : Nat)
  /-- The next outcome is taken. -/
  | take
  | shutdown
  /-- The worker of the completion time service takes a message. -/
  | worker
  /-- The published slot comes to show something else. -/
  | reading (slot : UInt64)

/-- Announces an operation and submits it, unless the announcement is refused. -/
def enter (f : Floor β) (op : Operation) (writer : Nat) (work : Work β) : Floor β :=
  match f.announce op writer with
  | (g, .ok ()) => (g.submit op writer work).1
  | (g, .error _) => g

/-- The floor with something else in the published slot. -/
def showing (f : Floor β) (slot : UInt64) : Floor β :=
  let core := f.watermark.core
  let state : Coordinator := { core.worker.state with slot }
  { f with watermark := { f.watermark with core := { core with worker := { core.worker with state } } } }

/-- The floor after a move; nothing when the move can not be made. -/
def make (f : Floor β) : Move β → Option (Floor β)
  | .enter op writer work => some (f.enter op writer work)
  | .task ticket now => f.stepTask ticket now
  | .interruption ticket => f.interrupt ticket
  | .take => f.pool.tryTake.map fun (_, pool) => { f with pool }
  | .shutdown => some { f with pool := f.pool.shutdownNow }
  | .worker => f.stepWatermark
  | .reading slot => some (f.showing slot)

def mover (f : Floor β) : Move β → Option Nat
  | .enter .. => if f.pool.shutDown then none else some f.pool.tasks.length
  | .task ticket _ => some ticket
  | _ => none

/-- Whether announcements and completions are accepted. -/
def accepting (f : Floor β) : Bool :=
  f.watermark.core.isOpen && !f.watermark.core.shuttingDown

/-- A session: all moves can be made, and each is made while announcements and completions are
accepted.  What the service was told comes with the last floor. -/
def session (f : Floor β) : List (Move β) → Option (List Sent × Floor β)
  | [] => some ([], f)
  | m :: rest =>
    if f.accepting then do
      let g ← f.make m
      let (later, last) ← g.session rest
      return ((f.heard g).map (⟨f.mover m, ·⟩) ++ later, last)
    else none

/-- Nothing is in the pool, nothing is queued, and no writer has anything outstanding. -/
structure Idle (f : Floor β) : Prop where
  tasks : f.pool.tasks = []
  queue : f.watermark.core.queue = []
  settled : ∀ writer ∈ f.watermark.core.worker.state.state.writers, writer.outstanding = []

def told (t : Task β) : List Watermark.Event :=
  .initiated t.writer t.operation.scheduledStart ::
    if t.phase.completed then [.completed t.writer t.operation.scheduledStart] else []

/-- An outcome that was reached while every completion was accepted. -/
def Straight (phase : Phase) : Prop :=
  phase.Sound ∧ ∀ outcome, phase = .finished outcome → completes outcome = !cutShort outcome

/-- As long as the worker runs, what was told is what it has processed and what is queued. -/
def Books (log : List Sent) (service : Watermark.Service) : Prop :=
  service.core.isOpen = true → ∃ processed queued,
    log.map Sent.event = processed ++ queued ∧ service.core.queue = queued.map .event ∧
      Balanced processed service.core.worker.state.state

structure Followed (log : List Sent) (ticket : Nat) (t : Task β) : Prop where
  straight : Straight t.phase
  ended : t.taken = true → t.phase.isFinished = true
  heard : eventsOf log (some ticket) = told t

structure Kept (log : List Sent) (f : Floor β) : Prop where
  task : ∀ (ticket : Nat) (t : Task β), f.pool.tasks[ticket]? = some t → Followed log ticket t
  absent : ∀ ticket, f.pool.tasks.length ≤ ticket → eventsOf log (some ticket) = []
  refused : ∀ w t, .completed w t ∉ eventsOf log none
  books : Books log f.watermark

theorem straight_next {op : Operation} {tolerated : Span} {phase : Phase} {e : Handler.Event}
    (straight : Straight phase) (accepted : ∀ r, e = .submission r → r = .ok ()) :
    Straight (phase.next op tolerated e) := by
  obtain ⟨sound, ended⟩ := straight
  refine ⟨Phase.sound_next sound e, ?_⟩
  intro outcome reached
  cases phase with
  | completing result =>
    cases e with
    | submission r =>
      cases accepted r rfl
      obtain rfl : result = outcome := Phase.finished.inj reached
      have complete : completes result = true := sound
      cases result with
      | ok _ => rfl
      | error e => cases e <;> first | rfl | cases complete
    | _ => cases reached
  | refused delay =>
    cases e with
    | submission r =>
      cases accepted r rfl
      cases reached
      rfl
    | _ => cases reached
  | finished result => cases e <;> exact ended outcome reached
  | started late start =>
    cases e with
    | body result =>
      cases result <;> cases reached
      rfl
    | _ => cases reached
  | _ =>
    cases e <;> simp only [Phase.next, Phase.due] at reached <;>
      (repeat' split at reached) <;> cases reached <;> rfl

theorem accepting_iff {f : Floor β} : f.accepting = true ↔
    f.watermark.core.isOpen = true ∧ f.watermark.core.shuttingDown = false := by
  simp [accepting]

/-- What a step of a task adds to what it has told. -/
theorem stepTask_told {f g : Floor β} {ticket : Nat} {now : Instant}
    (running : f.watermark.core.isOpen = true)
    (straight : ∀ (i : Nat) (t : Task β), f.pool.tasks[i]? = some t → Straight t.phase)
    (moved : f.stepTask ticket now = some g) :
    ∃ t after, f.pool.tasks[ticket]? = some t ∧ t.phase.isFinished = false ∧ Straight after ∧
      g.pool.tasks = f.pool.tasks.modify ticket (fun t => { t with phase := after }) ∧
      told { t with phase := after } = told t ++ f.heard g ∧
      g.watermark.core.worker = f.watermark.core.worker ∧
      g.watermark.core.queue = f.watermark.core.queue ++ (f.heard g).map .event := by
  obtain ⟨t, need, e, found, needs, answers, service, -, pool⟩ := stepTask_some moved
  have before := straight ticket t found
  have unfinished := Phase.isFinished_of_need needs
  have incomplete := Phase.completed_of_not_finished unfinished
  have tasks : g.pool.tasks = f.pool.tasks.modify ticket
      (fun u => { u with phase := t.phase.next t.operation f.policy.tolerated e }) := by
    rw [pool, Pool.tasks_move]
  by_cases submits : need = .submission
  · subst submits
    obtain ⟨core, accepted⟩ := serviceAfter_open t running
    have answered : e = .submission (.ok ()) := by rw [← accepted]; exact answers
    subst answered
    rw [service]
    have sent : f.heard g = [.completed t.writer t.operation.scheduledStart] :=
      heard_event (by rw [service, core])
    have complete : (t.phase.next t.operation f.policy.tolerated
        (.submission (.ok ()))).completed = true := Phase.completed_accepted before.1 needs
    refine ⟨t, _, found, unfinished, straight_next before (fun r same => ?_), tasks, ?_, ?_, ?_⟩
    · cases same
      rfl
    · rw [told, told, sent, incomplete]
      simp [complete]
    · rw [core]
    · rw [core, sent]
      rfl
  · rw [serviceAfter_of_ne submits] at service
    have silent : f.heard g = [] := heard_same (by rw [service])
    have still : (t.phase.next t.operation f.policy.tolerated e).completed = false :=
      Phase.completed_next needs submits e
    refine ⟨t, _, found, unfinished, straight_next before (fun r same => ?_), tasks, ?_, ?_, ?_⟩
    · subst same
      cases need <;> simp [Answers, Task.Answers] at answers
      exact absurd rfl submits
    · simp [told, silent, incomplete, still]
    · rw [service]
    · rw [service, silent]
      simp

theorem kept_idle {f : Floor β} (idle : Idle f) : Kept [] f where
  task := by simp [idle.tasks]
  absent := fun _ _ => rfl
  refused := by simp [eventsOf]
  books := by
    refine fun _ => ⟨[], [], rfl, idle.queue, fun w writer found t => ?_⟩
    rw [idle.settled writer (List.mem_of_getElem? found)]
    rfl

/-- What is sent is told and stands at the end of the queue. -/
theorem Books.sent {log : List Sent} {s after : Watermark.Service} (books : Books log s)
    (handler : Option Nat) (events : List Watermark.Event)
    (worker : after.core.worker = s.core.worker)
    (queue : after.core.queue = s.core.queue ++ events.map .event) :
    Books (log ++ events.map (⟨handler, ·⟩)) after := by
  intro running
  rw [Service.isOpen_iff, worker, ← Service.isOpen_iff] at running
  obtain ⟨processed, queued, all, waiting, balanced⟩ := books running
  refine ⟨processed, queued ++ events, ?_, ?_, ?_⟩
  · simp [all, Function.comp_def]
  · simp [queue, waiting]
  · rw [worker]
    exact balanced

/-- The worker moves events from what is queued to what is processed. -/
theorem Books.delivered {log : List Sent} {s : Watermark.Service} (books : Books log s)
    (j : Journal) : Books log (s.deliver j).1 := by
  intro running
  change (s.core.deliver duty Instant.first j).1.isOpen = true at running
  change ∃ processed queued, _ ∧ (s.core.deliver duty Instant.first j).1.queue = _ ∧
    Balanced processed (s.core.deliver duty Instant.first j).1.worker.state.state
  cases before : s.core.isOpen with
  | false =>
    rw [Service.deliver_closed before] at running
    simp [before] at running
  | true =>
    obtain ⟨processed, queued, all, waiting, balanced⟩ := books before
    cases queued with
    | nil =>
      have same : s.core.deliver duty Instant.first j = (s.core, j) := by
        simp [Service.deliver, waiting]
      rw [same]
      exact ⟨processed, [], all, waiting, balanced⟩
    | cons e rest =>
      obtain ⟨worker, queue⟩ := Service.deliver_cons duty Instant.first j before waiting
      rw [Service.isOpen_iff, worker] at running
      rw [if_pos running] at queue
      refine ⟨processed ++ [e], rest, by simp [all], queue, ?_⟩
      rw [worker]
      exact balanced.apply (State.heed_event.mp (receive_running running))

/-- A move that tells nothing and leaves the tasks alone. -/
theorem Kept.frame {log : List Sent} {f g : Floor β} (kept : Kept log f)
    (tasks : g.pool.tasks = f.pool.tasks) (books : Books log g.watermark) : Kept log g where
  task := by rw [tasks]; exact kept.task
  absent := by rw [tasks]; exact kept.absent
  refused := kept.refused
  books := books

/-- A handler that others tell nothing about is followed as before. -/
theorem Followed.later {log : List Sent} {ticket : Nat} {t : Task β}
    (followed : Followed log ticket t) {handler : Option Nat} (other : handler ≠ some ticket)
    (events : List Watermark.Event) : Followed (log ++ events.map (⟨handler, ·⟩)) ticket t where
  straight := followed.straight
  ended := followed.ended
  heard := by rw [eventsOf_append, eventsOf_map, if_neg other, followed.heard, List.append_nil]

theorem Kept.stepTask {log : List Sent} {f g : Floor β} {ticket : Nat} {now : Instant}
    (kept : Kept log f) (running : f.watermark.core.isOpen = true)
    (moved : f.stepTask ticket now = some g) :
    Kept (log ++ (f.heard g).map (⟨some ticket, ·⟩)) g := by
  obtain ⟨t, after, found, unfinished, straight, tasks, added, worker, queue⟩ :=
    stepTask_told running (fun i t found => (kept.task i t found).straight) moved
  have before := kept.task ticket t found
  refine ⟨?_, ?_, ?_, kept.books.sent (some ticket) _ worker queue⟩
  · intro i u found'
    rw [tasks] at found'
    rcases getElem?_modify_some found' with ⟨rfl, t', found'', rfl⟩ | ⟨other, found''⟩
    · cases found.symm.trans found''
      refine ⟨straight, fun taken => ?_, ?_⟩
      · rw [before.ended taken] at unfinished
        cases unfinished
      · rw [eventsOf_append, eventsOf_map, if_pos rfl, before.heard, added]
    · exact (kept.task i u found'').later (by simpa using Ne.symm other) _
  · intro i beyond
    rw [tasks, List.length_modify] at beyond
    have inside := (List.getElem?_eq_some_iff.mp found).1
    rw [eventsOf_append, eventsOf_map, if_neg (by simp; omega), kept.absent i beyond]
    rfl
  · rw [eventsOf_append, eventsOf_map, if_neg (by simp), List.append_nil]
    exact kept.refused

theorem Kept.enter {log : List Sent} {f : Floor β} (kept : Kept log f)
    (accepting : f.accepting = true) (op : Operation) (writer : Nat) (work : Work β) :
    Kept (log ++ (f.heard (f.enter op writer work)).map (⟨f.mover (.enter op writer work), ·⟩))
      (f.enter op writer work) := by
  obtain ⟨running, up⟩ := accepting_iff.mp accepting
  obtain ⟨g, announced, pool, -, core⟩ := announce_open op writer running up
  have entered : f.enter op writer work = (g.submit op writer work).1 := by
    simp only [Floor.enter, announced]
  obtain ⟨service, tasks⟩ := submit_tasks g op writer work
  rw [← entered] at service tasks
  rw [pool] at tasks
  have sent : f.heard (f.enter op writer work) = [.initiated writer op.scheduledStart] :=
    heard_event (by rw [service, core])
  have books : Books (log ++ [Watermark.Event.initiated writer op.scheduledStart].map
      (⟨f.mover (.enter op writer work), ·⟩)) (f.enter op writer work).watermark :=
    kept.books.sent _ _ (by rw [service, core]) (by rw [service, core]; rfl)
  rw [sent]
  have initiatedOnly : ∀ w t, .completed w t ∉ eventsOf
      (log ++ [Watermark.Event.initiated writer op.scheduledStart].map
        (⟨f.mover (.enter op writer work), ·⟩)) none := by
    intro w t
    rw [eventsOf_append, eventsOf_map, List.mem_append, not_or]
    refine ⟨kept.refused w t, ?_⟩
    split <;> simp
  cases refused : f.pool.shutDown with
  | true =>
    rw [refused, if_pos rfl] at tasks
    refine ⟨fun i t found => ?_, fun i beyond => ?_, initiatedOnly, books⟩
    · rw [tasks] at found
      exact (kept.task i t found).later (by simp [mover, refused]) _
    · rw [tasks] at beyond
      rw [eventsOf_append, eventsOf_map, if_neg (by simp [mover, refused]), kept.absent i beyond]
      rfl
  | false =>
    rw [refused, if_neg (by simp)] at tasks
    have ticket : f.mover (.enter op writer work) = some f.pool.tasks.length := by
      simp [mover, refused]
    rw [ticket] at books initiatedOnly ⊢
    refine ⟨fun i t found => ?_, fun i beyond => ?_, initiatedOnly, books⟩
    · rw [tasks] at found
      rcases getElem?_concat_some found with before | ⟨rfl, rfl⟩
      · have inside := (List.getElem?_eq_some_iff.mp before).1
        exact (kept.task i t before).later (by simp; omega) _
      · refine ⟨⟨trivial, nofun⟩, nofun, ?_⟩
        rw [eventsOf_append, eventsOf_map, if_pos rfl, kept.absent _ le_rfl]
        rfl
    · rw [tasks, List.length_append, List.length_singleton] at beyond
      rw [eventsOf_append, eventsOf_map, if_neg (by simp; omega), kept.absent i (by omega)]
      rfl

theorem Kept.interrupt {log : List Sent} {f g : Floor β} {ticket : Nat} (kept : Kept log f)
    (moved : f.interrupt ticket = some g) : Kept log g ∧ g.watermark = f.watermark := by
  obtain ⟨pool, stopped, rfl⟩ := Option.map_eq_some_iff.mp moved
  obtain ⟨t, found, -, interruptible, rfl⟩ := Pool.interrupt_some stopped
  refine ⟨⟨fun i u found' => ?_, fun i beyond => ?_, kept.refused, kept.books⟩, rfl⟩
  · rcases getElem?_modify_some found' with ⟨rfl, t', found'', rfl⟩ | ⟨-, found''⟩
    · cases found.symm.trans found''
      have before := kept.task i t found
      refine ⟨⟨trivial, ?_⟩, fun _ => rfl, ?_⟩
      · intro outcome ended
        cases ended
        rfl
      · have incomplete : t.phase.completed = false := by
          revert interruptible
          cases t.phase <;> simp [Phase.interruptible, Phase.completed]
        rw [before.heard, told, told, incomplete]
        rfl
    · exact kept.task i u found''
  · rw [Pool.tasks_move, List.length_modify] at beyond
    exact kept.absent i beyond

theorem Kept.tryTake {log : List Sent} {f : Floor β} {outcome : Outcome} {pool : Pool β}
    (kept : Kept log f) (taken : f.pool.tryTake = some (outcome, pool)) :
    Kept log { f with pool } := by
  obtain ⟨ticket, t, -, found, ended, -, tasks⟩ := Pool.tryTake_some taken
  refine ⟨fun i u found' => ?_, fun i beyond => ?_, kept.refused, kept.books⟩
  · rw [tasks] at found'
    rcases getElem?_modify_some found' with ⟨rfl, t', found'', rfl⟩ | ⟨-, found''⟩
    · cases found.symm.trans found''
      have before := kept.task i t found
      exact ⟨before.straight, fun _ => by rw [ended]; rfl, before.heard⟩
    · exact kept.task i u found''
  · rw [tasks, List.length_modify] at beyond
    exact kept.absent i beyond

/-- What holds throughout a session is kept by every move. -/
theorem Kept.make {log : List Sent} {f g : Floor β} {m : Move β} (kept : Kept log f)
    (accepting : f.accepting = true) (moved : f.make m = some g) :
    Kept (log ++ (f.heard g).map (⟨f.mover m, ·⟩)) g := by
  have silent : ∀ {g : Floor β}, g.watermark.core.queue = f.watermark.core.queue →
      Kept log g → Kept (log ++ (f.heard g).map (⟨f.mover m, ·⟩)) g := by
    intro g same after
    rw [heard_same same]
    simpa using after
  cases m with
  | enter op writer work =>
    cases moved
    exact kept.enter accepting op writer work
  | task ticket now => exact kept.stepTask (accepting_iff.mp accepting).1 moved
  | interruption ticket =>
    obtain ⟨after, same⟩ := kept.interrupt moved
    exact silent (by rw [same]) after
  | take =>
    obtain ⟨⟨outcome, pool⟩, taken, rfl⟩ := Option.map_eq_some_iff.mp moved
    exact silent rfl (kept.tryTake taken)
  | shutdown =>
    cases moved
    exact silent rfl (kept.frame rfl kept.books)
  | worker =>
    obtain ⟨-, service, pool, -⟩ := stepWatermark_some moved
    have shorter := Service.deliver_shorter duty Instant.first f.watermark.core f.journal
    rw [heard_shorter (by rw [service]; exact shorter)]
    have after : Kept log g := kept.frame (by rw [pool]) (by
      rw [service]
      exact kept.books.delivered f.journal)
    simpa using after
  | reading slot =>
    cases moved
    exact silent rfl (kept.frame rfl kept.books)

theorem Kept.session {log later : List Sent} {f g : Floor β} {moves : List (Move β)}
    (kept : Kept log f) (ran : f.session moves = some (later, g)) : Kept (log ++ later) g := by
  induction moves generalizing log later f with
  | nil =>
    cases ran
    simpa using kept
  | cons m rest ih =>
    simp only [Floor.session] at ran
    split at ran
    next accepting =>
      obtain ⟨h, moved, ran⟩ := Option.bind_eq_some_iff.mp ran
      obtain ⟨⟨told, last⟩, went, same⟩ := Option.bind_eq_some_iff.mp ran
      cases same
      simpa using ih (kept.make accepting moved) went
    next => cases ran

/-- A task has initiated more than it has completed exactly as long as it has not completed its
own start. -/
theorem count_told (t : Task β) (w : Nat) (start : Instant) :
    (told t).count (.completed w start) ≤ (told t).count (.initiated w start) ∧
      ((told t).count (.completed w start) < (told t).count (.initiated w start) ↔
        t.writer = w ∧ t.operation.scheduledStart = start ∧ t.phase.completed = false) := by
  by_cases mine : t.writer = w ∧ t.operation.scheduledStart = start
  · obtain ⟨rfl, rfl⟩ := mine
    cases complete : t.phase.completed <;> simp [told, complete]
  · have other : ¬ (t.writer = w ∧ t.operation.scheduledStart = start ∧ t.phase.completed = false) :=
      fun all => mine ⟨all.1, all.2.1⟩
    cases complete : t.phase.completed <;> simp_all [told]

/-- What is left outstanding once everything that was told has been processed. -/
theorem Kept.outstanding_iff {log : List Sent} {f : Floor β} (kept : Kept log f)
    (running : f.watermark.core.isOpen = true) (empty : f.watermark.core.queue = [])
    {w : Nat} {writer : Writer}
    (found : f.watermark.core.worker.state.state.writers[w]? = some writer) (start : Instant) :
    start ∈ writer.outstanding ↔
      .initiated w start ∈ eventsOf log none ∨
        ∃ t ∈ f.pool.tasks, t.writer = w ∧ t.operation.scheduledStart = start ∧
          t.phase.completed = false := by
  obtain ⟨processed, queued, all, waiting, balanced⟩ := kept.books running
  have nothing : queued = [] := by simpa [empty] using waiting
  rw [nothing, List.append_nil] at all
  have balance := balanced w writer found start
  have never := List.count_eq_zero.mpr (kept.refused w start)
  have each : ∀ handler, (eventsOf log handler).count (.completed w start) ≤
      (eventsOf log handler).count (.initiated w start) := by
    intro handler
    cases handler with
    | none => omega
    | some ticket =>
      cases here : f.pool.tasks[ticket]? with
      | none => rw [kept.absent ticket (List.getElem?_eq_none_iff.mp here)]; rfl
      | some t =>
        rw [(kept.task ticket t here).heard]
        exact (count_told t w start).1
  obtain ⟨-, less⟩ := count_lt_iff log each
  rw [all] at less
  have left : start ∈ writer.outstanding ↔
      processed.count (.completed w start) < processed.count (.initiated w start) := by
    rw [← List.count_pos_iff]
    omega
  rw [left, less]
  constructor
  · rintro ⟨handler, more⟩
    cases handler with
    | none => exact .inl (List.count_pos_iff.mp (by omega))
    | some ticket =>
      cases here : f.pool.tasks[ticket]? with
      | none =>
        rw [kept.absent ticket (List.getElem?_eq_none_iff.mp here)] at more
        exact absurd more (by simp)
      | some t =>
        rw [(kept.task ticket t here).heard, (count_told t w start).2] at more
        exact .inr ⟨t, List.mem_of_getElem? here, more⟩
  · rintro (refused | ⟨t, member, mine⟩)
    · exact ⟨none, by rw [never]; exact List.count_pos_iff.mpr refused⟩
    · obtain ⟨ticket, here⟩ := List.getElem?_of_mem member
      refine ⟨some ticket, ?_⟩
      rw [(kept.task ticket t here).heard, (count_told t w start).2]
      exact mine

/-- Every handler whose outcome was taken is finished. -/
theorem Kept.finished_of_idle {log : List Sent} {f : Floor β} (kept : Kept log f)
    (idle : f.pool.inFlight = 0) {t : Task β} (member : t ∈ f.pool.tasks) :
    ∃ outcome, t.phase = .finished outcome ∧ t.phase.completed = !cutShort outcome := by
  obtain ⟨ticket, here⟩ := List.getElem?_of_mem member
  have followed := kept.task ticket t here
  have taken : t.taken = true := by
    simpa using List.countP_eq_zero.mp idle t member
  have finished := followed.ended taken
  cases phase : t.phase with
  | finished outcome => exact ⟨outcome, rfl, followed.straight.2 outcome phase⟩
  | _ => simp [phase, Phase.isFinished] at finished

/-- What a session has told the service when it ends at a floor. -/
structure Accounted (log : List Sent) (g : Floor β) : Prop where
  /-- A handler whose outcome is taken has told its start once, and its completion once
  afterwards exactly if it was not cut short. -/
  taken : ∀ outcome pool, g.pool.tryTake = some (outcome, pool) →
    ∃ (ticket : Nat) (t : Task β), g.pool.tasks[ticket]? = some t ∧
      t.phase = .finished outcome ∧ pool.tasks[ticket]? = some { t with taken := true } ∧
      eventsOf log (some ticket) = .initiated t.writer t.operation.scheduledStart ::
        if cutShort outcome then [] else [.completed t.writer t.operation.scheduledStart]
  /-- When nothing is in flight and all is processed, writers are left with exactly the starts of
  handlers that were cut short and of operations that the pool refused. -/
  left : g.pool.inFlight = 0 → g.watermark.core.isOpen = true → g.watermark.core.queue = [] →
    ∀ (w : Nat) (writer : Writer),
      g.watermark.core.worker.state.state.writers[w]? = some writer → ∀ start,
        start ∈ writer.outstanding ↔
          .initiated w start ∈ eventsOf log none ∨
            ∃ t ∈ g.pool.tasks, t.writer = w ∧ t.operation.scheduledStart = start ∧
              ∃ outcome, t.phase = .finished outcome ∧ cutShort outcome = true

/-- As long as everything is accepted, only handlers that are interrupted or whose bodies break
off leave their starts open. -/
theorem session_accounted {f g : Floor β} {moves : List (Move β)} {log : List Sent}
    (idle : Idle f) (ran : f.session moves = some (log, g)) : Accounted log g := by
  have kept : Kept log g := by simpa using (kept_idle idle).session ran
  constructor
  · intro outcome pool taken
    obtain ⟨ticket, t, -, found, ended, -, tasks⟩ := Pool.tryTake_some taken
    have followed := kept.task ticket t found
    refine ⟨ticket, t, found, ended, by simp [tasks, found], ?_⟩
    rw [followed.heard, told, ended]
    simp only [Phase.completed, followed.straight.2 outcome ended]
    cases cutShort outcome <;> rfl
  · intro none running empty w writer found start
    rw [kept.outstanding_iff running empty found start]
    refine or_congr_right (exists_congr fun t => and_congr_right fun member => ?_)
    obtain ⟨outcome, ended, complete⟩ := kept.finished_of_idle none member
    rw [complete]
    simp [ended]

/-- A floor on which nothing has happened but that some writers were registered. -/
def opened (size writers : Nat) (policy : DelayPolicy) (shared : β) : Floor β where
  watermark := {
    core := .start (Coordinator.publish ⟨List.replicate writers Writer.fresh, []⟩)
    patience := .standard
    writers := [] }
  journal := .empty
  policy := policy
  pool := .start size
  shared := shared

theorem idle_opened (size writers : Nat) (policy : DelayPolicy) (shared : β) :
    Idle (opened size writers policy shared) where
  tasks := rfl
  queue := rfl
  settled := fun _ member => List.eq_of_mem_replicate member ▸ rfl

/-- One operation with a body of a known end, from its announcement to its outcome, which its
handler reaches in some number of steps. -/
def solo (steps : Nat) (r : BodyResult) : List (Move Unit) :=
  let op : Operation := ⟨7, "read", ⟨10, by decide⟩, none, .null⟩
  .enter op 0 (fun _ _ => some ((), r)) :: .worker ::
    List.replicate steps (.task 0 ⟨10, by decide⟩)

theorem session_accounted_solo : ∃ log g,
    Idle (opened 1 1 (.permissive .zero) ()) ∧
      (opened 1 1 (.permissive .zero) ()).session (solo 6 (.returned (.ok ⟨0, .null⟩)) ++ [.worker]) =
        some (log, g) ∧ Accounted log g := by
  have idle : Idle (opened 1 1 (.permissive .zero) ()) := idle_opened ..
  obtain ⟨log, g, ran⟩ : ∃ log g, (opened 1 1 (.permissive .zero) ()).session
      (solo 6 (.returned (.ok ⟨0, .null⟩)) ++ [.worker]) = some (log, g) := ⟨_, _, rfl⟩
  exact ⟨log, g, idle, ran, session_accounted idle ran⟩

/-- A body that breaks off leaves its start open for good: the outcome is taken, nothing is in
flight and nothing queued, and the start is still outstanding. -/
theorem session_panicked : ∃ log g pool start,
    (opened 1 1 (.permissive .zero) ()).session (solo 4 (.panicked "boom")) = some (log, g) ∧
      g.pool.tryTake = some (.error (.panicked 7 "boom"), pool) ∧
      eventsOf log (some 0) = [.initiated 0 start] ∧
      pool.inFlight = 0 ∧ g.watermark.core.queue = [] ∧
      g.watermark.core.worker.state.state.writers = [⟨[start], some start⟩] :=
  ⟨_, _, _, ⟨10, by decide⟩, rfl, rfl, rfl, rfl, rfl, rfl⟩

end Floor

end PacedLoad
