import PacedLoad.Pool.Executor
import PacedLoad.Proofs.Pool.Slots

/-!
# Sessions with an executor

A session is any sequence of calls to an executor, of steps of its tasks, and of
changes in what surrounds it.  The notes of the executor are right about every
task in flight, so that each accepted operation comes out once and under its own
number.
-/

namespace PacedLoad

open Handler

variable {β : Type}

namespace Handler

/-- What a handler may come to by itself, as long as it is not interrupted. -/
inductive Phase.Reached (op : Operation) (tolerated : Span) : Phase → Prop
  | start : Reached op tolerated .waiting
  | next {phase : Phase} (e : Event) (before : Reached op tolerated phase) :
      Reached op tolerated (phase.next op tolerated e)

end Handler

namespace Roster

/-- The notes about tasks: each task in flight has an id of its own, and its operation stands under
that id. -/
structure Mirrors (r : Roster) (tasks : List (Task β)) : Prop where
  length : r.ids.length = tasks.length
  noted : ∀ (k : Nat) (t : Task β) (id : Nat), tasks[k]? = some t → t.taken = false →
    r.ids[k]? = some id → r.operation? id = some t.operation.id
  distinct : ∀ (k l : Nat) (t u : Task β) (id : Nat), tasks[k]? = some t → tasks[l]? = some u →
    t.taken = false → u.taken = false → r.ids[k]? = some id → r.ids[l]? = some id → k = l

theorem mirrors_start : empty.Mirrors ([] : List (Task β)) where
  length := rfl
  noted _ _ _ found := by simp at found
  distinct _ _ _ _ _ found := by simp at found

theorem operation?_leave (r : Roster) {id other : Nat} (different : other ≠ id) :
    (r.leave id).operation? other = r.operation? other := by
  unfold operation? leave
  induction r.operations with
  | nil => rfl
  | cons entry rest ih =>
    by_cases here : entry.1 = id
    · have elsewhere : (other == entry.1) = false := by simp [here, different]
      rw [List.filter_cons_of_neg (by simp [here]), ih, List.lookup_cons, elsewhere]
    · rw [List.filter_cons_of_pos (by simp [here]), List.lookup_cons, List.lookup_cons, ih]

theorem operation?_enter (r : Roster) (id operation other : Nat) :
    (r.enter id operation).operation? other =
      if other = id then some operation else r.operation? other := by
  by_cases same : other = id
  · subst same
    simp [operation?, enter]
  · have elsewhere : (other == id) = false := by simp [same]
    rw [if_neg same, ← operation?_leave r same]
    simp [operation?, enter, List.lookup_cons, elsewhere]

variable {r : Roster} {tasks : List (Task β)}

/-- A new task under an id that no task in flight has. -/
theorem Mirrors.enter (mirrors : r.Mirrors tasks) {id : Nat} {t : Task β} (waiting : t.taken = false)
    (fresh : ∀ (k : Nat) (u : Task β), tasks[k]? = some u → u.taken = false → r.ids[k]? ≠ some id) :
    (r.enter id t.operation.id).Mirrors (tasks ++ [t]) := by
  have place : ∀ {k : Nat} {u : Task β} {other : Nat}, (tasks ++ [t])[k]? = some u →
      (r.ids ++ [id])[k]? = some other →
      (tasks[k]? = some u ∧ r.ids[k]? = some other) ∨ (k = tasks.length ∧ u = t ∧ other = id) := by
    intro k u other here named
    rcases getElem?_concat_some here with before | ⟨rfl, rfl⟩
    · have inside := (List.getElem?_eq_some_iff.mp before).1
      rw [List.getElem?_append_left (by rw [mirrors.length]; exact inside)] at named
      exact .inl ⟨before, named⟩
    · rw [← mirrors.length] at named
      simp only [List.getElem?_concat_length, Option.some.injEq] at named
      exact .inr ⟨rfl, rfl, named.symm⟩
  refine ⟨by simp [Roster.enter, mirrors.length], fun k u other here untaken named => ?_,
    fun k l u v other here there untaken untaken' named named' => ?_⟩
  · rw [operation?_enter]
    rcases place here named with ⟨before, listed⟩ | ⟨-, rfl, rfl⟩
    · have different : other ≠ id := fun same => fresh k u before untaken (same ▸ listed)
      rw [if_neg different]
      exact mirrors.noted k u other before untaken listed
    · rw [if_pos rfl]
  · rcases place here named with ⟨before, listed⟩ | ⟨last, -, rfl⟩ <;>
      rcases place there named' with ⟨before', listed'⟩ | ⟨last', -, same⟩
    · exact mirrors.distinct k l u v other before before' untaken untaken' listed listed'
    · exact absurd (same ▸ listed) (fresh k u before untaken)
    · exact absurd listed' (fresh l v before' untaken')
    · exact last.trans last'.symm

/-- Notes do not depend on the phases of tasks. -/
theorem Mirrors.move (mirrors : r.Mirrors tasks) (k : Nat) (after : Phase) :
    r.Mirrors (tasks.modify k fun t => { t with phase := after }) := by
  have same : ∀ {i : Nat} {t : Task β},
      (tasks.modify k fun t => { t with phase := after })[i]? = some t →
      ∃ u, tasks[i]? = some u ∧ u.taken = t.taken ∧ u.operation = t.operation := by
    intro i t here
    rcases getElem?_modify_some here with ⟨-, u, before, rfl⟩ | ⟨-, before⟩
    · exact ⟨u, before, rfl, rfl⟩
    · exact ⟨t, before, rfl, rfl⟩
  refine ⟨by rw [mirrors.length, List.length_modify], fun i t id here untaken named => ?_,
    fun i l t u id here there untaken untaken' named named' => ?_⟩
  · obtain ⟨v, before, taken, operation⟩ := same here
    rw [← operation]
    exact mirrors.noted i v id before (taken.trans untaken) named
  · obtain ⟨v, before, taken, -⟩ := same here
    obtain ⟨w, before', taken', -⟩ := same there
    exact mirrors.distinct i l v w id before before' (taken.trans untaken) (taken'.trans untaken')
      named named'

/-- A task that is taken is forgotten, and no other. -/
theorem Mirrors.leave (mirrors : r.Mirrors tasks) {k id : Nat} {t : Task β}
    (found : tasks[k]? = some t) (untaken : t.taken = false) (named : r.ids[k]? = some id) :
    (r.leave id).Mirrors (tasks.modify k fun t => { t with taken := true }) := by
  have same : ∀ {i : Nat} {u : Task β},
      (tasks.modify k fun t => { t with taken := true })[i]? = some u → u.taken = false →
      i ≠ k ∧ tasks[i]? = some u := by
    intro i u here untaken
    rcases getElem?_modify_some here with ⟨-, v, -, rfl⟩ | ⟨other, before⟩
    · cases untaken
    · exact ⟨other, before⟩
  refine ⟨by rw [List.length_modify]; exact mirrors.length,
    fun i u other here untaken' named' => ?_,
    fun i l u v other here there untaken' untaken'' named' named'' => ?_⟩
  · obtain ⟨elsewhere, before⟩ := same here untaken'
    have different : other ≠ id := by
      rintro rfl
      exact elsewhere (mirrors.distinct i k u t other before found untaken' untaken named' named)
    rw [operation?_leave r different]
    exact mirrors.noted i u other before untaken' named'
  · exact mirrors.distinct i l u v other (same here untaken').2 (same there untaken'').2 untaken'
      untaken'' named' named''

end Roster

/-- What the runtime says of the end of a task, and what is noted about the task, give back the
outcome. -/
theorem Roster.finish_of {r : Roster} {op : Operation} {outcome : Outcome} {id : Nat}
    (noted : r.operation? id = some op.id) (concerns : Concerns op outcome) (cancelled : Bool) :
    r.finish id (.of cancelled outcome) = (r.leave id, outcome) := by
  cases outcome with
  | ok result => rfl
  | error e =>
    cases e with
    | panicked id' message =>
      obtain rfl : id' = op.id := Option.some.inj concerns
      simp [Joined.of, finish, noted]
    | interrupted id' =>
      obtain rfl : id' = op.id := Option.some.inj concerns
      cases cancelled <;> simp [Joined.of, finish, noted]
    | _ => rfl

namespace Executor

/-- An outcome comes out as the pool has it. -/
theorem tryTake_some {e : Executor β} {outcome : Outcome} {q : Pool β}
    (honest : e.floor.pool.Honest) (mirrors : e.roster.Mirrors e.floor.pool.tasks)
    (success : e.floor.pool.tryTake = some (outcome, q)) (cancelled : Bool) :
    ∃ roster, e.tryTake cancelled = some (outcome, ⟨{ e.floor with pool := q }, roster⟩) ∧
      roster.Mirrors q.tasks := by
  obtain ⟨ticket, t, -, done, found, ended, tasks⟩ := Pool.tryTake_first success
  obtain ⟨u, found', -, untaken⟩ := honest.ready ticket (by rw [done]; exact List.mem_cons_self)
  cases found.symm.trans found'
  have concerns := honest.faithful ticket t found
  rw [ended] at concerns
  have inside : ticket < e.roster.ids.length := by
    rw [mirrors.length]
    exact (List.getElem?_eq_some_iff.mp found).1
  have named := List.getElem?_eq_getElem inside
  have noted := mirrors.noted ticket t _ found untaken named
  refine ⟨e.roster.leave e.roster.ids[ticket], ?_, tasks ▸ mirrors.leave found untaken named⟩
  simp [tryTake, done, success, List.getD, named, Roster.finish_of noted concerns]

inductive Move (β : Type)
  /-- An operation is submitted; `id` is what the runtime would call its task. -/
  | submit (op : Operation) (writer : Nat) (work : Work β) (id : Nat)
  /-- Somebody waits for the next outcome. -/
  | take (cancelled : Bool)
  | tryTake (cancelled : Bool)
  | shutdownNow
  /-- A task makes a step while the clock shows `now`. -/
  | step (ticket : Nat) (now : Instant)
  | interruption (ticket : Nat)
  /-- The completion time service, the journal or the shared state change by any other cause. -/
  | elsewhere (watermark : Watermark.Service) (journal : Journal) (shared : β)

/-- Whether a move is one of the tasks, or takes an outcome. -/
def Move.windsUp : Move β → Bool
  | .step .. | .interruption _ | .take _ => true
  | _ => false

def uses (e : Executor β) (id : Nat) : Bool :=
  (e.roster.ids.zip e.floor.pool.tasks).any fun (i, t) => i == id && !t.taken

/-- An executor with all that it accepted and returned, in that order.  An outcome is returned with
the number of the task that it came from. -/
structure Visit (β : Type) where
  executor : Executor β
  accepted : List Operation
  returned : List (Nat × Outcome)

namespace Visit

def start (floor : Floor β) (size : Nat) : Visit β :=
  ⟨⟨{ floor with pool := Pool.start size }, .empty⟩, [], []⟩

/-- The next outcome is returned, if there is one. -/
def receive (v : Visit β) (cancelled : Bool) : Visit β :=
  match v.executor.floor.pool.done, v.executor.tryTake cancelled with
  | ticket :: _, some (outcome, executor) =>
    { v with executor, returned := v.returned ++ [(ticket, outcome)] }
  | _, _ => v

/-- A move; nothing if it can not be made.  The runtime gives no id to two tasks in flight, and a
wait goes on as long as something is in flight and nothing has ended. -/
def make (v : Visit β) : Move β → Option (Visit β)
  | .submit op writer work id =>
    if v.executor.uses id then none
    else
      match v.executor.submit op writer work id with
      | (executor, .ok ()) => some { v with executor, accepted := v.accepted ++ [op] }
      | (executor, .error _) => some { v with executor }
  | .take cancelled =>
    if v.executor.floor.pool.done = [] ∧ v.executor.inFlight ≠ 0 then none
    else some (v.receive cancelled)
  | .tryTake cancelled => some (v.receive cancelled)
  | .shutdownNow => some { v with executor := v.executor.shutdownNow }
  | .step ticket now =>
    (v.executor.floor.stepTask ticket now).map fun floor =>
      { v with executor := { v.executor with floor } }
  | .interruption ticket =>
    (v.executor.floor.interrupt ticket).map fun floor =>
      { v with executor := { v.executor with floor } }
  | .elsewhere watermark journal shared =>
    some { v with executor :=
      { v.executor with floor := { v.executor.floor with watermark, journal, shared } } }

def moves (v : Visit β) (ms : List (Move β)) : Option (Visit β) := ms.foldlM make v

/-- A task carries an operation, and has come where its handler came by itself, unless it was
interrupted. -/
def Lives (tolerated : Span) (t : Task β) : Prop :=
  t.phase.Reached t.operation tolerated ∨
    t.phase = .finished (.error (.interrupted t.operation.id))

structure Kept (size : Nat) (tolerated : Span) (v : Visit β) : Prop where
  honest : v.executor.floor.pool.Honest
  taken : v.executor.floor.pool.Taken v.returned
  slotted : v.executor.floor.pool.Slotted size
  mirrors : v.executor.roster.Mirrors v.executor.floor.pool.tasks
  accepted : v.executor.floor.pool.tasks.map (·.operation) = v.accepted
  count : v.executor.inFlight + v.returned.length = v.accepted.length
  policy : v.executor.floor.policy.tolerated = tolerated
  lives : ∀ t ∈ v.executor.floor.pool.tasks, Lives tolerated t

theorem kept_start (floor : Floor β) (size : Nat) :
    (start floor size).Kept size floor.policy.tolerated where
  honest := Pool.honest_start size
  taken := Pool.taken_start size
  slotted := Pool.slotted_start size
  mirrors := Roster.mirrors_start
  accepted := rfl
  count := rfl
  policy := rfl
  lives := nofun

variable {size : Nat} {tolerated : Span} {v w : Visit β}

/-- The operation is accepted, or the executor was shut down. -/
theorem submit_cases (e : Executor β) (op : Operation) (writer : Nat) (work : Work β) (id : Nat) :
    (∃ pool, e.floor.pool.submit op writer work = .ok pool ∧ e.submit op writer work id =
        (⟨{ e.floor with pool }, e.roster.enter id op.id⟩, .ok ())) ∨
      (e.floor.pool.shutDown = true ∧ e.submit op writer work id = (e, .error .shutDown)) := by
  unfold submit Floor.submit Pool.submit
  cases e.floor.pool.shutDown with
  | true => exact .inr ⟨rfl, rfl⟩
  | false => exact .inl ⟨_, rfl, rfl⟩

/-- An id that is not used is fresh. -/
theorem fresh_of_uses {e : Executor β} {id : Nat} (unused : e.uses id = false) (k : Nat) (t : Task β)
    (found : e.floor.pool.tasks[k]? = some t) (untaken : t.taken = false) :
    e.roster.ids[k]? ≠ some id := by
  intro named
  have pair : (e.roster.ids.zip e.floor.pool.tasks)[k]? = some (id, t) := by
    simp [List.getElem?_zip_eq_some, named, found]
  have free := List.any_eq_false.mp unused _ (List.mem_of_getElem? pair)
  simp [untaken] at free

theorem Kept.submit (kept : v.Kept size tolerated) {op : Operation} {writer : Nat} {work : Work β}
    {id : Nat} (moved : v.make (.submit op writer work id) = some w) : w.Kept size tolerated := by
  simp only [make] at moved
  split at moved
  · cases moved
  next unused =>
    rcases submit_cases v.executor op writer work id with
      ⟨pool, success, submitted⟩ | ⟨-, submitted⟩ <;> rw [submitted] at moved <;> cases moved
    · obtain ⟨-, -, tasks⟩ := Pool.submit_ok success
      have fresh := fresh_of_uses (by simpa using unused)
      refine ⟨kept.honest.submit success, kept.taken.submit success, kept.slotted.submit success,
        ?_, ?_, ?_, kept.policy, ?_⟩
      · dsimp only
        rw [tasks]
        exact kept.mirrors.enter (t := ⟨op, writer, work, .waiting, false⟩) rfl fresh
      · simp [tasks, kept.accepted]
      · have more := Pool.inFlight_submit success
        have count := kept.count
        simp only [inFlight, List.length_append, List.length_singleton] at count ⊢
        omega
      · dsimp only
        rw [tasks]
        intro t member
        rcases List.mem_append.mp member with before | new
        · exact kept.lives t before
        · cases List.mem_singleton.mp new
          exact .inl .start
    · exact kept

/-- A task goes on to another phase. -/
theorem Kept.move (kept : v.Kept size tolerated) {k : Nat} {t : Task β} {after : Phase}
    {floor : Floor β} (found : v.executor.floor.pool.tasks[k]? = some t)
    (unfinished : t.phase.isFinished = false) (faithful : after.Faithful t.operation)
    (room : Pool.slotsOf after ≤ v.executor.floor.pool.free + Pool.slotsOf t.phase)
    (lives : Lives tolerated { t with phase := after })
    (policy : floor.policy = v.executor.floor.policy)
    (pool : floor.pool = v.executor.floor.pool.move k t.phase after) :
    Kept size tolerated { v with executor := { v.executor with floor } } := by
  obtain ⟨watermark, journal, policy', pool', shared⟩ := floor
  dsimp only at policy pool
  subst policy pool
  refine ⟨kept.honest.move found unfinished faithful, kept.taken.move found unfinished,
    kept.slotted.move found room, kept.mirrors.move k after, ?_, ?_, kept.policy, ?_⟩
  · rw [← kept.accepted]
    exact Pool.map_move (fun _ _ => rfl) _ _ _ _
  · rw [← kept.count]
    exact congrArg (· + v.returned.length) (Pool.inFlight_move found after)
  · intro u member
    obtain ⟨i, here⟩ := List.getElem?_of_mem member
    rcases getElem?_modify_some here with ⟨rfl, u', before, rfl⟩ | ⟨-, before⟩
    · cases found.symm.trans before
      exact lives
    · exact kept.lives u (List.mem_of_getElem? before)

theorem Kept.step (kept : v.Kept size tolerated) {ticket : Nat} {now : Instant}
    (moved : v.make (.step ticket now) = some w) : w.Kept size tolerated := by
  obtain ⟨floor, stepped, same⟩ := Option.map_eq_some_iff.mp moved
  subst same
  obtain ⟨t, e, found, unfinished, policy, pool, room⟩ := Floor.stepTask_room stepped
  rw [kept.policy] at pool room
  refine kept.move found unfinished (Phase.faithful_next (kept.honest.faithful ticket t found) e)
    room (.inl ?_) policy pool
  rcases kept.lives t (List.mem_of_getElem? found) with reached | interrupted
  · exact reached.next e
  · rw [interrupted] at unfinished
    cases unfinished

theorem Kept.interruption (kept : v.Kept size tolerated) {ticket : Nat}
    (moved : v.make (.interruption ticket) = some w) : w.Kept size tolerated := by
  obtain ⟨floor, broken, same⟩ := Option.map_eq_some_iff.mp moved
  subst same
  obtain ⟨pool, interrupted, same⟩ := Option.map_eq_some_iff.mp broken
  subst same
  obtain ⟨t, found, -, interruptible, rfl⟩ := Pool.interrupt_some interrupted
  have faithful : (Phase.finished (.error (.interrupted t.operation.id))).Faithful t.operation := rfl
  exact kept.move found (Phase.isFinished_of_interruptible interruptible) faithful
    (Nat.zero_le _) (.inr rfl) rfl rfl

/-- What is returned is the outcome that the pool hands out. -/
theorem receive_some {outcome : Outcome} {q : Pool β} (kept : v.Kept size tolerated)
    (success : v.executor.floor.pool.tryTake = some (outcome, q)) (cancelled : Bool) :
    ∃ ticket roster, v.executor.floor.pool.first? = some (ticket, outcome) ∧
      v.receive cancelled =
        { v with
          executor := ⟨{ v.executor.floor with pool := q }, roster⟩
          returned := v.returned ++ [(ticket, outcome)] } ∧
      roster.Mirrors q.tasks := by
  obtain ⟨roster, taken, mirrors⟩ :=
    Executor.tryTake_some kept.honest kept.mirrors success cancelled
  obtain ⟨ticket, t, first, done, -⟩ := Pool.tryTake_first success
  exact ⟨ticket, roster, first, by simp [receive, done, taken], mirrors⟩

/-- A pool without outcomes hands out none. -/
theorem receive_none (v : Visit β) (none : v.executor.floor.pool.tryTake = none)
    (cancelled : Bool) : v.receive cancelled = v := by
  have nothing : v.executor.tryTake cancelled = Option.none := by
    unfold Executor.tryTake
    rw [none]
    cases v.executor.floor.pool.done <;> rfl
  unfold receive
  rw [nothing]
  cases v.executor.floor.pool.done <;> rfl

theorem Kept.receive (kept : v.Kept size tolerated) (cancelled : Bool) :
    (v.receive cancelled).Kept size tolerated := by
  cases success : v.executor.floor.pool.tryTake with
  | none =>
    rw [receive_none v success]
    exact kept
  | some given =>
    obtain ⟨outcome, q⟩ := given
    obtain ⟨ticket, roster, first, received, mirrors⟩ := receive_some kept success cancelled
    obtain ⟨ticket', t, -, -, found, -, tasks⟩ := Pool.tryTake_first success
    rw [received]
    refine ⟨kept.honest.take success, kept.taken.take kept.honest first success,
      kept.slotted.take success, mirrors, ?_, ?_, kept.policy, ?_⟩
    · rw [← kept.accepted]
      dsimp only
      rw [tasks]
      exact map_modify_same (g := fun t : Task β => { t with taken := true }) (fun _ => rfl) _ _
    · have fewer := kept.honest.inFlight_take success
      have count := kept.count
      simp only [inFlight, List.length_append, List.length_singleton] at count ⊢
      omega
    · dsimp only
      rw [tasks]
      intro u member
      obtain ⟨i, here⟩ := List.getElem?_of_mem member
      rcases getElem?_modify_some here with ⟨-, u', before, rfl⟩ | ⟨-, before⟩
      · exact kept.lives u' (List.mem_of_getElem? before)
      · exact kept.lives u (List.mem_of_getElem? before)

theorem Kept.make (kept : v.Kept size tolerated) {m : Move β} (moved : v.make m = some w) :
    w.Kept size tolerated := by
  cases m with
  | submit op writer work id => exact kept.submit moved
  | step ticket now => exact kept.step moved
  | interruption ticket => exact kept.interruption moved
  | take cancelled =>
    simp only [Visit.make] at moved
    split at moved
    · cases moved
    · cases moved
      exact kept.receive cancelled
  | tryTake cancelled =>
    cases moved
    exact kept.receive cancelled
  | shutdownNow =>
    cases moved
    exact ⟨⟨kept.honest.once, kept.honest.ready, kept.honest.listed, kept.honest.faithful,
      kept.honest.ended⟩, ⟨kept.taken.once, kept.taken.ended, kept.taken.marked⟩, kept.slotted,
      kept.mirrors, kept.accepted, kept.count, kept.policy, kept.lives⟩
  | elsewhere watermark journal shared =>
    cases moved
    exact ⟨kept.honest, kept.taken, kept.slotted, kept.mirrors, kept.accepted, kept.count,
      kept.policy, kept.lives⟩

theorem Kept.moves (kept : v.Kept size tolerated) {ms : List (Move β)}
    (moved : v.moves ms = some w) : w.Kept size tolerated := by
  induction ms generalizing v with
  | nil =>
    cases moved
    exact kept
  | cons m rest ih =>
    obtain ⟨u, first, later⟩ := Option.bind_eq_some_iff.mp moved
    exact ih (kept.make first) later

end Visit

end Executor

end PacedLoad
