import PacedLoad.Proofs.Pool.Executor

/-!
# Executors and their shutdown

After a shutdown every handler that is left can be brought to an outcome by steps
and interruptions of the tasks alone.  With that, `visit_accounted` sums up what
holds of an executor after any session.
-/

namespace PacedLoad

open Handler

variable {β : Type}

/-- How many moves a handler has left until its outcome is taken, if it is interrupted where it can
be. -/
def Handler.Phase.exitSteps : Phase → Nat
  | .finished _ => 1
  | .waiting | .released _ | .started .. | .refused _ | .completing _ => 2
  | .late _ | .admitted _ | .ended .. => 3
  | .dependent _ => 4

namespace Pool

variable {p q : Pool β} {k : Nat} {t : Task β}

def exitSteps (p : Pool β) : Nat :=
  (p.tasks.map fun t => if t.taken then 0 else t.phase.exitSteps).sum

theorem exitSteps_move {after : Phase} (found : p.tasks[k]? = some t) (untaken : t.taken = false)
    (fewer : after.exitSteps < t.phase.exitSteps) :
    (p.move k t.phase after).exitSteps < p.exitSteps := by
  have sums := sum_map_modify (fun t : Task β => if t.taken then 0 else t.phase.exitSteps)
    (fun t => { t with phase := after }) found
  simp only [untaken, Bool.false_eq_true, if_false] at sums
  rw [exitSteps, tasks_move, exitSteps]
  omega

theorem Honest.exitSteps_take (honest : p.Honest) {outcome : Outcome}
    (success : p.tryTake = some (outcome, q)) : q.exitSteps < p.exitSteps := by
  obtain ⟨ticket, task, -, done, found, ended, tasks⟩ := tryTake_first success
  obtain ⟨t, found', -, untaken⟩ := honest.ready ticket (by rw [done]; exact List.mem_cons_self)
  cases found.symm.trans found'
  have sums := sum_map_modify (fun t : Task β => if t.taken then 0 else t.phase.exitSteps)
    (fun t => { t with taken := true }) found
  have last : task.phase.exitSteps = 1 := by
    rw [ended]
    rfl
  simp only [untaken, Bool.false_eq_true, if_false, if_true, last] at sums
  rw [exitSteps, tasks, exitSteps]
  omega

/-- While something is in flight there is a task that was not taken. -/
theorem exists_of_inFlight (busy : p.inFlight ≠ 0) :
    ∃ (k : Nat) (t : Task β), p.tasks[k]? = some t ∧ t.taken = false := by
  obtain ⟨t, member, untaken⟩ := List.countP_pos_iff.mp (Nat.pos_of_ne_zero busy)
  obtain ⟨k, found⟩ := List.getElem?_of_mem member
  exact ⟨k, t, found, by simpa using untaken⟩

/-- A finished task that was not taken lets an outcome be taken. -/
theorem Honest.tryTake_of_finished (honest : p.Honest) (found : p.tasks[k]? = some t)
    (finished : t.phase.isFinished = true) (untaken : t.taken = false) :
    ∃ outcome q, p.tryTake = some (outcome, q) := by
  have member := honest.listed k t found finished untaken
  unfold tryTake
  cases waiting : p.done with
  | nil =>
    rw [waiting] at member
    cases member
  | cons ticket rest =>
    obtain ⟨u, found', finished', -⟩ :=
      honest.ready ticket (by rw [waiting]; exact List.mem_cons_self)
    obtain ⟨outcome, ended⟩ : ∃ outcome, u.phase.outcome? = some outcome := by
      cases phase : u.phase <;> simp [phase, Phase.isFinished, Phase.outcome?] at finished' ⊢
    have known : p.outcome? ticket = some outcome := by simp [Pool.outcome?, found', ended]
    exact ⟨outcome, _, Option.map_eq_some_iff.mpr ⟨outcome, known, rfl⟩⟩

end Pool

namespace Floor

/-- A handler that can not be interrupted does not have to wait for its next step, which brings it
nearer to its outcome. -/
theorem stepTask_settled {f : Floor β} {k : Nat} {t : Task β} (found : f.pool.tasks[k]? = some t)
    (unfinished : t.phase.isFinished = false) (settled : t.phase.interruptible = false)
    (now : Instant) :
    ∃ g after, f.stepTask k now = some g ∧ g.pool = f.pool.move k t.phase after ∧
      after.exitSteps < t.phase.exitSteps := by
  have step : ∀ {need : Need} {e : Event} {g : Floor β}, t.phase.need = some need →
      f.respond k t now need = some (g, e) →
      (t.phase.next t.operation f.policy.tolerated e).exitSteps < t.phase.exitSteps →
      ∃ g after, f.stepTask k now = some g ∧ g.pool = f.pool.move k t.phase after ∧
        after.exitSteps < t.phase.exitSteps := by
    intro need e g needs answered fewer
    obtain ⟨-, -, pool, -⟩ := respond_some answered
    have stepped : f.stepTask k now = some { g with
        pool := g.pool.move k t.phase (t.phase.next t.operation f.policy.tolerated e) } := by
      simp [stepTask, found, needs, answered]
    exact ⟨_, _, stepped, by rw [pool], fewer⟩
  cases phase : t.phase with
  | waiting | released | started => simp [phase, Phase.interruptible] at settled
  | finished outcome => simp [phase, Phase.isFinished] at unfinished
  | dependent due =>
    refine phase ▸ step (by rw [phase]; rfl) rfl ?_
    rw [phase]
    simp only [Phase.next, Phase.due]
    repeat' split
    all_goals simp [Phase.exitSteps]
  | late due =>
    refine phase ▸ step (by rw [phase]; rfl) rfl ?_
    rw [phase]
    simp only [Phase.next]
    split <;> simp [Phase.exitSteps]
  | refused delay | completing outcome =>
    refine phase ▸ step (by rw [phase]; rfl) rfl ?_
    rw [phase]
    simp only [Phase.next, Phase.close]
    split <;> simp [Phase.exitSteps]
  | admitted late | ended late start result =>
    refine phase ▸ step (by rw [phase]; rfl) rfl ?_
    rw [phase]
    simp [Phase.next, Phase.exitSteps]

end Floor

namespace Executor.Visit

variable {size : Nat} {tolerated : Span} {v w : Visit β}

/-- A move that winds up leads from one visit to the next: nothing is accepted, nothing is returned
twice, and the executor stays shut down. -/
structure WindsUp (v w : Visit β) : Prop where
  accepted : w.accepted = v.accepted
  returned : v.returned <+: w.returned
  closed : w.executor.floor.pool.shutDown = true

/-- A finished handler lets the next outcome be returned. -/
theorem Kept.receive_finished (kept : v.Kept size tolerated) {k : Nat} {t : Task β}
    (found : v.executor.floor.pool.tasks[k]? = some t) (finished : t.phase.isFinished = true)
    (untaken : t.taken = false) (cancelled : Bool) :
    ∃ given q, (v.receive cancelled).returned = v.returned ++ [given] ∧
      (v.receive cancelled).accepted = v.accepted ∧
      v.executor.floor.pool.tryTake = some (given.2, q) ∧
      (v.receive cancelled).executor.floor.pool = q := by
  obtain ⟨outcome, q, success⟩ := kept.honest.tryTake_of_finished found finished untaken
  obtain ⟨ticket, roster, -, received, -⟩ := receive_some kept success cancelled
  exact ⟨(ticket, outcome), q, by rw [received], by rw [received], success, by rw [received]⟩

/-- As long as something is in flight after a shutdown, some move winds up. -/
theorem Kept.exists_windsUp (kept : v.Kept size tolerated)
    (closed : v.executor.floor.pool.shutDown = true) (busy : v.executor.inFlight ≠ 0) :
    ∃ m w, Move.windsUp m = true ∧ v.make m = some w ∧ v.WindsUp w ∧
      w.executor.floor.pool.exitSteps < v.executor.floor.pool.exitSteps := by
  obtain ⟨k, t, found, untaken⟩ := Pool.exists_of_inFlight busy
  cases finished : t.phase.isFinished with
  | true =>
    obtain ⟨given, q, returned, accepted, success, pool⟩ :=
      kept.receive_finished found finished untaken true
    have member := kept.honest.listed k t found finished untaken
    have ready : ¬ (v.executor.floor.pool.done = [] ∧ v.executor.inFlight ≠ 0) :=
      fun ⟨empty, _⟩ => by simp [empty] at member
    refine ⟨.take true, v.receive true, rfl, if_neg ready, ⟨accepted, ?_, ?_⟩, ?_⟩
    · rw [returned]
      exact List.prefix_append _ _
    · obtain ⟨_, _, -, -, -, same, -⟩ := Pool.tryTake_some success
      rw [pool, same, closed]
    · rw [pool]
      exact kept.honest.exitSteps_take success
  | false =>
    cases interruptible : t.phase.interruptible with
    | true =>
      let ended : Phase := .finished (.error (.interrupted t.operation.id))
      have interrupted : v.make (.interruption k) = some { v with executor := { v.executor with
          floor := { v.executor.floor with
            pool := v.executor.floor.pool.move k t.phase ended } } } := by
        simp [Visit.make, Floor.interrupt, Pool.interrupt, found, closed, interruptible, ended]
      refine ⟨.interruption k, _, rfl, interrupted, ⟨rfl, List.prefix_rfl, closed⟩,
        Pool.exitSteps_move found untaken ?_⟩
      cases phase : t.phase <;> simp [phase, Phase.interruptible] at interruptible <;>
        simp [Phase.exitSteps, ended]
    | false =>
      obtain ⟨g, after, stepped, pool, fewer⟩ :=
        Floor.stepTask_settled found finished interruptible Instant.first
      refine ⟨.step k Instant.first, { v with executor := { v.executor with floor := g } }, rfl,
        by simp [Visit.make, stepped], ⟨rfl, List.prefix_rfl, ?_⟩, ?_⟩
      · dsimp only
        rw [pool]
        exact closed
      · dsimp only
        rw [pool]
        exact Pool.exitSteps_move found untaken fewer

/-- After a shutdown, moves of the tasks and takes lead to the end. -/
theorem Kept.exists_end (kept : v.Kept size tolerated)
    (closed : v.executor.floor.pool.shutDown = true) :
    ∃ ms w, (∀ m ∈ ms, Move.windsUp m = true) ∧ v.moves ms = some w ∧ v.WindsUp w ∧
      w.executor.inFlight = 0 := by
  -- each move leaves fewer of them
  induction left : v.executor.floor.pool.exitSteps using Nat.strongRecOn generalizing v with
  | ind n ih =>
    subst left
    by_cases idle : v.executor.inFlight = 0
    · exact ⟨[], v, nofun, rfl, ⟨rfl, List.prefix_rfl, closed⟩, idle⟩
    · obtain ⟨m, u, winds, moved, first, fewer⟩ := kept.exists_windsUp closed idle
      obtain ⟨ms, w, rest, ran, later, idle⟩ := ih _ fewer (kept.make moved) first.closed rfl
      refine ⟨m :: ms, w, ?_, ?_, ⟨later.accepted.trans first.accepted,
        first.returned.trans later.returned, later.closed⟩, idle⟩
      · intro m' member
        rcases List.mem_cons.mp member with rfl | member
        · exact winds
        · exact rest m' member
      · exact Option.bind_eq_some_iff.mpr ⟨u, moved, ran⟩

/-- No move takes a shutdown back. -/
theorem closed_make {m : Move β} (moved : v.make m = some w)
    (closed : v.executor.floor.pool.shutDown = true) : w.executor.floor.pool.shutDown = true := by
  have received : ∀ cancelled, (v.receive cancelled).executor.floor.pool.shutDown = true := by
    intro cancelled
    unfold receive Executor.tryTake
    cases v.executor.floor.pool.done with
    | nil => exact closed
    | cons ticket rest =>
      cases success : v.executor.floor.pool.tryTake with
      | none => exact closed
      | some given =>
        obtain ⟨_, _, -, -, -, same, -⟩ := Pool.tryTake_some success
        exact same.trans closed
  cases m with
  | submit op writer work id =>
    simp only [make] at moved
    split at moved
    · cases moved
    · rcases submit_cases v.executor op writer work id with
        ⟨pool, success, submitted⟩ | ⟨-, submitted⟩ <;> rw [submitted] at moved <;> cases moved
      · cases (Pool.submit_ok success).1.symm.trans closed
      · exact closed
  | take cancelled =>
    simp only [make] at moved
    split at moved <;> cases moved
    exact received cancelled
  | tryTake cancelled =>
    cases moved
    exact received cancelled
  | shutdownNow =>
    cases moved
    rfl
  | step ticket now =>
    obtain ⟨floor, stepped, same⟩ := Option.map_eq_some_iff.mp moved
    subst same
    obtain ⟨_, _, -, -, -, pool, -⟩ := Floor.stepTask_room stepped
    dsimp only
    rw [pool]
    exact closed
  | interruption ticket =>
    obtain ⟨floor, broken, same⟩ := Option.map_eq_some_iff.mp moved
    subst same
    obtain ⟨pool, interrupted, same⟩ := Option.map_eq_some_iff.mp broken
    subst same
    obtain ⟨_, -, -, -, rfl⟩ := Pool.interrupt_some interrupted
    exact closed
  | elsewhere watermark journal shared =>
    cases moved
    exact closed

theorem closed_moves {ms : List (Move β)} (moved : v.moves ms = some w)
    (closed : v.executor.floor.pool.shutDown = true ∨ .shutdownNow ∈ ms) :
    w.executor.floor.pool.shutDown = true := by
  induction ms generalizing v with
  | nil =>
    cases moved
    exact closed.resolve_right (List.not_mem_nil)
  | cons m rest ih =>
    obtain ⟨u, first, later⟩ := Option.bind_eq_some_iff.mp moved
    refine ih later ?_
    rcases closed with before | member
    · exact .inl (closed_make first before)
    · rcases List.mem_cons.mp member with rfl | member
      · cases first
        exact .inl rfl
      · exact .inr member

/-- What holds of an executor after any session.  Every slot is free or occupied by a handler that
executes.  What was accepted is in flight or was returned, each once, and everything that was
returned is what its handler came to, or an interruption, under the number of the operation that was
submitted with it; a finished handler can be taken.  After a shutdown nothing is accepted, and what
is left can be brought out. -/
theorem visit_accounted {floor : Floor β} {size : Nat} {ms : List (Move β)} {v : Visit β}
    (ran : (start floor size).moves ms = some v) :
    let pool := v.executor.floor.pool
    pool.free + pool.tasks.countP (·.phase.occupies) = max size 1 ∧
      v.executor.inFlight + v.returned.length = v.accepted.length ∧
      (v.returned.map Prod.fst).Nodup ∧
      (∀ k outcome, (k, outcome) ∈ v.returned → ∃ op, v.accepted[k]? = some op ∧
        Concerns op outcome ∧
        (Phase.Reached op floor.policy.tolerated (.finished outcome) ∨
          outcome = .error (.interrupted op.id))) ∧
      (v.executor.inFlight = 0 →
        (v.returned.map Prod.fst).Perm (List.range v.accepted.length)) ∧
      (∀ t ∈ pool.tasks, t.phase.isFinished = true → t.taken = false → ∀ cancelled,
        ∃ given, (v.receive cancelled).returned = v.returned ++ [given]) ∧
      (.shutdownNow ∈ ms →
        (∀ op writer work id,
          v.executor.submit op writer work id = (v.executor, .error .shutDown)) ∧
        ∃ rest w, (∀ m ∈ rest, Move.windsUp m = true) ∧ v.moves rest = some w ∧
          v.returned <+: w.returned ∧ w.accepted = v.accepted ∧ w.executor.inFlight = 0) := by
  intro pool
  have kept := (kept_start floor size).moves ran
  refine ⟨kept.slotted, kept.count, kept.taken.once, fun k outcome member => ?_, fun idle => ?_,
    fun t member finished untaken cancelled => ?_, fun shut => ?_⟩
  · obtain ⟨t, found, ended⟩ := kept.taken.ended (k, outcome) member
    have concerns := kept.honest.faithful k t found
    rw [ended] at concerns
    refine ⟨t.operation, ?_, concerns, ?_⟩
    · rw [← kept.accepted, List.getElem?_map, found]
      rfl
    · rcases kept.lives t (List.mem_of_getElem? found) with reached | interrupted
      · exact .inl (ended ▸ reached)
      · exact .inr (Phase.finished.inj (ended.symm.trans interrupted))
  · have all := kept.taken.all idle
    rwa [← List.length_map (f := fun t : Task β => t.operation), kept.accepted] at all
  · obtain ⟨k, found⟩ := List.getElem?_of_mem member
    obtain ⟨given, q, returned, -⟩ := kept.receive_finished found finished untaken cancelled
    exact ⟨given, returned⟩
  · have closed := closed_moves ran (.inr shut)
    obtain ⟨rest, w, winds, moved, windsUp, idle⟩ := kept.exists_end closed
    refine ⟨fun op writer work id => ?_, rest, w, winds, moved, windsUp.returned,
      windsUp.accepted, idle⟩
    rcases submit_cases v.executor op writer work id with ⟨_, success, -⟩ | ⟨-, submitted⟩
    · cases (Pool.submit_ok success).1.symm.trans closed
    · exact submitted

def bare : Floor Unit :=
  ⟨.start [] .standard, .empty, .permissive .zero, .start 0, ()⟩

/-- One slot: the first body breaks off, the second one waits until it is interrupted. -/
def cutShortMoves : List (Move Unit) :=
  let op (id : Nat) : Operation := ⟨id, "read", .first, none, .null⟩
  [.submit (op 7) 0 (fun s _ => some (s, .panicked "broken")) 70, .step 0 .first, .step 0 .first,
    .step 0 .first, .step 0 .first, .submit (op 8) 0 (fun _ _ => none) 71, .tryTake false,
    .step 1 .first, .step 1 .first, .step 1 .first, .shutdownNow, .interruption 1, .take true]

theorem visit_accounted_cutShort : ∃ v, (start bare 0).moves cutShortMoves = some v ∧
    v.returned = [(0, .error (.panicked 7 "broken")), (1, .error (.interrupted 8))] ∧
    v.executor.floor.pool.free + v.executor.floor.pool.tasks.countP (·.phase.occupies) = 1 ∧
    (v.returned.map Prod.fst).Perm (List.range v.accepted.length) ∧
    ∀ op writer work id, v.executor.submit op writer work id = (v.executor, .error .shutDown) := by
  obtain ⟨v, ran, returned, idle⟩ : ∃ v, (start bare 0).moves cutShortMoves = some v ∧
      v.returned = [(0, .error (.panicked 7 "broken")), (1, .error (.interrupted 8))] ∧
      v.executor.inFlight = 0 := ⟨_, rfl, rfl, rfl⟩
  obtain ⟨slots, -, -, -, all, -, shut⟩ := visit_accounted ran
  exact ⟨v, ran, returned, slots, all idle, (shut (by simp [cutShortMoves])).1⟩

end Executor.Visit

end PacedLoad
