import PacedLoad.Proofs.Run.Account

/-!
# What the driver has collected

As long as a run does not fail, the collected outcomes are those of the tasks that
were taken, the count of failed operations is that of the errors among them, and the
driver goes on to the end only when all operations of the stream were submitted and
taken.
-/

namespace PacedLoad

open Handler

variable {β σ : Type}

def errorsIn (collected : List (Nat × Outcome)) : Nat := collected.countP fun c => isError c.2

def resultsIn (collected : List (Nat × Outcome)) : List OperationResult :=
  collected.filterMap fun c => result? c.2

theorem errorsIn_concat (collected : List (Nat × Outcome)) (k : Nat) (outcome : Outcome) :
    errorsIn (collected ++ [(k, outcome)]) =
      errorsIn collected + if isError outcome then 1 else 0 := by
  simp [errorsIn, List.countP_append, List.countP_singleton]

theorem resultsIn_concat (collected : List (Nat × Outcome)) (k : Nat) (outcome : Outcome) :
    resultsIn (collected ++ [(k, outcome)]) = resultsIn collected ++ (result? outcome).toList := by
  cases outcome <;> simp [resultsIn, result?]

/-- Every collected outcome is an error or a result. -/
theorem length_split (collected : List (Nat × Outcome)) :
    (resultsIn collected).length + errorsIn collected = collected.length := by
  induction collected with
  | nil => rfl
  | cons c rest ih =>
    obtain ⟨k, outcome⟩ := c
    cases outcome <;> simp [resultsIn, errorsIn, result?, isError] at ih ⊢ <;> omega

namespace Account

variable {operations : List (Except Rows.DecodingError Operation)} {a b : Account β σ}


/-- The outcomes that wait in the pool stay those of finished tasks. -/
theorem honest_step [Watermark.Bookkeeping σ] (honest : a.pool.Honest)
    (step : Step operations a b) : b.pool.Honest := by
  cases step with
  | submit here accepted => exact honest.submit accepted
  | pass here first taken | tolerate here first taken | abort here first taken
  | discard past taken => exact honest.take taken
  | fail called taken =>
    rcases taken with rfl | ⟨outcome, taken⟩
    · exact honest
    · exact honest.take taken
  | shutdown => exact ⟨honest.once, honest.ready, honest.listed, honest.faithful, honest.ended⟩
  | handle found needs =>
    exact honest.move found (Phase.isFinished_of_need needs)
      (Phase.faithful_next (honest.faithful _ _ found) _)
  | interruption found interruptible =>
    exact honest.move found (Phase.isFinished_of_interruptible interruptible) rfl
  | _ => exact honest

structure Collecting (operations : List (Except Rows.DecodingError Operation)) (a : Account β σ) :
    Prop where
  taken : a.leg.isBroken = false → a.pool.Taken a.collected
  failed : a.leg.isBroken = false → a.failed = errorsIn a.collected
  aborted : ∀ n text, a.leg = .broken (.aborted n text) → n = errorsIn a.collected
  whole : a.leg.isBroken = false → a.leg ≠ .gathering →
    a.pool.tasks.map (.ok ·.operation) = operations
  idle : a.leg.isBroken = false → a.leg.collects = false → a.pool.inFlight = 0

theorem isBroken_of_collects {leg : Leg} (collects : leg.collects = true) :
    leg.isBroken = false := by
  cases leg <;> first | rfl | cases collects

/-- Another leg, with the outcomes and the pool as they were. -/
theorem Collecting.goTo (collecting : Collecting operations a) (pool : b.pool = a.pool)
    (failed : b.failed = a.failed) (collected : b.collected = a.collected)
    (fine : a.leg.isBroken = false) (good : b.leg.isBroken = false)
    (whole : b.leg ≠ .gathering → b.pool.tasks.map (.ok ·.operation) = operations)
    (idle : b.leg.collects = false → b.pool.inFlight = 0) : Collecting operations b where
  taken _ := by rw [pool, collected]; exact collecting.taken fine
  failed _ := by rw [failed, collected]; exact collecting.failed fine
  aborted n text broken := by rw [broken] at good; cases good
  whole _ := whole
  idle _ := idle

theorem Collecting.congr (collecting : Collecting operations a) (pool : b.pool = a.pool)
    (failed : b.failed = a.failed) (collected : b.collected = a.collected) (leg : b.leg = a.leg) :
    Collecting operations b where
  taken := by rw [pool, collected, leg]; exact collecting.taken
  failed := by rw [failed, collected, leg]; exact collecting.failed
  aborted := by rw [collected, leg]; exact collecting.aborted
  whole := by rw [pool, leg]; exact collecting.whole
  idle := by rw [pool, leg]; exact collecting.idle

theorem collecting_fail {e : RunError} (broken : b.leg = .broken e)
    (aborted : ∀ n text, e = .aborted n text → n = errorsIn b.collected) :
    Collecting operations b where
  taken fine := by rw [broken] at fine; cases fine
  failed fine := by rw [broken] at fine; cases fine
  aborted n text here := by
    rw [broken] at here
    cases here
    exact aborted n text rfl
  whole fine := by rw [broken] at fine; cases fine
  idle fine := by rw [broken] at fine; cases fine

/-- The tasks may change in what does not matter here. -/
theorem Collecting.tasks (collecting : Collecting operations a) {pool : Pool β}
    (taken : a.leg.isBroken = false → pool.Taken a.collected)
    (operations_ : pool.tasks.map Task.operation = a.pool.tasks.map Task.operation)
    (flags : pool.tasks.map Task.taken = a.pool.tasks.map Task.taken) {b : Account β σ}
    (after : b.pool = pool) (failed : b.failed = a.failed) (collected : b.collected = a.collected)
    (leg : b.leg = a.leg) : Collecting operations b := by
  subst after
  refine ⟨?_, ?_, ?_, ?_, ?_⟩
  · rw [collected, leg]
    exact taken
  · rw [failed, collected, leg]
    exact collecting.failed
  · rw [collected, leg]
    exact collecting.aborted
  · intro fine on
    rw [leg] at fine on
    rw [← collecting.whole fine on]
    have same := congrArg (List.map (Except.ok (ε := Rows.DecodingError))) operations_
    simpa only [List.map_map, Function.comp_def] using same
  · intro fine past
    rw [leg] at fine past
    rw [← collecting.idle fine past]
    have same := congrArg (List.countP (!·)) flags
    simpa only [List.countP_map, Function.comp_def, Pool.inFlight] using same

/-- The driver takes an outcome and stays on its leg. -/
theorem Collecting.gather (collecting : Collecting operations a) (honest : a.pool.Honest)
    {ticket failed : Nat} {outcome : Outcome} {pool : Pool β} (here : a.leg.collects = true)
    (first : a.pool.first? = some (ticket, outcome))
    (taken : a.pool.tryTake = some (outcome, pool))
    (count : failed = a.failed + if isError outcome then 1 else 0) {stats} :
    Collecting operations { a.gather pool ticket outcome with failed, stats } := by
  have fine := isBroken_of_collects here
  refine ⟨fun _ => (collecting.taken fine).take honest first taken, fun _ => ?_, ?_, ?_, ?_⟩
  · change failed = errorsIn (a.collected ++ [(ticket, outcome)])
    rw [errorsIn_concat, ← collecting.failed fine, count]
  · intro n text broken
    rw [show a.leg = .broken (.aborted n text) from broken] at fine
    cases fine
  · intro _ on
    rw [← collecting.whole fine on]
    obtain ⟨ticket', task, -, -, -, -, tasks⟩ := Pool.tryTake_first taken
    change pool.tasks.map _ = _
    rw [tasks]
    exact map_modify_same (g := fun t : Task β => { t with taken := true }) (fun _ => rfl) _ _
  · intro _ past
    rw [show a.leg.collects = false from past] at here
    cases here

theorem Collecting.step [Watermark.Bookkeeping σ] (collecting : Collecting operations a)
    (honest : a.pool.Honest) (step : Step operations a b) : Collecting operations b := by
  cases step with
  | still | call | deliverWatermark | deliverStats | teardown =>
    exact collecting.congr rfl rfl rfl rfl
  | submit here accepted =>
    have fine : a.leg.isBroken = false := by rw [here]; rfl
    refine ⟨fun _ => (collecting.taken fine).submit accepted, collecting.failed,
      collecting.aborted, fun _ on => absurd here on, fun _ past => ?_⟩
    change a.leg.collects = false at past
    rw [here] at past
    cases past
  | drain here whole =>
    exact collecting.goTo rfl rfl rfl (by rw [here]; rfl) rfl (fun _ => whole) nofun
  | pass here first taken => exact collecting.gather honest here first taken rfl
  | tolerate here first taken => exact collecting.gather honest here first taken rfl
  | abort here first taken =>
    refine collecting_fail rfl ?_
    rintro n text ⟨⟩
    change a.failed + 1 = errorsIn (a.collected ++ [(_, .error _)])
    rw [errorsIn_concat, ← collecting.failed (isBroken_of_collects here)]
    rfl
  | giveUp here =>
    refine collecting_fail rfl ?_
    rintro n text ⟨⟩
    exact collecting.failed (isBroken_of_collects here)
  | fail called taken other =>
    exact collecting_fail rfl fun n text same => absurd same (other n text)
  | rest here idle =>
    exact collecting.goTo rfl rfl rfl (by rw [here]; rfl) rfl
      (fun _ => collecting.whole (by rw [here]; rfl) (by rw [here]; nofun)) (fun _ => idle)
  | shutdown past =>
    have taken (fine : a.leg.isBroken = false) : a.pool.shutdownNow.Taken a.collected :=
      ⟨(collecting.taken fine).once, (collecting.taken fine).ended, (collecting.taken fine).marked⟩
    exact collecting.tasks taken rfl rfl rfl rfl rfl rfl
  | @discard outcome pool past taken =>
    cases fine : a.leg.isBroken with
    | true =>
      cases here : a.leg with
      | broken e =>
        have aborted (n text) (same : e = .aborted n text) : n = errorsIn a.collected :=
          collecting.aborted n text (by rw [here, same])
        exact collecting_fail (e := e) rfl aborted
      | _ => rw [here] at fine; cases fine
    | false =>
      -- nothing is left to be taken
      obtain ⟨ticket, task, -, done, -⟩ := Pool.tryTake_first taken
      obtain ⟨t, found, -, untaken⟩ := honest.ready ticket (by rw [done]; exact List.mem_cons_self)
      have none := List.countP_eq_zero.mp (collecting.idle fine past) t (List.mem_of_getElem? found)
      rw [untaken] at none
      exact absurd rfl none
  | timed here | stopWatermark here | skipWatermark here | settle here | ask here | report here
  | stopStats here | skipStats here | leave here =>
    have fine : a.leg.isBroken = false := by rw [here]; rfl
    exact collecting.goTo rfl rfl rfl fine rfl
      (fun _ => collecting.whole fine (by rw [here]; nofun))
      (fun _ => collecting.idle fine (by rw [here]; rfl))
  | handle found needs =>
    exact collecting.tasks
      (fun fine => (collecting.taken fine).move found (Phase.isFinished_of_need needs))
      (Pool.map_move (fun _ _ => rfl) ..) (Pool.map_move (fun _ _ => rfl) ..) rfl rfl rfl rfl
  | interruption found interruptible =>
    exact collecting.tasks
      (fun fine => (collecting.taken fine).move found
        (Phase.isFinished_of_interruptible interruptible))
      (Pool.map_move (fun _ _ => rfl) ..) (Pool.map_move (fun _ _ => rfl) ..) rfl rfl rfl rfl

end Account

end PacedLoad
