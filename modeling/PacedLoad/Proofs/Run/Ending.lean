import PacedLoad.Proofs.Run.Conservation
import PacedLoad.Proofs.Run.Finish

/-!
# How the driver comes to its end

A driver that comes to its end without failing has taken the outcome of every
operation.  So all jobs have ended, and none of them was interrupted: the writers are
about to settle.
-/

namespace PacedLoad

open Handler Watermark Outline

variable {β : Type} {config : Config} {now : Instant}
  {createLog : String → Except FileError Stats.Sink} {work : Work β} {shared : β}
  {operations : List (Except Rows.DecodingError Operation)} {s₀ u v : Run β}
  {earlier : List Choice} {c : Choice}

/-- Outcomes are collected until the driver comes to its end. -/
theorem Stage.collects_of_station {stage : Stage} (on : stage.station ≠ .ending) :
    stage.leg.collects = true := by
  cases stage <;> first | rfl | exact absurd rfl on

theorem Stage.past_of_station {stage : Stage} (ended : stage.station = .ending) :
    stage.leg.collects = false := by
  cases stage with
  | interrupt ending | clear ending | stopWatermark ending | stoppingWatermark ending
  | stopStats ending | stoppingStats ending | finished ending => cases ending <;> rfl
  | _ => first | rfl | cases ended

theorem Stage.drain_of_leg {stage : Stage} (here : stage.leg = .draining) : stage = .drain := by
  cases stage with
  | interrupt ending | clear ending | stopWatermark ending | stoppingWatermark ending
  | stopStats ending | stoppingStats ending | finished ending => cases ending <;> cases here
  | _ => first | rfl | cases here

/-- A driver that stops collecting outcomes without failing has nothing in flight. -/
theorem Account.Step.gathered {a b : Account β} (step : Account.Step operations a b)
    (here : a.leg.collects = true) (past : b.leg.collects = false)
    (fine : b.leg.isBroken = false) :
    a.leg = .draining ∧ a.pool.inFlight = 0 ∧ b.pool = a.pool ∧ b.watermark = a.watermark := by
  cases step with
  | rest leg idle => exact ⟨leg, idle, rfl, rfl⟩
  | drain => cases past
  | abort | giveUp | fail => cases fine
  | timed leg | stopWatermark leg | skipWatermark leg | settle leg | ask leg | report leg
  | stopStats leg | skipStats leg | leave leg | teardown leg =>
    rw [leg] at here
    cases here
  | _ => cases here.symm.trans past

namespace Run

/-- When the driver comes to its end well, all jobs have ended and the writers are about to settle
at the start as many places from the end as there are writers. -/
theorem final_of_end {ops : List Operation}
    (started : Run.start config now createLog work shared (ops.map .ok) = .ok s₀)
    (led : s₀.steps earlier = some u) (moved : u.step c = some v)
    (on : u.stage.station ≠ .ending) (ended : v.stage.station = .ending)
    (fine : v.stage.leg.isBroken = false)
    (whole : ∀ c ∈ s₀.collected earlier, Handler.brokenOff c.2 = false) :
    Final (finalStart config.threadCount ops) (v.outline []) := by
  have paced := paced_of_run started led
  have audited := audited_of_run started led
  have step : Account.Step (ops.map .ok) (u.account (s₀.collected earlier))
      (v.account (s₀.collected earlier ++ u.collectedBy c)) :=
    step_account paced.coherent.fed moved
  have collects : u.stage.leg.collects = true := Stage.collects_of_station on
  obtain ⟨draining, idle, pool, core⟩ :=
    step.gathered collects (Stage.past_of_station ended) fine
  have good : u.stage.leg.isBroken = false := Account.isBroken_of_collects collects
  have here : u.stage = .drain := Stage.drain_of_leg draining
  -- every task has an outcome that was collected
  have done : ∀ t ∈ u.floor.pool.jobs, ∃ c ∈ s₀.collected earlier, t.phase = .finished c.2 := by
    intro t member
    obtain ⟨task, place, rfl⟩ := List.mem_map.mp member
    have taken : u.floor.pool.Taken (s₀.collected earlier) := audited.collecting.taken good
    obtain ⟨c, collected, same⟩ := taken.finished idle place
    exact ⟨c, collected, same⟩
  have carried : u.floor.pool.jobs.map Task.operation = ops := by
    have submitted : u.floor.pool.tasks.map
        (fun t => (.ok t.operation : Except Rows.DecodingError Operation)) = ops.map .ok :=
      audited.collecting.whole good (by rw [draining]; nofun)
    have injective : Function.Injective
        (Except.ok : Operation → Except Rows.DecodingError Operation) := fun _ _ => Except.ok.inj
    refine List.map_injective_iff.mpr injective (Eq.trans ?_ submitted)
    rw [Pool.jobs, List.map_map, List.map_map]
    rfl
  have final := paced.final (show u.stage.station = .between by rw [here]; rfl)
    (fun t member => by
      obtain ⟨c, -, same⟩ := done t member
      rw [same]
      rfl)
    (fun t member => by
      obtain ⟨c, place, same⟩ := done t member
      rw [same]
      exact whole c place)
  rw [show (u.outline (s₀.told earlier)).jobs.map Task.operation = ops from carried] at final
  refine final.congr ended ?_ ?_ ?_
  · exact congrArg Pool.jobs pool
  · exact congrArg PacedLoad.Service.worker core
  · exact congrArg PacedLoad.Service.queue core

end Run

end PacedLoad
