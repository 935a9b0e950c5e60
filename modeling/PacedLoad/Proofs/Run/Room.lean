import PacedLoad.Proofs.Pool.Slots
import PacedLoad.Proofs.Run.Letters
import PacedLoad.Proofs.Run.Turns

/-!
# Room for another operation

The driver looks for room once, after each submission, and then goes on to the next
operation.  Until it submits that one, handlers can only go, so that the room is still
there.  What is in flight therefore never exceeds what the configuration allows.
-/

namespace PacedLoad

open Handler

variable {β : Type}

/-- Whether the driver is on its way to submit an operation, and has found room for it. -/
def Stage.roomy : Stage → Bool
  | .pull | .enrol _ | .enrolling .. | .announce _ | .submit .. | .sweep | .check => true
  | _ => false

theorem Stage.roomy_gathering {stage : Stage} (roomy : stage.roomy = true) :
    stage.leg = .gathering := by
  cases stage <;> first | rfl | cases roomy

/-- A driver that does not gather outcomes for further operations never does so again, and submits
nothing. -/
theorem Account.Step.past {operations : List (Except Rows.DecodingError Operation)}
    {a b : Account β} (step : Account.Step operations a b) (past : a.leg ≠ .gathering) :
    b.leg ≠ .gathering ∧ b.pool.inFlight ≤ a.pool.inFlight := by
  cases step with
  | submit here | drain here => exact absurd here past
  | pass here first taken | tolerate here first taken | discard here taken =>
    exact ⟨past, Pool.inFlight_take_le taken⟩
  | abort here first taken => exact ⟨nofun, Pool.inFlight_take_le taken⟩
  | fail called taken =>
    refine ⟨nofun, ?_⟩
    rcases taken with rfl | ⟨outcome, taken⟩
    · exact Nat.le_refl _
    · exact Pool.inFlight_take_le taken
  | handle found | interruption found => exact ⟨past, (Pool.inFlight_move found _).le⟩
  | giveUp | rest | timed | stopWatermark | skipWatermark | settle | ask | report | stopStats
  | skipStats | leave => exact ⟨nofun, Nat.le_refl _⟩
  | _ => exact ⟨past, Nat.le_refl _⟩

namespace Run

variable {s t : Run β}

/-- What a move does to the room for handlers. -/
inductive Fits (s t : Run β) : Prop
  /-- Handlers may go. -/
  | rests (fewer : t.inFlight ≤ s.inFlight) (room : t.stage.roomy = true → s.stage.roomy = true)
  /-- A handler comes where the driver had found room. -/
  | submits (room : s.stage.roomy = true) (one : t.inFlight = s.inFlight + 1)
      (back : t.stage.roomy = false)
  /-- The driver finds room. -/
  | opens (same : t.inFlight = s.inFlight)
      (room : s.inFlight < s.config.maxInFlightOperations ∨ s.inFlight = 0)

theorem pull_fits (here : s.stage = .pull) : Fits s s.pull := by
  have room : s.stage.roomy = true := by rw [here]; rfl
  unfold pull
  split
  · exact .rests (Nat.le_refl _) nofun
  · exact .rests (Nat.le_refl _) nofun
  · dsimp only
    split
    · exact .rests (Nat.le_refl _) fun _ => room
    · split
      · exact .rests (Nat.le_refl _) nofun
      · exact .rests (Nat.le_refl _) fun _ => room

theorem enrol_fits {op : Operation} (here : s.stage = .enrol op) : Fits s (s.enrol op) := by
  have room : s.stage.roomy = true := by rw [here]; rfl
  unfold enrol
  split
  · split
    · exact .rests (Nat.le_refl _) fun _ => room
    · exact .rests (Nat.le_refl _) nofun
  · exact .rests (Nat.le_refl _) fun _ => room

theorem enrolling_fits {op : Operation} {ticket : Nat} (expired : Bool)
    (here : s.stage = .enrolling op ticket) : Fits s (s.enrolling expired op ticket) := by
  have room : s.stage.roomy = true := by rw [here]; rfl
  unfold enrolling
  split
  · exact .rests (Nat.le_refl _) id
  · exact .rests (Nat.le_refl _) fun _ => room
  · exact .rests (Nat.le_refl _) nofun

theorem announce_fits {op : Operation} (here : s.stage = .announce op)
    (moved : s.announce op = some t) : Fits s t := by
  have room : s.stage.roomy = true := by rw [here]; rfl
  obtain ⟨writer, -, rfl⟩ := Option.map_eq_some_iff.mp moved
  have pool : (s.floor.announce op writer).1.pool = s.floor.pool := rfl
  generalize s.floor.announce op writer = announced at pool
  obtain ⟨floor, r⟩ := announced
  have same : floor.pool.inFlight = s.floor.pool.inFlight := congrArg Pool.inFlight pool
  cases r with
  | ok u => exact .rests same.le fun _ => room
  | error e => exact .rests same.le nofun

theorem submit_fits {op : Operation} {writer : Nat} (here : s.stage = .submit op writer) :
    Fits s (s.submit op writer) := by
  unfold submit Floor.submit
  cases success : s.floor.pool.submit op writer s.work with
  | error e => exact .rests (Nat.le_refl _) nofun
  | ok pool => exact .submits (by rw [here]; rfl) (Pool.inFlight_submit success) rfl

/-- A driver that has taken an outcome stays where it is or fails. -/
theorem collect_fits {outcome : Outcome} (taken : s.take = some (outcome, t)) :
    Fits s (t.collect outcome) := by
  obtain ⟨⟨outcome', pool⟩, took, same⟩ := Option.map_eq_some_iff.mp taken
  cases same
  have fewer : pool.inFlight ≤ s.floor.pool.inFlight := Pool.inFlight_take_le took
  unfold collect
  split
  · split
    · exact .rests fewer id
    · exact .rests fewer nofun
  · split
    · exact .rests fewer nofun
    · exact .rests fewer id

/-- The driver waits until there is room. -/
theorem next_fits {done : Stage} : Fits s (s.next done) := by
  unfold next
  split
  next outcome t taken => exact collect_fits taken
  next =>
    split
    next idle => exact .opens rfl (.inr idle)
    next =>
      split
      · exact .rests (Nat.le_refl _) nofun
      · exact .rests (Nat.le_refl _) id

theorem stepDriver_fits {operations : List (Except Rows.DecodingError Operation)}
    {told : List Sent} {expired : Bool} (fed : Outline.Fed operations (s.outline told))
    (moved : s.stepDriver expired = some t) : Fits s t := by
  -- past the loop the account says all: nothing is submitted, and the way does not lead back
  by_cases gathering : s.stage.leg = .gathering
  · cases driven_of_step moved with
    | pull here => exact pull_fits here
    | enrol here => exact enrol_fits here
    | enrolling here => exact enrolling_fits expired here
    | announce here announced => exact announce_fits here announced
    | submit here => exact submit_fits here
    | room here room => exact .opens rfl (.inl room)
    | full here full => exact next_fits
    | sweep here taken => exact collect_fits taken
    | swept here => exact .rests (Nat.le_refl _) fun _ => by rw [here]; rfl
    | check here =>
      split
      · exact .rests (Nat.le_refl _) nofun
      · exact .rests (Nat.le_refl _) fun _ => by rw [here]; rfl
    | drain here | readTime here | readingTime here | readStats here | readingStats here =>
      rw [here] at gathering
      cases gathering
    | @interrupt ending here | @clear ending here | @stopWatermark ending here
    | @stoppingWatermark ending here | @stopStats ending here | @stoppingStats ending here =>
      rw [here] at gathering
      cases ending <;> cases gathering
  · have step : Account.Step operations (s.account []) (t.account _) :=
      stepDriver_account fed moved
    obtain ⟨past, fewer⟩ := step.past gathering
    exact .rests fewer fun roomy => absurd (Stage.roomy_gathering roomy) past

theorem step_fits {operations : List (Except Rows.DecodingError Operation)} {told : List Sent}
    {c : Choice} (fed : Outline.Fed operations (s.outline told)) (moved : s.step c = some t) :
    Fits s t := by
  cases c with
  | driver expired => exact stepDriver_fits fed moved
  | task ticket now =>
    obtain ⟨floor, stepped, rfl⟩ := Option.map_eq_some_iff.mp moved
    obtain ⟨task, need, e, found, -, -, -, -, pool⟩ := Floor.stepTask_some stepped
    have same : floor.pool.inFlight = s.floor.pool.inFlight := by
      rw [pool, Pool.inFlight_move found]
    exact .rests same.le id
  | interruption ticket =>
    obtain ⟨floor, stepped, rfl⟩ := Option.map_eq_some_iff.mp moved
    obtain ⟨pool, stopped, rfl⟩ := Option.map_eq_some_iff.mp stepped
    obtain ⟨task, found, -, -, rfl⟩ := Pool.interrupt_some stopped
    exact .rests (Pool.inFlight_move found _).le id
  | watermark =>
    obtain ⟨floor, stepped, rfl⟩ := Option.map_eq_some_iff.mp moved
    obtain ⟨-, -, pool, -⟩ := Floor.stepWatermark_some stepped
    have same : floor.pool.inFlight = s.floor.pool.inFlight := by rw [pool]
    exact .rests same.le id
  | stats now =>
    simp only [step, stepStats] at moved
    split at moved <;> cases moved
    exact .rests (Nat.le_refl _) id
  | peer name time =>
    cases moved
    exact .rests (Nat.le_refl _) id
  | file r =>
    simp only [step, saved] at moved
    split at moved <;> cases moved
    exact .rests (Nat.le_refl _) fun there => by cases there

/-- The handlers in flight are at most as many as allowed, and fewer where the driver has found
room. -/
structure Roomy (limit : Nat) (s : Run β) : Prop where
  most : s.inFlight ≤ limit
  room : s.stage.roomy = true → s.inFlight < limit

theorem Roomy.step {limit : Nat} (roomy : Roomy limit s) (positive : 0 < limit)
    (configured : s.config.maxInFlightOperations = limit) (fits : Fits s t) : Roomy limit t := by
  cases fits with
  | rests fewer room =>
    exact ⟨fewer.trans roomy.most, fun there => fewer.trans_lt (roomy.room (room there))⟩
  | submits room one back =>
    have before := roomy.room room
    refine ⟨by omega, fun there => ?_⟩
    rw [back] at there
    cases there
  | opens same room =>
    have free : t.inFlight < limit := by omega
    exact ⟨free.le, fun _ => free⟩

variable {config : Config} {now : Instant} {createLog : String → Except FileError Stats.Sink}
  {work : Work β} {shared : β} {operations : List (Except Rows.DecodingError Operation)}
  {s₀ : Run β} {choices : List Choice}

/-- Every run that was started has room for what is in flight. -/
theorem roomy_of_run
    (started : Run.start config now createLog work shared operations = .ok s₀)
    (ran : s₀.steps choices = some s) : Roomy config.maxInFlightOperations s := by
  obtain ⟨valid, log, same⟩ := start_ok started
  have positive : 0 < config.maxInFlightOperations :=
    (config.threadCount_pos valid).trans_le (config.threadCount_le valid)
  refine steps_induct (P := fun _ r => Roomy config.maxInFlightOperations r) ran ?_ ?_
  · rw [same]
    exact ⟨Nat.zero_le _, fun _ => positive⟩
  · intro earlier c u v _ led moved before
    have configured := (audited_of_run started led).closing.ruled.1
    exact before.step positive (congrArg Config.maxInFlightOperations configured)
      (step_fits (coherent_of_run started led).fed moved)

end Run

end PacedLoad
