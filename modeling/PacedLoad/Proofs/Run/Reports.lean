import PacedLoad.Proofs.Run.Conservation

/-!
# Which reported errors a run can miss

The driver looks for reported errors after every submission and while it waits for
outcomes, and ends the run if there are any.  It does not look again afterwards.
So a run ends well in spite of an error only if the delay policy reports it after
the last look.
-/

namespace PacedLoad

open Handler

namespace Run

variable {β σ : Type} {config : Config} {now : Instant}
  {createLog : String → Except FileError Stats.Sink} {work : Work β} {shared : β}
  {operations : List (Except Rows.DecodingError Operation)} {s₀ s t : Run β σ}
  {choices : List Choice}

/-- Whether something is in flight but no outcome can be taken. -/
def awaits (s : Run β σ) : Bool := s.take.isNone && decide (s.inFlight ≠ 0)

/-- Whether the driver looks for reported errors when it moves. -/
def inspects (s : Run β σ) : Bool :=
  match s.stage with
  | .check => true
  | .window => decide (s.config.maxInFlightOperations ≤ s.inFlight) && s.awaits
  | .drain => s.awaits
  | _ => false

theorem next_broken {done : Stage} (waits : s.awaits = true)
    (reported : s.journal.hasErrors = true) : (s.next done).stage.leg.isBroken = true := by
  simp only [awaits, Bool.and_eq_true, Option.isNone_iff_eq_none,
    decide_eq_true_eq] at waits
  simp only [next, waits.1, waits.2, if_false, reported, if_true]
  rfl

/-- The run fails if errors were reported when the driver looks for them. -/
theorem broken_of_inspects [Watermark.Bookkeeping σ] {expired : Bool} (inspects : s.inspects = true)
    (reported : s.journal.hasErrors = true) (moved : s.step (.driver expired) = some t) :
    t.stage.leg.isBroken = true := by
  simp only [step, stepDriver] at moved
  cases here : s.stage with
  | check =>
    simp only [here, reported, if_true, Option.some.injEq] at moved
    rw [← moved]
    rfl
  | window =>
    simp only [Run.inspects, here, Bool.and_eq_true, decide_eq_true_eq] at inspects
    simp only [here, if_neg (Nat.not_lt.mpr inspects.1), Option.some.injEq] at moved
    rw [← moved]
    exact next_broken inspects.2 reported
  | drain =>
    simp only [Run.inspects, here] at inspects
    simp only [here, Option.some.injEq] at moved
    rw [← moved]
    exact next_broken inspects reported
  | _ => simp [Run.inspects, here] at inspects

/-- A run that has failed does not end well any more. -/
theorem broken_of_steps [Watermark.Bookkeeping σ] {told : List Sent}
    (fed : Outline.Fed operations (s.outline told)) (ran : s.steps choices = some t)
    (broken : s.stage.leg.isBroken = true) : t.stage.leg.isBroken = true :=
  steps_account (P := fun a => a.leg.isBroken = true) (fun step => step.broken) fed ran []
    broken

/-- When a run ends well, both workers are complete, and the reported errors are the policy's
refusals, none of them reported before the driver last looked.  The snapshot lacks only the results
that the policy has refused. -/
theorem refusals_of_report [Watermark.Bookkeeping σ]
    (started : Run.start config now createLog work shared operations = .ok s₀)
    (ran : s₀.steps choices = some s) {report : Report} (ended : s.result? = some (.ok report)) :
    s.floor.watermark.core.isComplete = true ∧ s.stats.core.isComplete = true ∧
      s.journal.errors = config.refusals s.journal.judged ∧
      (∀ (earlier later : List Choice) (expired : Bool) (u : Run β σ),
        choices = earlier ++ .driver expired :: later → s₀.steps earlier = some u →
          u.inspects = true → u.journal.errors = []) ∧
      report.snapshot.operationCount + report.failed +
          ((resultsIn (s₀.collected choices)).filter config.drops).length = operations.length ∧
      (((resultsIn (s₀.collected choices)).filter config.drops).map (·.operation)).Sublist
        s.journal.judged := by
  have audited := audited_of_run started ran
  have accounted := audited.accounted (leg_of_result ended)
  obtain ⟨watermark, stats, only⟩ := quiet_of_report audited ended
  refine ⟨watermark, stats, only, fun earlier later expired u split before looks => ?_,
    accounted.total, accounted.refused⟩
  by_contra reported
  have reported : u.journal.hasErrors = true := by simpa [Journal.hasErrors] using reported
  rw [split, steps_append, before] at ran
  obtain ⟨v, moved, after⟩ : ∃ v, u.step (.driver expired) = some v ∧ v.steps later = some s :=
    Option.bind_eq_some_iff.mp ran
  have fed := (fed_of_run started before).step (step_outline _ moved)
  have broken := broken_of_steps fed after (broken_of_inspects looks reported moved)
  rw [leg_of_result ended] at broken
  cases broken

/-- Under a policy that accepts late starts, a run that ends well has seen no error. -/
theorem silent_of_report [Watermark.Bookkeeping σ]
    (started : Run.start config now createLog work shared operations = .ok s₀)
    (ran : s₀.steps choices = some s) {report : Report} (ended : s.result? = some (.ok report))
    (lenient : config.delayPolicy ≠ .strict) : s.journal.errors = [] := by
  obtain ⟨-, -, only⟩ := quiet_of_report (audited_of_run started ran) ended
  exact only.trans (Config.refusals_lenient lenient _)

/-- A configuration with one writer that refuses late starts. -/
def severe : Config := { single with delayPolicy := .strict }

def lone : List (Except Rows.DecodingError Operation) :=
  [.ok ⟨0, "write", .saturate 10, none, .null⟩]

/-- The operation is let go in time, but starts at `start`. -/
def loneChoices (start : Instant) : List Choice :=
  [.driver false, .driver false, .watermark] ++ List.replicate 8 (.driver false) ++
    List.replicate 2 (.task 0 (.saturate 10)) ++ List.replicate 4 (.task 0 start) ++
    List.replicate 5 (.driver false) ++ List.replicate 3 .watermark ++
    [.driver false, .driver false, .watermark, .driver false, .driver false, .stats .first,
      .stats .first, .driver false, .driver false, .stats .first, .driver false]

/-- The start, when it is later than tolerated. -/
def belated : Instant := .saturate 100000011

theorem lone_run : ∃ (s₀ s : Run Unit) (report : Report),
    Run.start severe .first (fun _ => .error (.other "")) prompt () lone = .ok s₀ ∧
      s₀.steps (loneChoices belated) = some s ∧ s.result? = some (.ok report) ∧
      s.journal.errors.length = 1 ∧ report.failed = 0 ∧ report.snapshot.operationCount = 0 :=
  ⟨_, _, _, rfl, rfl, rfl, rfl, rfl, rfl⟩

theorem refusals_of_report_lone : ∃ (s₀ s : Run Unit) (report : Report),
    Run.start severe .first (fun _ => .error (.other "")) prompt () lone = .ok s₀ ∧
      s₀.steps (loneChoices belated) = some s ∧ s.result? = some (.ok report) ∧
      s.journal.errors = severe.refusals s.journal.judged ∧
      report.snapshot.operationCount + report.failed +
        ((resultsIn (s₀.collected (loneChoices belated))).filter severe.drops).length = 1 := by
  obtain ⟨s₀, s, report, started, ran, ended, -⟩ := lone_run
  obtain ⟨-, -, only, -, total, -⟩ := refusals_of_report started ran ended
  exact ⟨s₀, s, report, started, ran, ended, only, total⟩

/-- A run can end well although an error was reported and a result is missing. -/
theorem report_despite_refusal : ∃ (s₀ s : Run Unit) (report : Report),
    Run.start severe .first (fun _ => .error (.other "")) prompt () lone = .ok s₀ ∧
      s₀.steps (loneChoices belated) = some s ∧ s.result? = some (.ok report) ∧
      s.journal.errors ≠ [] ∧
      report.snapshot.operationCount + report.failed < lone.length := by
  obtain ⟨s₀, s, report, started, ran, ended, one, failed, count⟩ := lone_run
  refine ⟨s₀, s, report, started, ran, ended, fun none => ?_, ?_⟩
  · rw [none] at one
    cases one
  · rw [failed, count]
    decide

end Run

end PacedLoad
