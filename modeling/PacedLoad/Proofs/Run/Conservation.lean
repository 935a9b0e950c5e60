import PacedLoad.Proofs.Run.Accounting
import PacedLoad.Proofs.Run.Coherence
import PacedLoad.Proofs.Run.Tallying

/-!
# Every operation is accounted for

When a run ends well, the outcome of every operation was collected exactly once,
and the report counts all of them: the errors as failed operations, the results in
the snapshot, under their kinds.  Only a result that the delay policy refuses is
missing from the snapshot, and that refusal was reported.
-/

namespace PacedLoad

open Handler

variable {β σ : Type} {config : Config} {now : Instant}
  {createLog : String → Except FileError Stats.Sink} {work : Work β} {shared : β}
  {operations : List (Except Rows.DecodingError Operation)} {s₀ s : Run β σ}
  {choices : List Choice}

namespace Account

variable {a b : Account β σ}

structure Audited (operations : List (Except Rows.DecodingError Operation)) (config : Config)
    (now : Instant) (a : Account β σ) : Prop where
  honest : a.pool.Honest
  collecting : Collecting operations a
  closing : Closing config a
  reporting : Reporting config a
  tallying : Tallying config now a

theorem Audited.step [Watermark.Bookkeeping σ] (audited : Audited operations config now a)
    (step : Step operations a b) :
    Audited operations config now b where
  honest := honest_step audited.honest step
  collecting := audited.collecting.step audited.honest step
  closing := audited.closing.step step
  reporting := audited.reporting.step audited.closing step
  tallying := audited.tallying.step audited.reporting audited.closing step

structure Accounted (operations : List (Except Rows.DecodingError Operation)) (config : Config)
    (a : Account β σ) (report : Report) : Prop where
  submitted : a.pool.tasks.map (.ok ·.operation) = operations
  once : (a.collected.map Prod.fst).Perm (List.range operations.length)
  own : ∀ c ∈ a.collected, a.pool.outcome? c.1 = some c.2
  results : ∀ k r, (k, .ok r) ∈ a.collected → operations[k]? = some (.ok r.operation)
  failed : report.failed = errorsIn a.collected
  total : report.snapshot.operationCount + report.failed +
    ((resultsIn a.collected).filter config.drops).length = operations.length
  kinds : ∀ kind, report.snapshot.countOf kind =
    ((resultsIn a.collected).filter (!config.drops ·)).countP (·.operation.kind = kind)
  refused : (((resultsIn a.collected).filter config.drops).map (·.operation)).Sublist
    a.journal.judged

/-- The report of a run accounts for every operation. -/
theorem Audited.accounted (audited : Audited operations config now a) {report : Report}
    (closed : a.leg = .closed report) : Accounted operations config a report := by
  have fine : a.leg.isBroken = false := by rw [closed]; rfl
  have submitted := audited.collecting.whole fine (by rw [closed]; nofun)
  have taken := audited.collecting.taken fine
  have size : a.pool.tasks.length = operations.length := by rw [← submitted, List.length_map]
  have once := taken.all (audited.collecting.idle fine (by rw [closed]; rfl))
  rw [size] at once
  obtain ⟨failed, w, shown, counted, refused⟩ :=
    audited.tallying.reported report (by rw [closed]; rfl)
  obtain ⟨count, kinds⟩ := Stats.snapshot_counts counted
  have failed : report.failed = errorsIn a.collected :=
    failed.trans (audited.collecting.failed fine)
  refine ⟨submitted, once, fun c member => ?_, fun k r member => ?_, failed, ?_, fun kind => ?_,
    refused⟩
  · obtain ⟨t, found, ended⟩ := taken.ended c member
    simp [Pool.outcome?, found, ended, Phase.outcome?]
  · obtain ⟨t, found, ended⟩ := taken.ended _ member
    have faithful := audited.honest.faithful k t found
    rw [ended] at faithful
    have own : r.operation = t.operation := faithful
    rw [← submitted, List.getElem?_map, found, own]
    rfl
  · have all : a.collected.length = operations.length := by
      rw [← List.length_map (f := Prod.fst), once.length_eq, List.length_range]
    have split := length_split a.collected
    have parts := List.length_eq_length_filter_add (l := resultsIn a.collected) config.drops
    rw [shown, count, failed]
    omega
  · rw [shown, kinds]

/-- Without a reported error nothing was refused. -/
theorem drops_none {results : List OperationResult} {j : Journal} (only : j.OnlyRefusals config)
    (refused : ((results.filter config.drops).map (·.operation)).Sublist j.judged)
    (silent : j.errors = []) : results.filter config.drops = [] := by
  by_cases strict : config.delayPolicy = .strict
  · have unasked : j.judged = [] := by
      unfold Journal.OnlyRefusals Config.refusals at only
      rw [silent, if_pos strict] at only
      exact List.map_eq_nil_iff.mp only.symm
    rw [unasked] at refused
    exact List.map_eq_nil_iff.mp (List.sublist_nil.mp refused)
  · exact List.filter_eq_nil_iff.mpr fun r _ => by simp [Config.drops_lenient strict r]

/-- Then the snapshot counts all results. -/
theorem Accounted.complete {report : Report} (accounted : Accounted operations config a report)
    (only : a.journal.OnlyRefusals config) (silent : a.journal.errors = []) :
    report.snapshot.operationCount + report.failed = operations.length ∧
      ∀ kind, report.snapshot.countOf kind =
        (resultsIn a.collected).countP (·.operation.kind = kind) := by
  have none := drops_none only accounted.refused silent
  have all : (resultsIn a.collected).filter (!config.drops ·) = resultsIn a.collected := by
    refine List.filter_eq_self.mpr fun r member => ?_
    simpa using List.filter_eq_nil_iff.mp none r member
  have total := accounted.total
  have kinds := accounted.kinds
  rw [none] at total
  rw [all] at kinds
  exact ⟨total, kinds⟩

end Account

namespace Run

/-- The books of a run before its first step. -/
theorem audited_start [Watermark.Bookkeeping σ]
    (started : Run.start config now createLog work shared operations = .ok s₀) :
    Account.Audited operations config now (s₀.account []) := by
  obtain ⟨-, log, rfl⟩ := start_ok started
  have none : config.refusals [] = [] := by
    unfold Config.refusals
    split <;> rfl
  refine ⟨Pool.honest_start _, ⟨fun _ => Pool.taken_start _, fun _ => rfl, nofun, ?_, nofun⟩,
    ⟨⟨rfl, rfl⟩, fun _ => rfl, nofun, fun _ => rfl, nofun⟩,
    ⟨fun _ => ⟨rfl, rfl⟩, fun _ _ _ => none.symm⟩,
    Account.tallying_early (Nat.zero_le 5) fun _ => ?_⟩
  · exact fun _ later => absurd rfl later
  · exact ⟨rfl, ⟨rfl, rfl⟩, [], [], rfl, rfl, rfl, List.Sublist.refl _⟩

/-- What every step of an account keeps holds at the end of a run if it holds at its start. -/
theorem steps_account [Watermark.Bookkeeping σ] {P : Account β σ → Prop}
    (kept : ∀ {a b : Account β σ}, Account.Step operations a b → P a → P b) {s t : Run β σ}
    {told : List Sent} (fed : Outline.Fed operations (s.outline told))
    (ran : s.steps choices = some t) (cs : List (Nat × Outcome)) (before : P (s.account cs)) :
    P (t.account (cs ++ s.collected choices)) := by
  induction choices generalizing s told cs with
  | nil =>
    cases ran
    simpa [collected] using before
  | cons c rest ih =>
    obtain ⟨u, moved, ran⟩ := Option.bind_eq_some_iff.mp ran
    have next := fed.step (step_outline told moved)
    have after := ih next ran _ (kept (step_account fed moved) before)
    simpa [collected, moved, List.append_assoc] using after

theorem audited_of_run [Watermark.Bookkeeping σ]
    (started : Run.start config now createLog work shared operations = .ok s₀)
    (ran : s₀.steps choices = some s) :
    Account.Audited operations config now (s.account (s₀.collected choices)) := by
  have fed : Outline.Fed operations (s₀.outline []) :=
    fed_of_run started (rfl : s₀.steps [] = some s₀)
  exact steps_account (fun step audited => audited.step step) fed ran []
    (audited_start started)

theorem stage_of_result {result : Except RunError Report} (ended : s.result? = some result) :
    s.stage = .finished result := by
  unfold result? at ended
  split at ended <;> cases ended
  next here => exact here

theorem leg_of_result {result : Except RunError Report} (ended : s.result? = some result) :
    s.stage.leg = .ofEnding .closed result := by
  rw [stage_of_result ended]
  rfl

/-- Both workers are complete when a run ends well, and only the policy has reported anything. -/
theorem quiet_of_report {report : Report} {cs : List (Nat × Outcome)}
    (audited : Account.Audited operations config now (s.account cs))
    (ended : s.result? = some (.ok report)) :
    s.floor.watermark.core.isComplete = true ∧ s.stats.core.isComplete = true ∧
      s.journal.OnlyRefusals config := by
  have closed : s.stage.leg = .closed report := leg_of_result ended
  have watermark : s.floor.watermark.core.isComplete = true :=
    audited.closing.watermarkOver (by simp [account, closed]) (by simp [account, closed])
  have stats : s.stats.core.isComplete = true := audited.closing.statsOver report closed
  refine ⟨watermark, stats, audited.reporting.only (by simp [account, closed, Leg.isBroken]) ?_ ?_⟩
  · intro failed
    cases failed.symm.trans (Service.isComplete_iff.mp watermark)
  · intro failed
    cases failed.symm.trans (Service.isComplete_iff.mp stats)

/-- When a run ends well and no error was reported, the outcome of every operation was collected
once, the report counts the errors among them as failed operations, and the snapshot counts all
results, by their kinds.  A run that is aborted counts the errors that it has collected. -/
theorem conserved_of_run [Watermark.Bookkeeping σ]
    (started : Run.start config now createLog work shared operations = .ok s₀)
    (ran : s₀.steps choices = some s) :
    (∀ report, s.result? = some (.ok report) → s.journal.errors = [] →
      s.floor.pool.tasks.map (.ok ·.operation) = operations ∧
        ((s₀.collected choices).map Prod.fst).Perm (List.range operations.length) ∧
        (∀ c ∈ s₀.collected choices, s.floor.pool.outcome? c.1 = some c.2) ∧
        (∀ k r, (k, .ok r) ∈ s₀.collected choices → operations[k]? = some (.ok r.operation)) ∧
        report.failed = errorsIn (s₀.collected choices) ∧
        report.snapshot.operationCount + report.failed = operations.length ∧
        ∀ kind, report.snapshot.countOf kind =
          (resultsIn (s₀.collected choices)).countP (·.operation.kind = kind)) ∧
      ∀ failed text, s.result? = some (.error (.aborted failed text)) →
        failed = errorsIn (s₀.collected choices) := by
  have audited := audited_of_run started ran
  refine ⟨fun report ended silent => ?_, fun failed text ended => ?_⟩
  · have accounted := audited.accounted (leg_of_result ended)
    obtain ⟨-, -, only⟩ := quiet_of_report audited ended
    obtain ⟨total, kinds⟩ := accounted.complete only silent
    exact ⟨accounted.submitted, accounted.once, accounted.own, accounted.results, accounted.failed,
      total, kinds⟩
  · exact audited.collecting.aborted failed text (leg_of_result ended)

/-- A body that fails all operations but the first. -/
def picky : Work Unit := fun shared op =>
  some (shared, .returned (if op.id = 0 then .ok ⟨0, .null⟩ else .error ⟨"refused", 1⟩))

def pair : List (Except Rows.DecodingError Operation) :=
  [.ok ⟨0, "write", .saturate 10, none, .null⟩, .ok ⟨1, "read", .saturate 20, none, .null⟩]

/-- Both operations are submitted and carried out one after the other, and both outcomes are
collected. -/
def pairChoices : List Choice :=
  [.driver false, .driver false, .watermark] ++ List.replicate 15 (.driver false) ++
    List.replicate 6 (.task 0 (.saturate 10)) ++ List.replicate 6 (.task 1 (.saturate 20)) ++
    [.driver false, .driver false]

/-- The driver reads the time, the service of which it stops, and the snapshot. -/
def reportChoices : List Choice :=
  List.replicate 4 (.driver false) ++ List.replicate 5 .watermark ++
    [.driver false, .driver false, .watermark, .driver false, .driver false, .stats .first,
      .stats .first, .driver false, .driver false, .stats .first, .driver false]

/-- The driver stops the services after the second outcome. -/
def abortChoices : List Choice :=
  List.replicate 3 (.driver false) ++ List.replicate 5 .watermark ++ List.replicate 3 (.driver false)

theorem conserved_of_run_pair :
    (∃ (s₀ s : Run Unit) (report : Report),
      Run.start { single with abortOnFailure := false } .first (fun _ => .error (.other "")) picky
          () pair = .ok s₀ ∧
        s₀.steps (pairChoices ++ reportChoices) = some s ∧ s.result? = some (.ok report) ∧
        s.journal.errors = [] ∧
        ((s₀.collected (pairChoices ++ reportChoices)).map Prod.fst).Perm [0, 1] ∧
        report.failed = errorsIn (s₀.collected (pairChoices ++ reportChoices)) ∧
        report.snapshot.operationCount + report.failed = 2) ∧
      ∃ (s₀ s : Run Unit) (failed : Nat) (text : String),
        Run.start single .first (fun _ => .error (.other "")) picky () pair = .ok s₀ ∧
          s₀.steps (pairChoices ++ abortChoices) = some s ∧
          s.result? = some (.error (.aborted failed text)) ∧
          failed = errorsIn (s₀.collected (pairChoices ++ abortChoices)) := by
  constructor
  · obtain ⟨s₀, s, report, started, ran, ended, silent⟩ : ∃ (s₀ s : Run Unit) (report : Report),
        Run.start { single with abortOnFailure := false } .first (fun _ => .error (.other "")) picky
            () pair = .ok s₀ ∧
          s₀.steps (pairChoices ++ reportChoices) = some s ∧ s.result? = some (.ok report) ∧
          s.journal.errors = [] := ⟨_, _, _, rfl, rfl, rfl, rfl⟩
    obtain ⟨-, once, -, -, failed, total, -⟩ :=
      (conserved_of_run started ran).1 report ended silent
    exact ⟨s₀, s, report, started, ran, ended, silent, once, failed, total⟩
  · obtain ⟨s₀, s, failed, text, started, ran, ended⟩ :
        ∃ (s₀ s : Run Unit) (failed : Nat) (text : String),
          Run.start single .first (fun _ => .error (.other "")) picky () pair = .ok s₀ ∧
            s₀.steps (pairChoices ++ abortChoices) = some s ∧
            s.result? = some (.error (.aborted failed text)) := ⟨_, _, _, _, rfl, rfl, rfl⟩
    exact ⟨s₀, s, failed, text, started, ran, ended,
      (conserved_of_run started ran).2 failed text ended⟩

end Run

end PacedLoad
