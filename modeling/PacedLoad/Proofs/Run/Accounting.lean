import PacedLoad.Proofs.Run.Account
import PacedLoad.Proofs.Run.Driver
import PacedLoad.Proofs.Run.Stream

/-!
# Every move of a run is a step of its account

The functions of the driver are gone through one by one, as in the simulation by the
outline.  Here the ways out of a run matter, and the operation at hand does not.
-/

namespace PacedLoad

open Handler Account

variable {β σ : Type} [Watermark.Bookkeeping σ]

theorem map_true_ne {ε : Type} (r : Except ε Unit) : (r.map fun _ => true) ≠ .ok false := by
  cases r <;> simp [Except.map]

namespace Watermark.Service

variable {w : Watermark.Service σ} {j : Journal}

omit [Bookkeeping σ] in
theorem called_ask (w : Watermark.Service σ) (j : Journal) (r : Request) :
    w.core.Called (w.ask j r).1.core := PacedLoad.Service.called_ask w.core j r

omit [Bookkeeping σ] in
theorem called_pollRegistration {expired : Bool} {ticket : Nat} {after : Watermark.Service σ}
    {r : Except ServiceError Nat} (polled : w.pollRegistration j expired ticket = some (after, r)) :
    w.core.Called after.core := by
  obtain ⟨answer, -, mapped⟩ := Option.map_eq_some_iff.mp polled
  rcases answer with e | (id | t) <;> cases mapped <;>
    exact PacedLoad.Service.called_silent rfl rfl rfl

omit [Bookkeeping σ] in
theorem called_pollReading {expired : Bool} {ticket : Nat} {after : Watermark.Service σ}
    {r : Except ServiceError (Option Instant)}
    (polled : w.pollReading j expired ticket = some (after, r)) : w.core.Called after.core := by
  obtain ⟨answer, -, mapped⟩ := Option.map_eq_some_iff.mp polled
  cases mapped
  exact PacedLoad.Service.called_silent rfl rfl rfl

omit [Bookkeeping σ] in
/-- Whoever stops the service finds it refusing work, or is the one that closes it. -/
theorem beginShutdown_closes (w : Watermark.Service σ) (j : Journal) :
    (w.core.shuttingDown = true ∧ ∃ after, w.beginShutdown j = (after, .ok false) ∧
        after.core = w.core) ∨
      ∃ after r, w.beginShutdown j = (after, r) ∧ w.core.Closes after.core ∧ r ≠ .ok false := by
  unfold beginShutdown PacedLoad.Service.refuse
  cases up : w.core.shuttingDown with
  | true =>
    refine .inl ⟨rfl, _, rfl, ?_⟩
    dsimp only
    rw [← up]
  | false =>
    exact .inr ⟨_, _, rfl, PacedLoad.Service.closes_terminate j up, map_true_ne _⟩

end Watermark.Service

namespace Stats.Service

@[inherit_doc Watermark.Service.beginShutdown_closes]
theorem beginShutdown_closes (w : Stats.Service) (j : Journal) :
    (w.core.shuttingDown = true ∧ ∃ after, w.beginShutdown j = (after, .ok false) ∧
        after.core = w.core) ∨
      ∃ after r, w.beginShutdown j = (after, r) ∧ w.core.Closes after.core ∧ r ≠ .ok false := by
  unfold beginShutdown PacedLoad.Service.refuse
  cases up : w.core.shuttingDown with
  | true =>
    refine .inl ⟨rfl, _, rfl, ?_⟩
    dsimp only
    rw [← up]
  | false =>
    exact .inr ⟨_, _, rfl, PacedLoad.Service.closes_terminate j up, map_true_ne _⟩

/-- A result is taken exactly as long as the worker runs and new work is not refused. -/
theorem submit_ok {s after : Stats.Service} {j : Journal} {r : OperationResult}
    (accepted : s.submit j r = (after, .ok ())) :
    s.core.isOpen = true ∧ ∃ counted,
      after.core = { s.core with counted, queue := s.core.queue ++ [.event r] } := by
  unfold submit PacedLoad.Service.submitWhileUp at accepted
  cases up : s.core.shuttingDown with
  | true => simp [up] at accepted
  | false =>
    simp only [up, Bool.false_eq_true, if_false] at accepted
    cases running : s.core.isOpen with
    | true =>
      rw [PacedLoad.Service.submit_of_open running] at accepted
      cases accepted
      exact ⟨rfl, s.core.counted + 1, rfl⟩
    | false =>
      rw [PacedLoad.Service.submit_of_closed running] at accepted
      simp at accepted

end Stats.Service

namespace Floor

omit [Watermark.Bookkeeping σ] in
/-- A step of a task leaves nothing in the journal but what the policy notes when it is asked. -/
theorem stepTask_journal {f g : Floor β σ} {ticket : Nat} {now : Instant}
    (moved : f.stepTask ticket now = some g) :
    g.journal = f.journal ∨ ∃ op, g.journal = (f.policy.judge op f.journal).2 := by
  obtain ⟨t, -, moved⟩ := Option.bind_eq_some_iff.mp moved
  obtain ⟨need, -, moved⟩ := Option.bind_eq_some_iff.mp moved
  obtain ⟨⟨g', e⟩, answered, moved⟩ := Option.bind_eq_some_iff.mp moved
  cases moved
  cases need with
  | verdict =>
    cases answered
    exact .inr ⟨t.operation, rfl⟩
  | clock | watermark | submission =>
    cases answered
    exact .inl rfl
  | slot =>
    simp only [respond] at answered
    split at answered
    · cases answered
      exact .inl rfl
    · split at answered <;> cases answered
      exact .inl rfl
  | body =>
    obtain ⟨worked, -, same⟩ := Option.map_eq_some_iff.mp answered
    cases same
    exact .inl rfl

omit [Watermark.Bookkeeping σ] in
/-- A task calls the completion time service at most to complete its start. -/
theorem called_serviceAfter (f : Floor β σ) (t : Task β) (need : Need) :
    f.watermark.core.Called (f.serviceAfter t need).core := by
  cases need with
  | submission =>
    exact PacedLoad.Service.called_submit f.watermark.core f.journal
      (.completed t.writer t.operation.scheduledStart)
  | _ => exact PacedLoad.Service.called_silent rfl rfl rfl

end Floor

namespace Run

def looks (s : Run β σ) : Bool :=
  match s.stage with
  | .window => decide (s.config.maxInFlightOperations ≤ s.inFlight)
  | .sweep | .drain => true
  | _ => false

/-- The outcome that a move collects, with the number of its task. -/
def collectedBy (s : Run β σ) : Choice → List (Nat × Outcome)
  | .driver _ => if s.looks then s.floor.pool.first?.toList else []
  | _ => []

/-- The outcomes that the driver collects during several moves. -/
def collected (s : Run β σ) : List Choice → List (Nat × Outcome)
  | [] => []
  | c :: rest =>
    match s.step c with
    | some t => s.collectedBy c ++ t.collected rest
    | none => []

section Driver

variable {s t : Run β σ} {cs : List (Nat × Outcome)}
  {operations : List (Except Rows.DecodingError Operation)}

/-- The driver changes nothing but its leg, and that not at all. -/
theorem account_rests {stage : Stage} (same : stage.leg = s.stage.leg) :
    Step operations (s.account cs) ((s.goTo stage).account cs) := by
  have after : (s.goTo stage).account cs = s.account cs := by simp only [account, goTo, same]
  rw [after]
  exact .still

/-- The driver calls the completion time service and stays on its leg. -/
theorem account_calls {watermark : Watermark.Service σ} {stage : Stage}
    (called : s.floor.watermark.core.Called watermark.core) (same : stage.leg = s.stage.leg) :
    Step operations (s.account cs) (((s.withWatermark watermark).goTo stage).account cs) := by
  have after : ((s.withWatermark watermark).goTo stage).account cs =
      { s.account cs with watermark := watermark.core } := by
    simp only [account, goTo, withWatermark, same]
  rw [after]
  exact .call called

/-- The driver calls the completion time service and fails. -/
theorem account_fails {watermark : Watermark.Service σ} {stage : Stage} {e : RunError}
    (called : s.floor.watermark.core.Called watermark.core ∨
      s.floor.watermark.core.Closes watermark.core)
    (leg : stage.leg = .broken e) (other : ∀ n text, e ≠ .aborted n text) :
    Step operations (s.account cs) (((s.withWatermark watermark).goTo stage).account cs) := by
  have after : ((s.withWatermark watermark).goTo stage).account cs =
      { s.account cs with watermark := watermark.core, leg := .broken e } := by
    simp only [account, goTo, withWatermark, leg]
  rw [after]
  exact .fail called (.inl rfl) other

/-- The driver fails on its own. -/
theorem account_fails_alone {stage : Stage} {e : RunError} (leg : stage.leg = .broken e)
    (other : ∀ n text, e ≠ .aborted n text) :
    Step operations (s.account cs) ((s.goTo stage).account cs) := by
  have after : (s.goTo stage).account cs = { s.account cs with leg := .broken e } := by
    simp only [account, goTo, leg]
  rw [after]
  exact .failAlone (.inl rfl) other

theorem pull_account {told : List Sent} (fed : Outline.Fed operations (s.outline told))
    (here : s.stage = .pull) : Step operations (s.account cs) (s.pull.account cs) := by
  have leg : s.stage.leg = .gathering := by rw [here]; rfl
  have on : (s.outline told).station = .between := by simp [outline, here, Stage.station]
  unfold pull
  split
  next exhausted =>
    have whole := fed.whole (by simp [on])
    rw [on, show (s.outline told).upcoming = [] from exhausted] at whole
    refine .drain leg ?_
    simpa [outline, Pool.jobs, Outline.item, Task.untaken, Station.pending, account,
      Function.comp_def] using whole
  next e remaining _ => exact account_fails_alone (s := { s with upcoming := remaining }) rfl (by simp)
  next op remaining _ =>
    dsimp only
    split
    · exact account_rests (s := { s with upcoming := remaining, previous := _ })
        (by rw [here]; rfl)
    · split
      · exact account_fails_alone (s := { s with upcoming := remaining }) rfl (by simp)
      · exact account_rests (s := { s with upcoming := remaining, previous := _ })
          (by rw [here]; rfl)

theorem enrol_account {op : Operation} (here : s.stage = .enrol op) :
    Step operations (s.account cs) ((s.enrol op).account cs) := by
  unfold enrol
  split
  · have called := s.floor.watermark.called_ask s.journal .register
    split
    next watermark ticket asked =>
      rw [asked] at called
      exact account_calls called (by rw [here]; rfl)
    next watermark e asked =>
      rw [asked] at called
      exact account_fails (.inl called) rfl nofun
  · exact account_rests (by rw [here]; rfl)

theorem enrolling_account {op : Operation} {ticket : Nat} (expired : Bool)
    (here : s.stage = .enrolling op ticket) :
    Step operations (s.account cs) ((s.enrolling expired op ticket).account cs) := by
  unfold enrolling
  split
  next => exact .still
  next watermark writer polled =>
    exact account_calls (Watermark.Service.called_pollRegistration polled) (by rw [here]; rfl)
  next watermark e polled =>
    exact account_fails (.inl (Watermark.Service.called_pollRegistration polled)) rfl nofun

theorem announce_account {op : Operation} (here : s.stage = .announce op)
    (moved : s.announce op = some t) : Step operations (s.account cs) (t.account cs) := by
  obtain ⟨writer, -, moved⟩ := Option.map_eq_some_iff.mp moved
  subst moved
  have called := Service.called_submitWhileUp s.floor.watermark.core s.floor.journal
    (.initiated writer op.scheduledStart)
  unfold Floor.announce Watermark.Service.submitInitiated
  generalize s.floor.watermark.core.submitWhileUp s.floor.journal
    (.initiated writer op.scheduledStart) = submitted at called
  obtain ⟨core, r⟩ := submitted
  cases r with
  | ok u =>
    change Step operations (s.account cs)
      (((s.withWatermark { s.floor.watermark with core }).goTo (.submit op writer)).account cs)
    exact account_calls called (by rw [here]; rfl)
  | error e =>
    change Step operations (s.account cs)
      (((s.withWatermark { s.floor.watermark with core }).fail (.execution _)).account cs)
    exact account_fails (.inl called) rfl nofun

theorem submit_account {op : Operation} {writer : Nat} (here : s.stage = .submit op writer) :
    Step operations (s.account cs) ((s.submit op writer).account cs) := by
  unfold submit Floor.submit
  cases success : s.floor.pool.submit op writer s.work with
  | error e => exact account_fails_alone rfl nofun
  | ok pool =>
    have leg : s.stage.leg = .gathering := by rw [here]; rfl
    have after : ({ s with
        floor := { s.floor with pool }, submitted := s.submitted + 1, stage := .window } :
          Run β σ).account cs = { s.account cs with pool } := by
      simp only [account, leg]
      rfl
    dsimp only
    rw [after]
    exact .submit leg success

/-- The driver takes an outcome and collects it. -/
theorem collect_account {outcome : Outcome} {ticket : Nat} (here : s.stage.leg.collects = true)
    (taken : s.take = some (outcome, t)) (first : s.floor.pool.first? = some (ticket, outcome)) :
    Step operations (s.account cs) ((t.collect outcome).account (cs ++ [(ticket, outcome)])) := by
  obtain ⟨⟨outcome', pool⟩, took, same⟩ := Option.map_eq_some_iff.mp taken
  cases same
  unfold collect
  split
  next r =>
    split
    next stats accepted =>
      obtain ⟨running, counted, core⟩ := Stats.Service.submit_ok accepted
      have after : ({ s with stats, floor := { s.floor with pool } } : Run β σ).account
          (cs ++ [(ticket, .ok r)]) = { (s.account cs).gather pool ticket (.ok r) with
            stats := { s.stats.core with counted, queue := s.stats.core.queue ++ [.event r] } } := by
        simp only [account, gather, core]
      exact after ▸ .pass here first took running
    next stats e refused =>
      exact .failAlone (a := s.account cs) (.inr ⟨_, took⟩) nofun
  next e =>
    split
    · exact .abort here first took
    · exact .tolerate here first took

omit [Watermark.Bookkeeping σ] in
theorem first_of_take {outcome : Outcome} (taken : s.take = some (outcome, t)) :
    ∃ ticket, s.floor.pool.first? = some (ticket, outcome) := by
  obtain ⟨⟨outcome', pool⟩, took, same⟩ := Option.map_eq_some_iff.mp taken
  cases same
  obtain ⟨ticket, -, first, -⟩ := Pool.tryTake_first took
  exact ⟨ticket, first⟩

omit [Watermark.Bookkeeping σ] in
/-- Where nothing can be taken, nothing is first. -/
theorem first_of_none (nothing : s.take = none) : s.floor.pool.first? = none := by
  have untaken := Option.map_eq_none_iff.mp nothing
  unfold Pool.tryTake at untaken
  unfold Pool.first?
  cases waiting : s.floor.pool.done with
  | nil => rfl
  | cons ticket rest =>
    rw [waiting] at untaken
    simpa using untaken

/-- The driver looks for the next outcome, and goes on to `done` when nothing is in flight. -/
theorem next_account {done : Stage} (here : s.stage.leg.collects = true)
    (after : s.inFlight = 0 → Step operations (s.account cs) ((s.goTo done).account cs)) :
    Step operations (s.account cs)
      ((s.next done).account (cs ++ s.floor.pool.first?.toList)) := by
  unfold next
  split
  next outcome t taken =>
    obtain ⟨ticket, first⟩ := first_of_take taken
    rw [first]
    exact collect_account here taken first
  next nothing =>
    rw [first_of_none nothing, Option.toList_none, List.append_nil]
    split
    next idle => exact after idle
    · split
      · exact .giveUp here
      · exact .still

theorem clear_account {ending : Except RunError Unit} (here : s.stage = .clear ending) :
    Step operations (s.account cs) ((s.clear ending).account cs) := by
  unfold clear
  split
  next outcome t taken =>
    obtain ⟨⟨outcome', pool⟩, took, same⟩ := Option.map_eq_some_iff.mp taken
    cases same
    refine .discard (a := s.account cs) ?_ took
    simp only [account, here]
    cases ending <;> rfl
  next =>
    split
    · cases ending <;> exact account_rests (by rw [here]; rfl)
    · exact .still

theorem readTime_account (here : s.stage = .readTime) :
    Step operations (s.account cs) (s.readTime.account cs) := by
  have called := s.floor.watermark.called_ask s.journal .read
  unfold readTime
  split
  next watermark ticket asked =>
    rw [asked] at called
    exact account_calls called (by rw [here]; rfl)
  next watermark e asked =>
    rw [asked] at called
    exact account_fails (.inl called) rfl nofun

theorem readingTime_account {ticket : Nat} (expired : Bool) (here : s.stage = .readingTime ticket) :
    Step operations (s.account cs) ((s.readingTime expired ticket).account cs) := by
  unfold readingTime
  split
  next => exact .still
  next watermark gct polled =>
    have leg : s.stage.leg = .gathered := by rw [here]; rfl
    exact .timed (a := s.account cs) leg (Watermark.Service.called_pollReading polled)
  next watermark e polled =>
    exact account_fails (.inl (Watermark.Service.called_pollReading polled)) rfl nofun

/-- What follows the end of the completion time service is decided by how it ended. -/
theorem watermarkStopped_account {ending : Except RunError (Option Instant)}
    {stopped : Except ServiceError Unit} {leg : Leg}
    (on : s.stage.leg = .ofEnding (fun _ => leg) ending)
    (done : ∀ gct, ending = .ok gct → stopped = .ok () →
      Step operations (s.account cs) ((s.goTo (.readStats gct)).account cs)) :
    Step operations (s.account cs) ((s.watermarkStopped ending stopped).account cs) := by
  unfold watermarkStopped
  split
  · exact account_rests on.symm
  · exact done _ rfl rfl
  · exact account_fails_alone rfl nofun

theorem stopWatermark_account {ending : Except RunError (Option Instant)}
    (here : s.stage = .stopWatermark ending) :
    Step operations (s.account cs) ((s.stopWatermark ending).account cs) := by
  have on : s.stage.leg = .ofEnding (fun _ => .stopping) ending := by rw [here]; rfl
  rcases s.floor.watermark.beginShutdown_closes s.journal with
    ⟨closed, watermark, begun, same⟩ | ⟨watermark, r, begun, closes, other⟩
  · unfold stopWatermark
    rw [begun]
    dsimp only
    have still : (s.withWatermark watermark).account cs = s.account cs := by
      simp only [account, withWatermark, same]
    rw [← still]
    refine watermarkStopped_account (s := s.withWatermark watermark) on fun gct good _ => ?_
    refine .skipWatermark (a := (s.withWatermark watermark).account cs) ?_ ?_
    · exact on.trans (by rw [good]; rfl)
    · simpa [account, withWatermark, same] using closed
  · unfold stopWatermark
    rw [begun]
    cases ending with
    | error e =>
      have after : ∀ stage : Stage, stage.leg = .broken e →
          Step operations (s.account cs) (((s.withWatermark watermark).goTo stage).account cs) := by
        intro stage leg
        have same : ((s.withWatermark watermark).goTo stage).account cs =
            { s.account cs with watermark := watermark.core, stats := s.stats.core } := by
          simp only [account, goTo, withWatermark, leg, on, Leg.ofEnding]
        rw [same]
        exact .teardown on (.inr closes)
      rcases r with e' | (_ | _)
      · exact after _ rfl
      · exact absurd rfl other
      · exact after _ rfl
    | ok gct =>
      rcases r with e' | (_ | _)
      · exact account_fails (.inr closes) rfl (by simp)
      · exact absurd rfl other
      · exact .stopWatermark (a := s.account cs) on closes

theorem stoppingWatermark_account {ending : Except RunError (Option Instant)} (expired : Bool)
    (here : s.stage = .stoppingWatermark ending) :
    Step operations (s.account cs) ((s.stoppingWatermark expired ending).account cs) := by
  have on : s.stage.leg = .ofEnding (fun _ => .awaiting) ending := by rw [here]; rfl
  unfold stoppingWatermark
  split
  next => exact .still
  next r polled =>
    refine watermarkStopped_account on fun gct good stopped => ?_
    subst good stopped
    exact .settle (a := s.account cs) on (Service.ended_ok polled)

theorem readStats_account {gct : Option Instant} (here : s.stage = .readStats gct) :
    Step operations (s.account cs) ((s.readStats gct).account cs) := by
  have on : s.stage.leg = .settled := by rw [here]; rfl
  unfold readStats Stats.Service.ask
  cases running : s.stats.core.isOpen with
  | true =>
    rw [Service.ask_of_open running]
    exact .ask (a := s.account cs) on running
  | false =>
    rw [Service.ask_of_closed running]
    exact .failAlone (a := s.account cs) (.inl rfl) nofun

theorem readingStats_account {gct : Option Instant} {ticket : Nat} (expired : Bool)
    (here : s.stage = .readingStats gct ticket) :
    Step operations (s.account cs) ((s.readingStats expired gct ticket).account cs) := by
  have on : s.stage.leg = .asking ticket := by rw [here]; rfl
  have failing : ∀ (stats : Stats.Service) (e : Stats.Error),
      Step operations (s.account cs) (({ s with stats }.giveUp (.stats e)).account cs) := by
    intro stats e
    exact .failAlone (a := s.account cs) (.inl rfl) nofun
  unfold readingStats
  split
  next => exact .still
  next stats snapshot polled =>
    obtain ⟨answer, answered, mapped⟩ := Option.map_eq_some_iff.mp polled
    cases mapped
    exact .report (a := s.account cs) on (Service.answer_ok answered)
  next => exact failing _ _
  next => exact failing _ _

theorem statsStopped_account {ending : Except RunError Report} {stopped : Except ServiceError Unit}
    {leg : Report → Leg} (on : s.stage.leg = .ofEnding leg ending)
    (done : ∀ r stage, ending = .ok r → stopped = .ok () → stage.leg = .closed r →
      Step operations (s.account cs) ((s.goTo stage).account cs)) :
    Step operations (s.account cs) ((s.statsStopped ending stopped).account cs) := by
  unfold statsStopped
  split
  · exact account_rests on.symm
  · split
    · exact done _ _ rfl rfl rfl
    · exact done _ _ rfl rfl rfl
  · exact account_fails_alone rfl nofun

theorem stopStats_account {ending : Except RunError Report} (here : s.stage = .stopStats ending) :
    Step operations (s.account cs) ((s.stopStats ending).account cs) := by
  have on : s.stage.leg = .ofEnding .reported ending := by rw [here]; rfl
  rcases s.stats.beginShutdown_closes s.journal with
    ⟨closed, stats, begun, same⟩ | ⟨stats, r, begun, closes, other⟩
  · unfold stopStats
    rw [begun]
    dsimp only
    have still : ({ s with stats } : Run β σ).account cs = s.account cs := by
      simp only [account, same]
    rw [← still]
    refine statsStopped_account (s := { s with stats }) on fun r stage good _ leg => ?_
    have after : (({ s with stats } : Run β σ).goTo stage).account cs =
        { ({ s with stats } : Run β σ).account cs with leg := .closed r } := by
      simp only [account, goTo, leg]
    rw [after]
    refine .skipStats (a := ({ s with stats } : Run β σ).account cs) ?_ ?_
    · exact on.trans (by rw [good]; rfl)
    · simpa [account, same] using closed
  · unfold stopStats
    rw [begun]
    cases ending with
    | error e =>
      have after : ∀ stage : Stage, stage.leg = .broken e →
          Step operations (s.account cs) ((({ s with stats } : Run β σ).goTo stage).account cs) := by
        intro stage leg
        have same : (({ s with stats } : Run β σ).goTo stage).account cs =
            { s.account cs with watermark := s.floor.watermark.core, stats := stats.core } := by
          simp only [account, goTo, leg, on, Leg.ofEnding]
        rw [same]
        exact .teardown on (.inl (Service.called_silent rfl rfl rfl))
      rcases r with e' | (_ | _)
      · exact after _ rfl
      · exact absurd rfl other
      · exact after _ rfl
    | ok report =>
      rcases r with e' | (_ | _)
      · exact .failAlone (a := s.account cs) (.inl rfl) (by simp)
      · exact absurd rfl other
      · exact .stopStats (a := s.account cs) on closes

theorem stoppingStats_account {ending : Except RunError Report} (expired : Bool)
    (here : s.stage = .stoppingStats ending) :
    Step operations (s.account cs) ((s.stoppingStats expired ending).account cs) := by
  have on : s.stage.leg = .ofEnding .leaving ending := by rw [here]; rfl
  unfold stoppingStats
  split
  next => exact .still
  next r polled =>
    refine statsStopped_account on fun report stage good stopped leg => ?_
    subst good stopped
    have after : (s.goTo stage).account cs = { s.account cs with leg := .closed report } := by
      simp only [account, goTo, leg]
    rw [after]
    exact .leave (a := s.account cs) on (Service.ended_ok polled)

/-- A driver that does not look for outcomes collects none. -/
theorem account_blind {expired : Bool} (blind : s.looks = false)
    (step : Step operations (s.account cs) (t.account cs)) :
    Step operations (s.account cs) (t.account (cs ++ s.collectedBy (.driver expired))) := by
  simpa [collectedBy, blind] using step

/-- A driver that looks for outcomes collects the first one. -/
theorem account_looks {expired : Bool} (looking : s.looks = true)
    (step : Step operations (s.account cs) (t.account (cs ++ s.floor.pool.first?.toList))) :
    Step operations (s.account cs) (t.account (cs ++ s.collectedBy (.driver expired))) := by
  simpa [collectedBy, looking] using step

theorem check_account (here : s.stage = .check) :
    Step operations (s.account cs)
      ((if s.journal.hasErrors then s.abort s.failed else s.goTo .pull).account cs) := by
  have leg : s.stage.leg = .gathering := by rw [here]; rfl
  split
  · exact .giveUp (a := s.account cs) (by simp only [account, leg]; rfl)
  · exact account_rests leg.symm

theorem interrupt_account {ending : Except RunError Unit} (here : s.stage = .interrupt ending) :
    Step operations (s.account cs) (({ s with
      floor := { s.floor with pool := s.floor.pool.shutdownNow }, stage := .clear ending } :
        Run β σ).account cs) := by
  have after : ({ s with
      floor := { s.floor with pool := s.floor.pool.shutdownNow }, stage := .clear ending } :
        Run β σ).account cs = { s.account cs with pool := s.floor.pool.shutdownNow } := by
    simp only [account, here]
    rfl
  rw [after]
  refine .shutdown (a := s.account cs) ?_
  simp only [account, here]
  cases ending <;> rfl

/-- Every step of the driver is a step of the account. -/
theorem stepDriver_account {told : List Sent} {expired : Bool}
    (fed : Outline.Fed operations (s.outline told)) (moved : s.stepDriver expired = some t) :
    Step operations (s.account cs) (t.account (cs ++ s.collectedBy (.driver expired))) := by
  cases driven_of_step moved with
  | sweep here taken =>
    have leg : s.stage.leg = .gathering := by rw [here]; rfl
    obtain ⟨ticket, first⟩ := first_of_take taken
    refine account_looks (by simp [looks, here]) ?_
    rw [first]
    exact collect_account (by rw [leg]; rfl) taken first
  | swept here nothing =>
    have leg : s.stage.leg = .gathering := by rw [here]; rfl
    refine account_looks (by simp [looks, here]) ?_
    rw [first_of_none nothing, Option.toList_none, List.append_nil]
    exact account_rests leg.symm
  | room here room =>
    exact account_blind (by simp [looks, here, room]) (account_rests (by rw [here]; rfl))
  | full here full =>
    have leg : s.stage.leg = .gathering := by rw [here]; rfl
    exact account_looks (by simpa [looks, here] using full)
      (next_account (by rw [leg]; rfl) fun _ => account_rests leg.symm)
  | drain here =>
    have leg : s.stage.leg = .draining := by rw [here]; rfl
    exact account_looks (by simp [looks, here])
      (next_account (by rw [leg]; rfl) fun idle => .rest (a := s.account cs) leg idle)
  | pull here => exact account_blind (by simp [looks, here]) (pull_account fed here)
  | enrol here => exact account_blind (by simp [looks, here]) (enrol_account here)
  | enrolling here => exact account_blind (by simp [looks, here]) (enrolling_account expired here)
  | announce here announced =>
    exact account_blind (by simp [looks, here]) (announce_account here announced)
  | submit here => exact account_blind (by simp [looks, here]) (submit_account here)
  | check here => exact account_blind (by simp [looks, here]) (check_account here)
  | interrupt here => exact account_blind (by simp [looks, here]) (interrupt_account here)
  | clear here => exact account_blind (by simp [looks, here]) (clear_account here)
  | readTime here => exact account_blind (by simp [looks, here]) (readTime_account here)
  | readingTime here =>
    exact account_blind (by simp [looks, here]) (readingTime_account expired here)
  | stopWatermark here => exact account_blind (by simp [looks, here]) (stopWatermark_account here)
  | stoppingWatermark here =>
    exact account_blind (by simp [looks, here]) (stoppingWatermark_account expired here)
  | readStats here => exact account_blind (by simp [looks, here]) (readStats_account here)
  | readingStats here =>
    exact account_blind (by simp [looks, here]) (readingStats_account expired here)
  | stopStats here => exact account_blind (by simp [looks, here]) (stopStats_account here)
  | stoppingStats here =>
    exact account_blind (by simp [looks, here]) (stoppingStats_account expired here)

end Driver

/-- Every move of a run is a step of its account. -/
theorem step_account {s t : Run β σ} {c : Choice} {told : List Sent}
    {operations : List (Except Rows.DecodingError Operation)} {cs : List (Nat × Outcome)}
    (fed : Outline.Fed operations (s.outline told)) (moved : s.step c = some t) :
    Step operations (s.account cs) (t.account (cs ++ s.collectedBy c)) := by
  cases c with
  | driver expired => exact stepDriver_account fed moved
  | task ticket now =>
    obtain ⟨floor, stepped, rfl⟩ := Option.map_eq_some_iff.mp moved
    obtain ⟨t, need, e, found, needs, -, service, policy, pool⟩ := Floor.stepTask_some stepped
    have called := s.floor.called_serviceAfter t need
    rw [← service] at called
    have asked : (s.account cs).Asked floor.journal := by
      rcases Floor.stepTask_journal stepped with same | ⟨op, judged⟩
      · rw [same]
        exact .silent
      · rw [judged]
        exact .judged op
    have after : ({ s with floor } : Run β σ).account (cs ++ s.collectedBy (.task ticket now)) =
        { s.account cs with
          watermark := floor.watermark.core
          journal := floor.journal
          pool := s.floor.pool.move ticket t.phase
            (t.phase.next t.operation s.floor.policy.tolerated e) } := by
      simp only [account, collectedBy, List.append_nil, policy, pool]
    rw [after]
    exact .handle found needs called asked
  | interruption ticket =>
    obtain ⟨floor, stepped, rfl⟩ := Option.map_eq_some_iff.mp moved
    obtain ⟨pool, stopped, rfl⟩ := Option.map_eq_some_iff.mp stepped
    obtain ⟨t, found, -, interruptible, rfl⟩ := Pool.interrupt_some stopped
    simp only [collectedBy, List.append_nil]
    exact .interruption (a := s.account cs) found interruptible
  | watermark =>
    obtain ⟨floor, stepped, rfl⟩ := Option.map_eq_some_iff.mp moved
    simp only [Floor.stepWatermark] at stepped
    split at stepped <;> cases stepped
    simp only [collectedBy, List.append_nil]
    exact .deliverWatermark (a := s.account cs)
  | stats now =>
    simp only [step, stepStats] at moved
    split at moved <;> cases moved
    simp only [collectedBy, List.append_nil]
    exact .deliverStats (a := s.account cs)
  | peer name time =>
    cases moved
    simp only [collectedBy, List.append_nil]
    exact .call (a := s.account cs)
      (Service.called_submit s.floor.watermark.core s.floor.journal (.external name time))
  | file r =>
    simp only [step, saved] at moved
    split at moved <;> cases moved
    next path report here =>
      simp only [collectedBy, List.append_nil]
      cases r with
      | ok u => exact account_rests (by rw [here]; rfl)
      | error e => exact account_fails_alone rfl (by simp)

end Run

end PacedLoad
