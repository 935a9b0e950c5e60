import PacedLoad.Proofs.Run.Driver
import PacedLoad.Proofs.Run.Outline

/-!
# Every move of a run is a step of its outline

The functions of the driver are gone through one by one.  Most of them leave the
outline alone or bring the driver to its end; the others are the steps that
`Outline.Step` names.
-/

namespace PacedLoad

open Handler Watermark Outline

variable {β σ : Type} [Bookkeeping σ]

namespace Run

def Choice.talks : Choice → Bool
  | .peer .. => true
  | _ => false

/-- What a task has told the completion time service when it moved from one run to the next. -/
def heardFrom (s t : Run β σ) : Choice → List Sent
  | .task ticket _ => (s.floor.heard t.floor).map (⟨some ticket, ·⟩)
  | _ => []

/-- What the handlers tell the completion time service during several moves. -/
def told (s : Run β σ) : List Choice → List Sent
  | [] => []
  | c :: rest =>
    match s.step c with
    | some t => s.heardFrom t c ++ t.told rest
    | none => []

section Driver

variable {s : Run β σ} {told : List Sent} {talk : Bool}

/-- A driver that has come to its end stays there. -/
theorem outline_stays (past : s.stage.station = .ending) :
    Step talk (s.outline told) { s.outline told with station := .ending } := by
  rw [← past]
  exact .still

/-- A driver without an operation at hand looks after something else. -/
theorem outline_rests (free : s.stage.station = .between) :
    Step talk (s.outline told) { s.outline told with station := .between } := by
  rw [← free]
  exact .still

theorem outline_ends (free : ∀ op writer, s.stage.station ≠ .submit op writer) :
    Step talk (s.outline told) { s.outline told with station := .ending } :=
  .ends fun op writer here => absurd here (free op writer)

omit [Bookkeeping σ] in
theorem not_submit {station : Station} (here : s.stage.station = station)
    (other : ∀ op writer, station ≠ .submit op writer) (op : Operation) (writer : Nat) :
    s.stage.station ≠ .submit op writer := here ▸ other op writer

theorem pull_outline (here : s.stage.station = .between) :
    Step talk (s.outline told) (s.pull.outline told) := by
  have free := not_submit here nofun
  unfold pull
  split
  next => exact outline_rests here
  next e remaining _ => exact .ends fun op writer at_ => absurd at_ (free op writer)
  next op remaining next =>
    dsimp only
    split
    next first =>
      exact .pull here next (fun p known => by cases first.symm.trans known)
    next previous known =>
      split
      next => exact .ends fun op writer at_ => absurd at_ (free op writer)
      next late =>
        refine .pull here next (fun p known' => ?_)
        cases known.symm.trans known'
        exact Nat.le_of_not_lt late

omit [Bookkeeping σ] in
/-- A request that is sent adds a message. -/
theorem asked_outline (s : Run β σ) (told : List Sent) (r : Request)
    (running : s.floor.watermark.core.isOpen = true) :
    ∃ ticket watermark, s.floor.watermark.ask s.journal r = (watermark, .ok ticket) ∧
      (s.outline told).answers ticket = none ∧
      ∀ stage, ((s.withWatermark watermark).goTo stage).outline told =
        { (s.outline told).post (.request r ticket) with station := stage.station } := by
  simp only [Watermark.Service.ask, Service.ask_of_open running]
  refine ⟨_, _, rfl, Cell.valueAt_length s.floor.watermark.core.cells, fun stage => ?_⟩
  simp only [outline, goTo, withWatermark, post, Cell.valueAt_append_fresh]

omit [Bookkeeping σ] in
/-- A request that can not be sent changes nothing that matters. -/
theorem unasked_outline (s : Run β σ) (told : List Sent) (r : Request)
    (stopped : s.floor.watermark.core.isOpen = false) :
    ∃ e watermark, s.floor.watermark.ask s.journal r = (watermark, .error e) ∧
      ∀ stage, ((s.withWatermark watermark).goTo stage).outline told =
        { s.outline told with station := stage.station } := by
  simp only [Watermark.Service.ask, Service.ask_of_closed stopped]
  refine ⟨_, _, rfl, fun stage => ?_⟩
  simp only [outline, goTo, withWatermark, Cell.valueAt_append_fresh]

theorem enrol_outline {op : Operation} (here : s.stage.station = .enrol op) :
    Step talk (s.outline told) ((s.enrol op).outline told) := by
  unfold enrol
  split
  next turn =>
    cases running : s.floor.watermark.core.isOpen with
    | true =>
      obtain ⟨ticket, watermark, asked, unanswered, after⟩ :=
        asked_outline s told .register running
      rw [asked]
      dsimp only
      rw [after]
      exact .ask here turn (Service.isOpen_iff.mp running) unanswered
    | false =>
      obtain ⟨e, watermark, asked, after⟩ := unasked_outline s told .register running
      rw [asked]
      dsimp only [fail]
      rw [after]
      exact outline_ends (not_submit here nofun)
  next turn => exact .known here turn

omit [Bookkeeping σ] in
/-- Taking up the answer to a registration leaves no trace but the writer's number. -/
theorem pollRegistration_some {w after : Watermark.Service σ} {j : Journal} {expired : Bool}
    {ticket : Nat} {r : Except ServiceError Nat}
    (polled : w.pollRegistration j expired ticket = some (after, r)) :
    after.core.worker = w.core.worker ∧ after.core.queue = w.core.queue ∧
      Cell.valueAt after.core.cells = Cell.valueAt w.core.cells ∧
      ∀ id, r = .ok id → Cell.valueAt w.core.cells ticket = some (.writer id) := by
  obtain ⟨answer, answered, mapped⟩ := Option.map_eq_some_iff.mp polled
  have values : Cell.valueAt (w.core.modifyCell ticket Cell.dropPending).cells =
      Cell.valueAt w.core.cells := Cell.valueAt_modify Cell.dropPending (fun _ => rfl) _ _
  cases answer with
  | error e =>
    cases mapped
    exact ⟨rfl, rfl, values, nofun⟩
  | ok a =>
    cases a with
    | time t =>
      cases mapped
      exact ⟨rfl, rfl, values, nofun⟩
    | writer id =>
      cases mapped
      refine ⟨rfl, rfl, values, fun id' same => ?_⟩
      cases same
      exact Service.answer_ok answered

theorem enrolling_outline {op : Operation} {ticket : Nat} (expired : Bool)
    (here : s.stage.station = .enrolling op ticket) :
    Step talk (s.outline told) ((s.enrolling expired op ticket).outline told) := by
  unfold enrolling
  split
  next => exact .still
  next watermark writer polled =>
    obtain ⟨worker, queue, values, answered⟩ := pollRegistration_some polled
    have after : ({ s.withWatermark watermark with
        writers := s.writers ++ [writer], stage := .announce op } : Run β σ).outline told =
        { s.outline told with writers := s.writers ++ [writer], station := .announce op } := by
      simp only [outline, withWatermark, worker, queue, values]
      rfl
    rw [after]
    exact .enrolled here (answered writer rfl)
  next watermark e polled =>
    obtain ⟨worker, queue, values, -⟩ := pollRegistration_some polled
    have after : ((s.withWatermark watermark).fail (.watermark e)).outline told =
        { s.outline told with station := .ending } := by
      simp only [outline, fail, goTo, withWatermark, worker, queue, values]
      rfl
    rw [after]
    exact outline_ends (not_submit here nofun)

theorem announce_outline {t : Run β σ} {op : Operation} (here : s.stage.station = .announce op)
    (moved : s.announce op = some t) : Step talk (s.outline told) (t.outline told) := by
  obtain ⟨writer, turn, moved⟩ := Option.map_eq_some_iff.mp moved
  subst moved
  rcases s.floor.announce_cases op writer with ⟨running, up⟩ |
    ⟨floor, e, refused, pool, policy, worker, queue, cells⟩
  · obtain ⟨floor, announced, pool, policy, core⟩ := Floor.announce_open op writer running up
    rw [announced]
    have after : ({ s with floor, stage := .submit op writer } : Run β σ).outline told =
        { (s.outline told).post (.event (.initiated writer op.scheduledStart)) with
          station := .submit op writer } := by
      simp only [outline, pool, policy, core]
      rfl
    dsimp only
    rw [after]
    exact .announce here turn (Service.isOpen_iff.mp running)
  · rw [refused]
    have after : ({ s with floor }.fail (.execution e)).outline told =
        { s.outline told with station := .ending } := by
      simp only [outline, fail, goTo, pool, policy, worker, queue, cells]
      rfl
    rw [after]
    exact outline_ends (not_submit here nofun)

theorem submit_outline {op : Operation} {writer : Nat}
    (here : s.stage.station = .submit op writer) :
    Step talk (s.outline told) ((s.submit op writer).outline told) := by
  unfold submit Floor.submit
  cases success : s.floor.pool.submit op writer s.work with
  | error e => exact .ends fun _ _ _ => Pool.submit_error success
  | ok pool =>
    obtain ⟨before, after, tasks⟩ := Pool.submit_ok success
    have same : ({ s with
        floor := { s.floor with pool }, submitted := s.submitted + 1, stage := .window } :
          Run β σ).outline told =
        { s.outline told with
          jobs := (s.outline told).jobs ++ [⟨op, writer, s.work, .waiting, false⟩]
          submitted := s.submitted + 1
          station := .between } := by
      simp only [outline, Pool.jobs, tasks, List.map_append, before, after]
      rfl
    dsimp only
    rw [same]
    exact .submit here

omit [Bookkeeping σ] in
/-- Taking an outcome leaves the outline alone. -/
theorem take_outline {t : Run β σ} {outcome : Outcome} (taken : s.take = some (outcome, t))
    (told : List Sent) :
    t.outline told = s.outline told ∧ t.stage = s.stage := by
  obtain ⟨⟨outcome', pool⟩, took, same⟩ := Option.map_eq_some_iff.mp taken
  cases same
  obtain ⟨-, -, -, -, -, closing, -⟩ := Pool.tryTake_some took
  simp only [outline, Pool.jobs_tryTake took, closing, and_self]

omit [Bookkeeping σ] in
/-- What collecting an outcome does to the outline. -/
theorem collect_outline (s : Run β σ) (told : List Sent) (outcome : Outcome) :
    (s.collect outcome).outline told = s.outline told ∨
      (s.collect outcome).outline told = { s.outline told with station := .ending } := by
  unfold collect
  split
  next =>
    split
    · exact .inl rfl
    · exact .inr rfl
  next =>
    split
    · exact .inr rfl
    · exact .inl rfl

/-- A driver without an operation at hand takes an outcome and goes on or comes to its end. -/
theorem collected_outline {t : Run β σ} {outcome : Outcome} (free : s.stage.station = .between)
    (taken : s.take = some (outcome, t)) :
    Step talk (s.outline told) ((t.collect outcome).outline told) := by
  obtain ⟨same, -⟩ := take_outline taken told
  rcases collect_outline t told outcome with kept | ended
  · rw [kept, same]
    exact .still
  · rw [ended, same]
    exact outline_ends (not_submit free nofun)

/-- What a look for the next outcome does to the outline of a driver that has none at hand. -/
theorem next_outline {done : Stage} (free : s.stage.station = .between)
    (after : done.station = .between ∨ done.station = .ending) :
    Step talk (s.outline told) ((s.next done).outline told) := by
  have finishes : Step talk (s.outline told) { s.outline told with station := .ending } :=
    outline_ends (not_submit free nofun)
  unfold next
  split
  next outcome t taken => exact collected_outline free taken
  next =>
    split
    · change Step talk _ { s.outline told with station := done.station }
      rcases after with between | ending
      · rw [between]
        exact outline_rests free
      · rw [ending]
        exact finishes
    · split
      · exact finishes
      · exact .still

theorem interrupt_outline (past : s.stage.station = .ending) (ending : Except RunError Unit) :
    Step talk (s.outline told) (({ s with
      floor := { s.floor with pool := s.floor.pool.shutdownNow }, stage := .clear ending } :
        Run β σ).outline told) := by
  have after : ({ s with
      floor := { s.floor with pool := s.floor.pool.shutdownNow }, stage := .clear ending } :
        Run β σ).outline told = { s.outline told with closing := true } := by
    simp only [outline, past]
    rfl
  rw [after]
  exact .close past

theorem clear_outline (past : s.stage.station = .ending) (ending : Except RunError Unit) :
    Step talk (s.outline told) ((s.clear ending).outline told) := by
  unfold clear
  split
  next outcome t taken =>
    rw [(take_outline taken told).1]
    exact .still
  next =>
    split
    · split <;> exact outline_stays past
    · exact .still

theorem readTime_outline (past : s.stage.station = .ending) :
    Step talk (s.outline told) (s.readTime.outline told) := by
  unfold readTime
  cases running : s.floor.watermark.core.isOpen with
  | true =>
    obtain ⟨ticket, watermark, asked, -, after⟩ := asked_outline s told .read running
    rw [asked]
    dsimp only
    rw [after]
    have same : { (s.outline told).post (.request .read ticket) with station := .ending } =
        (s.outline told).post (.request .read ticket) := by
      rw [← past]
      rfl
    simp only [Stage.station, same]
    exact .wind past (Service.isOpen_iff.mp running) (.inl ⟨ticket, rfl⟩)
  | false =>
    obtain ⟨e, watermark, asked, after⟩ := unasked_outline s told .read running
    rw [asked]
    dsimp only [giveUp]
    rw [after]
    exact outline_stays past

theorem readingTime_outline (past : s.stage.station = .ending) (expired : Bool) (ticket : Nat) :
    Step talk (s.outline told) ((s.readingTime expired ticket).outline told) := by
  have values : Cell.valueAt (s.floor.watermark.core.modifyCell ticket Cell.dropPending).cells =
      Cell.valueAt s.floor.watermark.core.cells :=
    Cell.valueAt_modify Cell.dropPending (fun _ => rfl) _ _
  have after : ∀ stage, ((s.withWatermark { s.floor.watermark with
      core := s.floor.watermark.core.modifyCell ticket Cell.dropPending }).goTo stage).outline told =
      { s.outline told with station := stage.station } := by
    intro stage
    simp only [outline, goTo, withWatermark, values]
    rfl
  unfold readingTime
  cases polled : s.floor.watermark.pollReading s.journal expired ticket with
  | none => exact .still
  | some polled' =>
    obtain ⟨watermark, r⟩ := polled'
    obtain ⟨answer, -, mapped⟩ := Option.map_eq_some_iff.mp polled
    cases mapped
    cases answer with
    | error e =>
      simp only [Except.map, giveUp, after]
      exact outline_stays past
    | ok a =>
      simp only [Except.map, after]
      exact outline_stays past

omit [Bookkeeping σ] in
/-- What comes after the end is still the end. -/
theorem goTo_outline (past : s.stage.station = .ending) (told : List Sent) {stage : Stage}
    (also : stage.station = .ending) : (s.goTo stage).outline told = s.outline told := by
  simp only [outline, goTo, past, also]

omit [Bookkeeping σ] in
theorem watermarkStopped_outline (past : s.stage.station = .ending) (told : List Sent)
    (ending : Except RunError (Option Instant)) (stopped : Except ServiceError Unit) :
    (s.watermarkStopped ending stopped).outline told = s.outline told := by
  unfold watermarkStopped
  split <;> exact goTo_outline past told rfl

omit [Bookkeeping σ] in
theorem statsStopped_outline (past : s.stage.station = .ending) (told : List Sent)
    (ending : Except RunError Report) (stopped : Except ServiceError Unit) :
    (s.statsStopped ending stopped).outline told = s.outline told := by
  unfold statsStopped
  split
  · exact goTo_outline past told rfl
  · split <;> exact goTo_outline past told rfl
  · exact goTo_outline past told rfl

omit [Bookkeeping σ] in
/-- A service that is to stop is sent the last message, if it runs and was not told before. -/
theorem beginShutdown_cases (w : Watermark.Service σ) (j : Journal) :
    ∃ after r, w.beginShutdown j = (after, r) ∧ after.core.worker = w.core.worker ∧
      after.core.cells = w.core.cells ∧
      ((r ≠ .ok true ∧ after.core.queue = w.core.queue) ∨
        (r = .ok true ∧ w.core.isOpen = true ∧
          after.core.queue = w.core.queue ++ [.terminate w.core.counted])) := by
  unfold Watermark.Service.beginShutdown Service.refuse
  cases w.core.shuttingDown with
  | true => exact ⟨_, _, rfl, rfl, rfl, .inl ⟨nofun, rfl⟩⟩
  | false =>
    let refusing := { w.core with shuttingDown := true }
    cases running : w.core.isOpen with
    | true =>
      have sent := Service.send_of_open (s := refusing) running j (.terminate w.core.counted)
      simp only [Service.terminate, refusing, Bool.false_eq_true, if_false] at sent ⊢
      rw [sent]
      exact ⟨_, _, rfl, rfl, rfl, .inr ⟨rfl, trivial, rfl⟩⟩
    | false =>
      have sent := Service.send_of_closed (s := refusing) running j (.terminate w.core.counted)
      simp only [Service.terminate, refusing, Bool.false_eq_true, if_false] at sent ⊢
      rw [sent]
      exact ⟨_, _, rfl, rfl, rfl, .inl ⟨nofun, rfl⟩⟩

theorem stopWatermark_outline (past : s.stage.station = .ending)
    (ending : Except RunError (Option Instant)) :
    Step talk (s.outline told) ((s.stopWatermark ending).outline told) := by
  obtain ⟨watermark, r, begun, worker, cells, ⟨other, queue⟩ | ⟨rfl, running, queue⟩⟩ :=
    beginShutdown_cases s.floor.watermark s.journal
  · have same : (s.withWatermark watermark).outline told = s.outline told := by
      simp only [outline, withWatermark, worker, cells, queue]
    have stopped : ∀ r', Step talk (s.outline told)
        (((s.withWatermark watermark).watermarkStopped ending r').outline told) := by
      intro r'
      have still := watermarkStopped_outline (s := s.withWatermark watermark) past told ending r'
      rw [still, same]
      exact .still
    unfold stopWatermark
    rw [begun]
    cases r with
    | error e => exact stopped _
    | ok b =>
      cases b with
      | true => exact absurd rfl other
      | false => exact stopped _
  · unfold stopWatermark
    rw [begun]
    have after : ((s.withWatermark watermark).goTo (.stoppingWatermark ending)).outline told =
        (s.outline told).post (.terminate s.floor.watermark.core.counted) := by
      simp only [outline, goTo, withWatermark, post, worker, cells, queue, past]
      rfl
    dsimp only
    rw [after]
    exact .wind past (Service.isOpen_iff.mp running) (.inr ⟨_, rfl⟩)

theorem stoppingWatermark_outline (past : s.stage.station = .ending) (expired : Bool)
    (ending : Except RunError (Option Instant)) :
    Step talk (s.outline told) ((s.stoppingWatermark expired ending).outline told) := by
  unfold stoppingWatermark
  split
  · exact .still
  · rw [watermarkStopped_outline past told]
    exact .still

theorem readStats_outline (past : s.stage.station = .ending) (gct : Option Instant) :
    Step talk (s.outline told) ((s.readStats gct).outline told) := by
  unfold readStats
  split <;> exact outline_stays past

theorem readingStats_outline (past : s.stage.station = .ending) (expired : Bool)
    (gct : Option Instant) (ticket : Nat) :
    Step talk (s.outline told) ((s.readingStats expired gct ticket).outline told) := by
  unfold readingStats
  split
  · exact .still
  · exact outline_stays past
  · exact outline_stays past
  · exact outline_stays past

theorem stopStats_outline (past : s.stage.station = .ending) (ending : Except RunError Report) :
    Step talk (s.outline told) ((s.stopStats ending).outline told) := by
  unfold stopStats
  split
  · exact outline_stays past
  all_goals
    rw [statsStopped_outline]
    · exact .still
    · exact past

theorem stoppingStats_outline (past : s.stage.station = .ending) (expired : Bool)
    (ending : Except RunError Report) :
    Step talk (s.outline told) ((s.stoppingStats expired ending).outline told) := by
  unfold stoppingStats
  split
  · exact .still
  · rw [statsStopped_outline past told]
    exact .still

/-- Every step of the driver is a step of the outline. -/
theorem stepDriver_outline {t : Run β σ} {expired : Bool}
    (moved : s.stepDriver expired = some t) : Step talk (s.outline told) (t.outline told) := by
  cases driven_of_step moved with
  | pull here => exact pull_outline (by rw [here]; rfl)
  | enrol here => exact enrol_outline (by rw [here]; rfl)
  | enrolling here => exact enrolling_outline expired (by rw [here]; rfl)
  | announce here announced => exact announce_outline (by rw [here]; rfl) announced
  | submit here => exact submit_outline (by rw [here]; rfl)
  | room here => exact outline_rests (by rw [here]; rfl)
  | full here => exact next_outline (by rw [here]; rfl) (.inl rfl)
  | sweep here taken => exact collected_outline (by rw [here]; rfl) taken
  | swept here => exact outline_rests (by rw [here]; rfl)
  | check here =>
    have free : s.stage.station = .between := by rw [here]; rfl
    split
    · exact outline_ends (not_submit free nofun)
    · exact outline_rests free
  | drain here => exact next_outline (by rw [here]; rfl) (.inr rfl)
  | interrupt here => exact interrupt_outline (by rw [here]; rfl) _
  | clear here => exact clear_outline (by rw [here]; rfl) _
  | readTime here => exact readTime_outline (by rw [here]; rfl)
  | readingTime here => exact readingTime_outline (by rw [here]; rfl) expired _
  | stopWatermark here => exact stopWatermark_outline (by rw [here]; rfl) _
  | stoppingWatermark here => exact stoppingWatermark_outline (by rw [here]; rfl) expired _
  | readStats here => exact readStats_outline (by rw [here]; rfl) _
  | readingStats here => exact readingStats_outline (by rw [here]; rfl) expired _ _
  | stopStats here => exact stopStats_outline (by rw [here]; rfl) _
  | stoppingStats here => exact stoppingStats_outline (by rw [here]; rfl) expired _

end Driver

/-- The job of a task is in the same phase, and asks for the same. -/
theorem jobs_some {p : Pool β} {ticket : Nat} {t : Task β} (found : p.tasks[ticket]? = some t) :
    p.jobs[ticket]? = some t.untaken := by
  rw [Pool.jobs_getElem?, found]
  rfl

theorem stepTask_outline {s : Run β σ} {floor : Floor β σ} {ticket : Nat} {now : Instant}
    (told : List Sent) (talk : Bool) (moved : s.floor.stepTask ticket now = some floor) :
    Step talk (s.outline told) (({ s with floor } : Run β σ).outline
      (told ++ (s.floor.heard floor).map (⟨some ticket, ·⟩))) := by
  obtain ⟨t, need, e, found, needs, answers, service, policy, pool⟩ := Floor.stepTask_some moved
  have job : (s.outline told).jobs[ticket]? = some t.untaken := jobs_some found
  have jobs : floor.pool.jobs = s.floor.pool.jobs.modify ticket
      fun u => { u with phase := t.phase.next t.operation s.floor.policy.tolerated e } := by
    rw [pool, Pool.jobs_move]
  have closing : floor.pool.shutDown = s.floor.pool.shutDown := by rw [pool, Pool.shutDown_move]
  by_cases submits : need = .submission
  · subst submits
    cases running : s.floor.watermark.core.isOpen with
    | true =>
      obtain ⟨core, accepted⟩ := Floor.serviceAfter_open t running
      have answered : e = .submission (.ok ()) := by
        rw [← accepted]
        exact answers
      subst answered
      rw [← service] at core
      have sent : s.floor.heard floor = [.completed t.writer t.operation.scheduledStart] :=
        Floor.heard_event (by rw [core])
      have after : ({ s with floor } : Run β σ).outline
          (told ++ (s.floor.heard floor).map (⟨some ticket, ·⟩)) =
          { ((s.outline told).advance ticket (t.phase.next t.operation s.floor.policy.tolerated
              (.submission (.ok ())))).post
                (.event (.completed t.writer t.operation.scheduledStart)) with
            told := told ++ [⟨some ticket, .completed t.writer t.operation.scheduledStart⟩] } := by
        simp only [outline, advance, post, jobs, closing, policy, core, sent]
        rfl
      rw [after]
      exact .complete (t := t.untaken) job needs (Service.isOpen_iff.mp running)
    | false =>
      obtain ⟨core, failed⟩ := Floor.serviceAfter_closed t running
      have answered : e = .submission (.error (Service.closedError s.floor.journal)) := by
        rw [← failed]
        exact answers
      subst answered
      rw [← service] at core
      have silent : s.floor.heard floor = [] := Floor.heard_same (by rw [core])
      have after : ({ s with floor } : Run β σ).outline
          (told ++ (s.floor.heard floor).map (⟨some ticket, ·⟩)) =
          (s.outline told).advance ticket (t.phase.next t.operation s.floor.policy.tolerated
            (.submission (.error (Service.closedError s.floor.journal)))) := by
        simp only [outline, advance, jobs, closing, policy, core, silent, List.map_nil,
          List.append_nil]
      rw [after]
      refine .refused (t := t.untaken) job needs fun alive => ?_
      rw [Service.isOpen_iff.mpr alive] at running
      cases running
  · rw [Floor.serviceAfter_of_ne submits] at service
    have silent : s.floor.heard floor = [] := Floor.heard_same (by rw [service])
    have after : ({ s with floor } : Run β σ).outline
        (told ++ (s.floor.heard floor).map (⟨some ticket, ·⟩)) =
        (s.outline told).advance ticket (t.phase.next t.operation s.floor.policy.tolerated e) := by
      simp only [outline, advance, jobs, closing, policy, service, silent, List.map_nil,
        List.append_nil]
    rw [after]
    refine .answer (t := t.untaken) job needs ?_
    cases need <;> first | exact answers | exact absurd rfl submits

theorem interrupt_task_outline {s : Run β σ} {floor : Floor β σ} {ticket : Nat} (told : List Sent)
    (talk : Bool) (moved : s.floor.interrupt ticket = some floor) :
    Step talk (s.outline told) (({ s with floor } : Run β σ).outline told) := by
  obtain ⟨pool, stopped, rfl⟩ := Option.map_eq_some_iff.mp moved
  obtain ⟨t, found, closing, interruptible, rfl⟩ := Pool.interrupt_some stopped
  have job : (s.outline told).jobs[ticket]? = some t.untaken := jobs_some found
  let pool := s.floor.pool.move ticket t.phase (.finished (.error (.interrupted t.operation.id)))
  have after : ({ s with floor := { s.floor with pool } } : Run β σ).outline told =
      (s.outline told).advance ticket (.finished (.error (.interrupted t.operation.id))) := by
    simp only [pool, outline, advance, Pool.jobs_move, Pool.shutDown_move]
  rw [after]
  exact .interruption (t := t.untaken) job closing interruptible

theorem stepWatermark_outline {s : Run β σ} {floor : Floor β σ} (told : List Sent) (talk : Bool)
    (moved : s.floor.stepWatermark = some floor) :
    Step talk (s.outline told) (({ s with floor } : Run β σ).outline told) := by
  obtain ⟨some, service, pool, policy⟩ := Floor.stepWatermark_some moved
  have core : floor.watermark.core =
      (s.floor.watermark.core.deliver duty Instant.first s.floor.journal).1 := by
    rw [service]
    rfl
  cases running : s.floor.watermark.core.isOpen with
  | false =>
    rw [Service.deliver_closed running] at core
    have same : ({ s with floor } : Run β σ).outline told = s.outline told := by
      simp only [outline, core, pool, policy]
    rw [same]
    exact .still
  | true =>
    obtain ⟨m, rest, oldest⟩ := List.exists_cons_of_ne_nil some
    obtain ⟨worker, queue⟩ :=
      Service.deliver_cons duty Instant.first s.floor.journal running oldest
    rw [← core] at worker queue
    have after : ({ s with floor } : Run β σ).outline told = { s.outline told with
        worker := (s.floor.watermark.core.worker.receive duty Instant.first s.floor.journal m).1
        queue := if (s.floor.watermark.core.worker.receive duty Instant.first s.floor.journal
          m).1.phase = .running then rest else []
        answers := Cell.valueAt floor.watermark.core.cells } := by
      simp only [outline, worker, queue, pool, policy]
    rw [after]
    refine .deliver (Service.isOpen_iff.mp running) oldest fun ticket a held => ?_
    rw [core] at held
    exact Service.deliver_values running oldest held

theorem peer_outline (s : Run β σ) (told : List Sent) (name : String) (time : Instant) :
    Step true (s.outline told) ((s.peer name time).1.outline told) := by
  cases running : s.floor.watermark.core.isOpen with
  | true =>
    simp only [peer, Watermark.Service.submitExternal, Service.submit_of_open running]
    exact .peer rfl (Service.isOpen_iff.mp running)
  | false =>
    simp only [peer, Watermark.Service.submitExternal, Service.submit_of_closed running]
    exact .still

/-- Every move of a run is a step of its outline. -/
theorem step_outline {s t : Run β σ} {c : Choice} (told : List Sent) (moved : s.step c = some t) :
    Step c.talks (s.outline told) (t.outline (told ++ s.heardFrom t c)) := by
  cases c with
  | driver expired =>
    simpa only [heardFrom, List.append_nil] using stepDriver_outline moved
  | task ticket now =>
    obtain ⟨floor, stepped, rfl⟩ := Option.map_eq_some_iff.mp moved
    exact stepTask_outline told _ stepped
  | interruption ticket =>
    obtain ⟨floor, stepped, rfl⟩ := Option.map_eq_some_iff.mp moved
    simpa only [heardFrom, List.append_nil] using interrupt_task_outline told _ stepped
  | watermark =>
    obtain ⟨floor, stepped, rfl⟩ := Option.map_eq_some_iff.mp moved
    simpa only [heardFrom, List.append_nil] using stepWatermark_outline told _ stepped
  | stats now =>
    simp only [step, stepStats] at moved
    split at moved <;> cases moved
    simp only [heardFrom, List.append_nil]
    exact .still
  | peer name time =>
    cases moved
    simp only [heardFrom, List.append_nil]
    exact peer_outline s told name time
  | file r =>
    simp only [step, saved] at moved
    split at moved <;> cases moved
    next path report here =>
      have past : s.stage.station = .ending := by rw [here]; rfl
      simp only [heardFrom, List.append_nil]
      exact outline_stays past

end Run

end PacedLoad
