import PacedLoad.Proofs.Run.Counting
import PacedLoad.Proofs.Watermark.Books

/-!
# Runs that keep different books

No function of a run but the worker's looks into the books of the completion time
service; they are gone through one by one.  Therefore a run that counts the copies of
its times on a board and the run that lists them make the same moves, as long as the
copies can be counted, and what holds of the second holds of the first.
-/

namespace PacedLoad

open Handler Watermark

variable {β σ τ : Type}

namespace Floor

def map (f : σ → τ) (fl : Floor β σ) : Floor β τ := { fl with watermark := fl.watermark.map f }

variable (f : σ → τ) (fl : Floor β σ)

theorem pool_map : (fl.map f).pool = fl.pool := rfl

theorem announce_map (op : Operation) (w : Nat) :
    (fl.map f).announce op w = (fl.announce op w).map (map f) id := by
  have sent := fl.watermark.submitInitiated_map f fl.journal w op.scheduledStart
  exact congrArg (fun r => (Floor.mk r.1 fl.journal fl.policy fl.pool fl.shared,
    r.2.mapError (ExecutionError.completionTime op.id))) sent

theorem submit_map (op : Operation) (w : Nat) (work : Work β) :
    (fl.map f).submit op w work = (fl.submit op w work).map (map f) id := by
  simp only [submit, pool_map]
  cases fl.pool.submit op w work <;> rfl

theorem respond_map (ticket : Nat) (t : Task β) (now : Instant) (need : Need) :
    (fl.map f).respond ticket t now need =
      (fl.respond ticket t now need).map (Prod.map (map f) id) := by
  cases need with
  | clock | watermark | verdict => rfl
  | slot =>
    simp only [respond]
    change (if fl.pool.shutDown then _ else if fl.pool.admits ticket then _ else _) = _
    split
    · rfl
    · split <;> rfl
  | body =>
    simp only [respond]
    change (t.work fl.shared t.operation).map _ = _
    rw [Option.map_map]
    rfl
  | submission =>
    have sent := fl.watermark.submitCompleted_map f fl.journal t.writer t.operation.scheduledStart
    exact congrArg (fun r => some ({ fl with watermark := r.1 }, Handler.Event.submission r.2)) sent

theorem stepTask_map (ticket : Nat) (now : Instant) :
    (fl.map f).stepTask ticket now = (fl.stepTask ticket now).map (map f) := by
  simp only [stepTask]
  change (fl.pool.tasks[ticket]?.bind _) = (fl.pool.tasks[ticket]?.bind _).map _
  cases fl.pool.tasks[ticket]? with
  | none => rfl
  | some t =>
    simp only [Option.bind_some]
    change (t.phase.need.bind _) = (t.phase.need.bind _).map _
    cases t.phase.need with
    | none => rfl
    | some need =>
      simp only [Option.bind_some, respond_map]
      cases fl.respond ticket t now need <;> rfl

theorem stepWatermark_map [Bookkeeping σ] [Bookkeeping τ] {f : σ → τ} {fl : Floor β σ}
    (same : (fl.watermark.map f).deliver fl.journal =
      (fl.watermark.deliver fl.journal).map (Watermark.Service.map f) id) :
    (fl.map f).stepWatermark = fl.stepWatermark.map (map f) := by
  unfold stepWatermark
  change (if fl.watermark.core.queue.isEmpty then _ else _) = _
  split
  · rfl
  · exact congrArg (fun r => some (Floor.mk r.1 r.2 fl.policy fl.pool fl.shared)) same

theorem interrupt_map (ticket : Nat) :
    (fl.map f).interrupt ticket = (fl.interrupt ticket).map (map f) := by
  unfold interrupt
  rw [Option.map_map]
  rfl

end Floor

namespace Run

def map (f : σ → τ) (s : Run β σ) : Run β τ := { s with floor := s.floor.map f }

variable (s : Run β σ) (f : σ → τ)

/-! The books are not among these parts. -/

theorem config_map : (s.map f).config = s.config := rfl

theorem work_map : (s.map f).work = s.work := rfl

theorem stats_map : (s.map f).stats = s.stats := rfl

theorem stage_map : (s.map f).stage = s.stage := rfl

theorem journal_map : (s.map f).journal = s.journal := rfl

theorem floor_map : (s.map f).floor = s.floor.map f := rfl

theorem watermark_map : (s.map f).floor.watermark = s.floor.watermark.map f := rfl

/-! ## The driver -/

theorem pull_map : (s.map f).pull = s.pull.map f := by
  unfold pull
  rcases s with ⟨config, work, floor, stats, upcoming, submitted, previous, writers, failed, stage⟩
  dsimp only [map]
  rcases upcoming with - | ⟨e | op, rest⟩
  · rfl
  · rfl
  · cases previous with
    | none => rfl
    | some p =>
      dsimp only
      split <;> rfl

theorem enrol_map (op : Operation) : (s.map f).enrol op = (s.enrol op).map f := by
  unfold enrol
  change (if s.slot = s.writers.length then _ else _) = _
  split
  next =>
    rw [watermark_map, journal_map, Watermark.Service.ask_map]
    rcases s.floor.watermark.ask s.journal .register with ⟨watermark, e | ticket⟩ <;> rfl
  next => rfl

theorem enrolling_map (expired : Bool) (op : Operation) (ticket : Nat) :
    (s.map f).enrolling expired op ticket = (s.enrolling expired op ticket).map f := by
  unfold enrolling
  rw [watermark_map, journal_map, Watermark.Service.pollRegistration_map]
  rcases s.floor.watermark.pollRegistration s.journal expired ticket with
    - | ⟨watermark, e | ticket⟩ <;> rfl

theorem announce_map (op : Operation) :
    (s.map f).announce op = (s.announce op).map (map f) := by
  unfold announce
  rw [Option.map_map]
  refine congrArg (Option.map · _) (funext fun writer => ?_)
  rw [floor_map, Floor.announce_map]
  dsimp only [Function.comp]
  rcases s.floor.announce op writer with ⟨floor, e | ⟨⟨⟩⟩⟩ <;> rfl

theorem submit_map (op : Operation) (writer : Nat) :
    (s.map f).submit op writer = (s.submit op writer).map f := by
  unfold submit
  rw [floor_map, work_map, Floor.submit_map]
  rcases s.floor.submit op writer s.work with ⟨floor, e | ⟨⟨⟩⟩⟩ <;> rfl

theorem collect_map (outcome : Outcome) : (s.map f).collect outcome = (s.collect outcome).map f := by
  rcases outcome with e | result
  · unfold collect
    change (if s.config.abortOnFailure then _ else _) = _
    dsimp only
    split <;> rfl
  · simp only [collect, stats_map, journal_map]
    rcases s.stats.submit s.journal result with ⟨stats, e | ⟨⟨⟩⟩⟩ <;> rfl

theorem take_map : (s.map f).take = s.take.map (Prod.map id (map f)) := by
  unfold take
  rw [Option.map_map]
  rfl

theorem next_map (done : Stage) : (s.map f).next done = (s.next done).map f := by
  unfold next
  rw [take_map]
  rcases s.take with - | ⟨outcome, t⟩
  · change (if s.inFlight = 0 then _ else if s.journal.hasErrors then _ else _) = _
    dsimp only
    split
    · rfl
    · split <;> rfl
  · exact t.collect_map f outcome

theorem clear_map (ending : Except RunError Unit) :
    (s.map f).clear ending = (s.clear ending).map f := by
  unfold clear
  rw [take_map]
  rcases s.take with - | ⟨outcome, t⟩
  · change (if s.inFlight = 0 then _ else _) = _
    dsimp only
    split
    · rcases ending with e | ⟨⟨⟩⟩ <;> rfl
    · rfl
  · rfl

theorem watermarkStopped_map (ending : Except RunError (Option Instant))
    (stopped : Except ServiceError Unit) :
    (s.map f).watermarkStopped ending stopped = (s.watermarkStopped ending stopped).map f := by
  rcases ending with e | gct
  · rfl
  · rcases stopped with e | ⟨⟨⟩⟩ <;> rfl

theorem statsStopped_map (ending : Except RunError Report)
    (stopped : Except ServiceError Unit) :
    (s.map f).statsStopped ending stopped = (s.statsStopped ending stopped).map f := by
  rcases ending with e | report
  · rfl
  · rcases stopped with e | ⟨⟨⟩⟩
    · rfl
    · simp only [statsStopped, config_map]
      cases s.config.resultsJson <;> rfl

theorem readTime_map : (s.map f).readTime = s.readTime.map f := by
  unfold readTime
  rw [watermark_map, journal_map, Watermark.Service.ask_map]
  rcases s.floor.watermark.ask s.journal .read with ⟨watermark, e | ticket⟩ <;> rfl

theorem readingTime_map (expired : Bool) (ticket : Nat) :
    (s.map f).readingTime expired ticket = (s.readingTime expired ticket).map f := by
  unfold readingTime
  rw [watermark_map, journal_map, Watermark.Service.pollReading_map]
  rcases s.floor.watermark.pollReading s.journal expired ticket with
    - | ⟨watermark, e | gct⟩ <;> rfl

theorem stopWatermark_map (ending : Except RunError (Option Instant)) :
    (s.map f).stopWatermark ending = (s.stopWatermark ending).map f := by
  unfold stopWatermark
  rw [watermark_map, journal_map, Watermark.Service.beginShutdown_map]
  rcases s.floor.watermark.beginShutdown s.journal with ⟨watermark, e | begun⟩
  · exact watermarkStopped_map (s.withWatermark watermark) f ending (.error e)
  · cases begun with
    | true => rfl
    | false => exact watermarkStopped_map (s.withWatermark watermark) f ending (.ok ())

theorem stoppingWatermark_map (expired : Bool) (ending : Except RunError (Option Instant)) :
    (s.map f).stoppingWatermark expired ending = (s.stoppingWatermark expired ending).map f := by
  unfold stoppingWatermark
  rw [show (s.map f).floor.watermark.pollShutdown (s.map f).journal expired =
    s.floor.watermark.pollShutdown s.journal expired from rfl]
  cases s.floor.watermark.pollShutdown s.journal expired with
  | none => rfl
  | some r => exact watermarkStopped_map s f ending r

theorem readStats_map (gct : Option Instant) : (s.map f).readStats gct = (s.readStats gct).map f := by
  unfold readStats
  rw [stats_map, journal_map]
  rcases s.stats.ask s.journal .snapshot with ⟨stats, e | ticket⟩ <;> rfl

theorem readingStats_map (expired : Bool) (gct : Option Instant) (ticket : Nat) :
    (s.map f).readingStats expired gct ticket = (s.readingStats expired gct ticket).map f := by
  unfold readingStats
  rw [stats_map, journal_map]
  rcases s.stats.pollAnswer s.journal expired .snapshot ticket with
    - | ⟨stats, e | ⟨snapshot | status⟩⟩ <;> rfl

theorem stopStats_map (ending : Except RunError Report) :
    (s.map f).stopStats ending = (s.stopStats ending).map f := by
  unfold stopStats
  rw [stats_map, journal_map]
  rcases s.stats.beginShutdown s.journal with ⟨stats, e | begun⟩
  · exact statsStopped_map { s with stats } f ending (.error e)
  · cases begun with
    | true => rfl
    | false => exact statsStopped_map { s with stats } f ending (.ok ())

theorem stoppingStats_map (expired : Bool) (ending : Except RunError Report) :
    (s.map f).stoppingStats expired ending = (s.stoppingStats expired ending).map f := by
  unfold stoppingStats
  rw [stats_map, journal_map]
  cases s.stats.pollShutdown s.journal expired with
  | none => rfl
  | some r => exact statsStopped_map s f ending r

theorem stepDriver_map (expired : Bool) :
    (s.map f).stepDriver expired = (s.stepDriver expired).map (map f) := by
  unfold stepDriver
  rw [stage_map]
  cases s.stage with
  | pull => exact congrArg some (s.pull_map f)
  | enrol op => exact congrArg some (s.enrol_map f op)
  | enrolling op ticket => exact congrArg some (s.enrolling_map f expired op ticket)
  | announce op => exact s.announce_map f op
  | submit op writer => exact congrArg some (s.submit_map f op writer)
  | window =>
    change (if s.inFlight < s.config.maxInFlightOperations then _ else _) = _
    dsimp only
    split
    · rfl
    · exact congrArg some (s.next_map f .sweep)
  | sweep =>
    simp only [take_map]
    rcases s.take with - | ⟨outcome, t⟩
    · rfl
    · exact congrArg some (t.collect_map f outcome)
  | check =>
    change some (if s.journal.hasErrors then _ else _) = _
    dsimp only
    split <;> rfl
  | drain => exact congrArg some (s.next_map f _)
  | interrupt ending => rfl
  | clear ending => exact congrArg some (s.clear_map f ending)
  | readTime => exact congrArg some (s.readTime_map f)
  | readingTime ticket => exact congrArg some (s.readingTime_map f expired ticket)
  | stopWatermark ending => exact congrArg some (s.stopWatermark_map f ending)
  | stoppingWatermark ending => exact congrArg some (s.stoppingWatermark_map f expired ending)
  | readStats gct => exact congrArg some (s.readStats_map f gct)
  | readingStats gct ticket => exact congrArg some (s.readingStats_map f expired gct ticket)
  | stopStats ending => exact congrArg some (s.stopStats_map f ending)
  | stoppingStats ending => exact congrArg some (s.stoppingStats_map f expired ending)
  | save path report => rfl
  | finished result => rfl

theorem stepStats_map (now : Instant) : (s.map f).stepStats now = (s.stepStats now).map (map f) := by
  unfold stepStats
  change (if s.stats.core.queue.isEmpty then _ else _) = _
  split <;> rfl

theorem peer_map (name : String) (time : Instant) :
    (s.map f).peer name time = (s.peer name time).map (map f) id := by
  have sent := s.floor.watermark.submitExternal_map f s.journal name time
  exact congrArg (fun r => (s.map f |>.withWatermark r.1, r.2)) sent

theorem saved_map (r : Except FileError Unit) : (s.map f).saved r = (s.saved r).map (map f) := by
  unfold saved
  rw [stage_map]
  cases s.stage <;> rfl

end Run

namespace Run

variable {s t : Run β Board} {c : Choice} {choices : List Choice} {peers : List String}
  {taken : List Letter}

/-- The run with the state that its board stands for. -/
def plain (s : Run β Board) : Run β := s.map Board.plain

/-- The worker keeps the board of the letters that it has taken. -/
def Keeps (peers : List String) (taken : List Letter) (s : Run β Board) : Prop :=
  s.floor.watermark.core.worker.state.state = (Board.start peers).replay (callsOf taken)

theorem Keeps.step (keeps : Keeps peers taken s) (moved : s.step c = some t) :
    Keeps peers (taken ++ s.takenBy c) t := by
  by_cases worker : c = .watermark
  · subst worker
    cases running : s.floor.watermark.core.isOpen with
    | true =>
      obtain ⟨m, rest, single, delivery⟩ := delivery_of_step [] moved running
      have after : t.floor.watermark.core.worker = _ := delivery.worker
      have calls : callsOf (taken ++ [m]) = callsOf taken ++ callsOf [m] := List.filterMap_append
      rw [Keeps, single, after, receive_board, calls, Board.replay_append]
      exact congrArg (Board.replay · (callsOf [m])) keeps
    | false =>
      obtain ⟨-, core⟩ := step_watermark moved
      rw [Service.deliver_closed running] at core
      have silent : s.takenBy .watermark = [] := by simp [takenBy, running]
      rw [silent, List.append_nil, Keeps, core]
      exact keeps
  · have silent : s.takenBy c = [] := by
      cases c <;> first | rfl | exact absurd rfl worker
    have kept := ((step_outline [] moved).rests (step_regards moved worker).grown).1
    change t.floor.watermark.core.worker = s.floor.watermark.core.worker at kept
    rw [silent, List.append_nil, Keeps, kept]
    exact keeps

/-- A move is possible for both, and leads them to the same. -/
theorem step_plain (keeps : Keeps peers taken s)
    (few : FewCopies peers (callsOf (taken ++ s.takenBy c))) :
    s.plain.step c = (s.step c).map plain := by
  cases c with
  | driver expired => exact s.stepDriver_map Board.plain expired
  | task ticket now =>
    change (s.floor.map Board.plain |>.stepTask ticket now).map _ = _
    rw [Floor.stepTask_map, Option.map_map, step, Option.map_map]
    rfl
  | interruption ticket =>
    change (s.floor.map Board.plain |>.interrupt ticket).map _ = _
    rw [Floor.interrupt_map, Option.map_map, step, Option.map_map]
    rfl
  | watermark =>
    have delivered : (s.floor.map Board.plain).stepWatermark =
        s.floor.stepWatermark.map (Floor.map Board.plain) := by
      refine Floor.stepWatermark_map (deliver_plain keeps fun m rest running waiting => ?_)
      simpa [takenBy, running, waiting] using few
    change (s.floor.map Board.plain).stepWatermark.map _ = _
    rw [delivered, Option.map_map, step, Option.map_map]
    rfl
  | stats now => exact s.stepStats_map Board.plain now
  | peer name time => exact congrArg (fun r => some r.1) (s.peer_map Board.plain name time)
  | file r => exact s.saved_map Board.plain r

/-- What the worker takes in the first of several moves. -/
theorem takenBy_first (s : Run β Board) (c : Choice) (rest : List Choice) :
    s.takenBy c <+: s.delivered (c :: rest) := by
  rw [delivered]
  cases moved : s.step c with
  | some t => exact List.prefix_append _ _
  | none =>
    cases c with
    | watermark =>
      have stuck : s.floor.watermark.core.queue.isEmpty = true := by
        by_contra waiting
        simp [step, Floor.stepWatermark, waiting] at moved
      simp [takenBy, List.isEmpty_iff.mp stuck]
    | _ => exact List.nil_prefix

/-- The same moves are possible for both, and lead them to the same. -/
theorem steps_plain (keeps : Keeps peers taken s)
    (few : FewCopies peers (callsOf (taken ++ s.delivered choices))) :
    s.plain.steps choices = (s.steps choices).map plain ∧
      s.plain.delivered choices = s.delivered choices ∧
      s.plain.collected choices = s.collected choices ∧
      s.plain.initiated choices = s.initiated choices := by
  induction choices generalizing s taken with
  | nil => exact ⟨rfl, rfl, rfl, rfl⟩
  | cons c rest ih =>
    have first : callsOf (taken ++ s.takenBy c) <+: callsOf (taken ++ s.delivered (c :: rest)) :=
      ((List.prefix_append_right_inj taken).mpr (s.takenBy_first c rest)).filterMap called
    have moves := step_plain keeps (few.of_prefix first)
    simp only [steps, delivered, collected, initiated, moves]
    cases moved : s.step c with
    | none => exact ⟨rfl, rfl, rfl, rfl⟩
    | some t =>
      simp only [delivered, moved, ← List.append_assoc] at few
      obtain ⟨ran, told, gathered, announced⟩ := ih (keeps.step moved) few
      exact ⟨ran, congrArg (s.takenBy c ++ ·) told, congrArg (s.collectedBy c ++ ·) gathered,
        congrArg (_ ++ ·) announced⟩

variable {config : Config} {now : Instant} {createLog : String → Except FileError Stats.Sink}
  {work : Work β} {shared : β} {operations : List (Except Rows.DecodingError Operation)}

/-- Both runs start, or neither does. -/
theorem start_plain :
    Run.start config now createLog work shared operations =
      (Run.start config now createLog work shared operations).map (plain : Run β Board → Run β) := by
  unfold Run.start
  cases config.validate with
  | error e => rfl
  | ok valid =>
    cases config.resultsLog with
    | none => rfl
    | some path =>
      simp only [Except.mapError, bind, Except.bind]
      cases createLog path with
      | error e => rfl
      | ok sink =>
        dsimp only
        rcases Stats.ResultsLog.create sink config.resultsLogDelimiter with ⟨log, e | ⟨⟨⟩⟩⟩ <;> rfl

/-- A run that counts the copies of its times, and the one that lists them: as long as the copies
can be counted, the same moves are possible, and wherever they lead the two differ in nothing but the
books of their workers. -/
theorem plain_of_run (started : Run.start config now createLog work shared operations = .ok s)
    (few : FewCopies config.peerIds (callsOf (s.delivered choices))) :
    Run.start config now createLog work shared operations = .ok s.plain ∧
      s.plain.steps choices = (s.steps choices).map plain ∧
      s.plain.delivered choices = s.delivered choices ∧
      s.plain.collected choices = s.collected choices ∧
      s.plain.initiated choices = s.initiated choices := by
  have keeps : Keeps config.peerIds [] s := by
    obtain ⟨-, log, rfl⟩ := start_ok started
    rfl
  exact ⟨by rw [start_plain, started]; rfl, steps_plain keeps few⟩

end Run

end PacedLoad
