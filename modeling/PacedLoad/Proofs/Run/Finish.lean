import PacedLoad.Proofs.Run.Turns
import PacedLoad.Proofs.Watermark.Turns

/-!
# When the stream has come to its end

The writers of a run take turns whether peers take part or not, and as long as the
worker runs a job ends with its start completed, unless its body breaks off.  So when
all jobs have ended, the queue leads to settled writers, and nothing that is sent
afterwards touches them.
-/

namespace PacedLoad

open Handler Watermark

variable {β : Type}

namespace Handler

/-- Whether a handler with this outcome was left by a body that broke off. -/
def brokenOff : Outcome → Bool
  | .error (.panicked ..) => true
  | _ => false

/-- Whether the handler was left by a body that broke off. -/
def Phase.brokenOff : Phase → Bool
  | .finished outcome => Handler.brokenOff outcome
  | _ => false

end Handler

/-- The start of the operation that stands as many places from the end as there are writers, or of
the first one when there are more writers than operations. -/
def finalStart (threads : Nat) (ops : List Operation) : Option Instant :=
  ops[ops.length - min ops.length threads]?.map Operation.scheduledStart

theorem finalStart_eq_none {threads : Nat} (positive : 0 < threads) {ops : List Operation} :
    finalStart threads ops = none ↔ ops = [] := by
  rw [finalStart, Option.map_eq_none_iff, List.getElem?_eq_none_iff, ← List.length_eq_zero_iff]
  omega

namespace Outline

variable {operations : List (Except Rows.DecodingError Operation)} {o after : Outline β}
  {talk : Bool} {threads : Nat}

/-- As long as slots are granted, an answer ends a handler only if its body has broken off. -/
theorem brokenOff_of_answer {t : Task β} {need : Need} {e : Handler.Event} {gct : Option Instant}
    {tolerated : Span} (needs : t.phase.need = some need) (answers : t.Answers gct false need e)
    (ended : (t.phase.next t.operation tolerated e).isFinished = true) :
    (t.phase.next t.operation tolerated e).brokenOff = true := by
  have unfinished (other : need ≠ .submission) (granted : e ≠ .slot false)
      (returned : ∀ m, e ≠ .body (.panicked m)) : False := by
    rw [Phase.unfinished_next needs other granted returned] at ended
    cases ended
  cases need with
  | submission => exact answers.elim
  | body =>
    obtain ⟨before, after, r, rfl, -⟩ := answers
    cases r with
    | returned r => exact (unfinished nofun nofun nofun).elim
    | panicked m =>
      generalize t.phase = phase at needs
      cases phase <;> first | rfl | cases needs
  | slot =>
    obtain ⟨granted, rfl, refused⟩ := answers
    refine (unfinished nofun ?_ nofun).elim
    rintro ⟨⟩
    cases refused rfl
  | clock =>
    obtain ⟨now, rfl⟩ := answers
    exact (unfinished nofun nofun nofun).elim
  | watermark =>
    cases answers
    exact (unfinished nofun nofun nofun).elim
  | verdict =>
    obtain ⟨accepted, rfl⟩ := answers
    exact (unfinished nofun nofun nofun).elim

/-- As long as operations are accepted and the worker runs, a job that has ended has completed its
start, unless its body broke off. -/
def Finishing (o : Outline β) : Prop :=
  o.closing = false → o.worker.phase = .running → ∀ t ∈ o.jobs, t.phase.isFinished = true →
    t.phase.completed = true ∨ t.phase.brokenOff = true

/-- A phase that ends a job has to complete its start or to be left by the body. -/
theorem Finishing.advance (finishing : Finishing o) (accepting : o.closing = false)
    (running : o.worker.phase = .running) {k : Nat} {phase : Phase}
    (ends : phase.isFinished = true → phase.completed = true ∨ phase.brokenOff = true) :
    ∀ t ∈ (o.advance k phase).jobs, t.phase.isFinished = true →
      t.phase.completed = true ∨ t.phase.brokenOff = true := by
  intro t member ended
  obtain ⟨i, found⟩ := List.getElem?_of_mem member
  rcases getElem?_modify_some found with ⟨-, u, -, rfl⟩ | ⟨-, before⟩
  · exact ends ended
  · exact finishing accepting running t (List.mem_of_getElem? before) ended

theorem Finishing.step (finishing : Finishing o)
    (sound : ∀ (k : Nat) (t : Task β), o.jobs[k]? = some t → t.phase.Sound)
    (step : Step talk o after) : Finishing after := by
  intro accepting running
  cases step with
  | submit =>
    intro t member ended
    rcases List.mem_append.mp member with before | new
    · exact finishing accepting running t before ended
    · cases List.mem_singleton.mp new
      cases ended
  | close => cases accepting
  | answer found needs answers =>
    refine finishing.advance accepting running fun ended => .inr ?_
    rw [show o.closing = false from accepting] at answers
    exact brokenOff_of_answer needs answers ended
  | complete found needs =>
    exact finishing.advance accepting running fun _ =>
      .inl (Phase.completed_accepted (sound _ _ found) needs)
  | refused found needs stopped => exact absurd running stopped
  | interruption found closing => cases (show o.closing = false from accepting).symm.trans closing
  | deliver before => exact finishing accepting before
  | _ => exact finishing accepting running

/-- What holds of the outline of every run, whoever takes part in it. -/
structure Paced (operations : List (Except Rows.DecodingError Operation)) (threads : Nat)
    (o : Outline β) : Prop where
  coherent : Coherent operations o
  threads : o.threads = threads
  turned : Turned o
  finishing : Finishing o

theorem Paced.step (paced : Paced operations threads o) (step : Step talk o after) :
    Paced operations threads after where
  coherent := paced.coherent.step step
  threads := by cases step <;> exact paced.threads
  turned := paced.turned.step paced.coherent.fed paced.coherent.tracked.enrolled step
  finishing := paced.finishing.step paced.coherent.reported.sound step

theorem paced_first {config : Config} {work : Work β} (valid : config.validate = .ok ()) :
    Paced operations config.threadCount (first config work operations) where
  coherent := coherent_first config work operations
  threads := rfl
  turned := by
    refine ⟨config.threadCount_pos valid, nofun, nofun, nofun, fun _ => ?_⟩
    simp [first, Station.joined]
  finishing := fun _ _ => nofun

/-- All jobs have ended, and the queue leads the worker to writers whose least completion time is
`floor`. -/
structure Final (floor : Option Instant) (o : Outline β) : Prop where
  ending : o.station = .ending
  finished : ∀ t ∈ o.jobs, t.phase.isFinished = true
  unregistered : o.worker.phase = .running → ∀ ticket, .request .register ticket ∉ o.queue
  settled : o.worker.phase = .running → ∃ ws, foresee o.held o.queue = some ws ∧ Settled floor ws

/-- The writers of the jobs take turns. -/
theorem Paced.inTurn (paced : Paced operations threads o) :
    InTurn threads (o.jobs.map entry) where
  positive := paced.threads ▸ paced.turned.positive
  writer k e place := by
    rw [List.getElem?_map] at place
    obtain ⟨t, found, rfl⟩ := Option.map_eq_some_iff.mp place
    rw [← paced.threads]
    exact paced.turned.job k t found
  ascending := by
    rw [List.map_map]
    exact paced.coherent.fed.ascending

/-- When all jobs have ended and none of their bodies broke off, the driver can come to its end. -/
theorem Paced.final (paced : Paced operations threads o) (free : o.station = .between)
    (finished : ∀ t ∈ o.jobs, t.phase.isFinished = true)
    (whole : ∀ t ∈ o.jobs, t.phase.brokenOff = false) :
    Final (finalStart threads (o.jobs.map Task.operation)) { o with station := .ending } := by
  have on : o.station ≠ .ending := by simp [free]
  have tracked := paced.coherent.tracked
  have accepting : o.closing = false :=
    Bool.eq_false_iff.mpr fun closing => on (tracked.closing closing)
  obtain ⟨rest, ws, foreseen⟩ := tracked.foreseen
  have size : ws.length = min o.jobs.length threads := by
    have enrolled := foreseen.enrolled on
    have count := paced.turned.count on
    rw [free] at enrolled count
    simp only [Station.expects, Station.joined, paced.threads, paced.coherent.fed.submitted]
      at enrolled count
    omega
  have seen (running : o.worker.phase = .running) : foresee o.held o.queue = some ws := by
    rw [← foreseen.queue running]
    exact foreseen.seen
  refine ⟨rfl, finished, fun running ticket queued => ?_, fun running => ⟨ws, seen running, ?_⟩⟩
  · have more := foresee_register (seen running) queued
    have registered := tracked.enrolled.registered on
    have enrolled := foreseen.enrolled on
    rw [free] at enrolled
    simp only [Station.expects] at enrolled
    omega
  · have ledger := foreseen.ledger
    rw [entries, free] at ledger
    simp only [Station.announced, List.append_nil] at ledger
    have done : ∀ e ∈ o.jobs.map entry, e.done = true := by
      intro e member
      obtain ⟨t, job, rfl⟩ := List.mem_map.mp member
      refine (paced.finishing accepting running t job (finished t job)).resolve_right ?_
      rw [whole t job]
      exact Bool.false_ne_true
    have settled := ledger.settled paced.inTurn done (by rw [size, List.length_map])
    rw [List.length_map, List.getElem?_map, Option.map_map] at settled
    rw [finalStart, List.length_map, List.getElem?_map, Option.map_map]
    exact settled

theorem Final.congr {least : Option Instant} (final : Final least o)
    (ending : after.station = .ending) (jobs : after.jobs = o.jobs)
    (worker : after.worker = o.worker) (queue : after.queue = o.queue) : Final least after where
  ending := ending
  finished := by rw [jobs]; exact final.finished
  unregistered := by rw [worker, queue]; exact final.unregistered
  settled := by rw [worker, queue, Outline.held, worker]; exact final.settled

/-- A letter that neither announces nor registers anything does not touch the writers. -/
theorem Final.post {least : Option Instant} (final : Final least o) {m : Letter}
    (harmless : ∀ ws, attend ws m = some ws) (silent : ∀ ticket, m ≠ .request .register ticket) :
    Final least (o.post m) where
  ending := final.ending
  finished := final.finished
  unregistered running ticket queued := by
    rcases List.mem_append.mp queued with before | new
    · exact final.unregistered running ticket before
    · exact silent ticket (List.mem_singleton.mp new).symm
  settled running := by
    obtain ⟨ws, seen, settled⟩ := final.settled running
    refine ⟨ws, ?_, settled⟩
    change foresee o.held (o.queue ++ [m]) = some ws
    rw [foresee_append, seen]
    exact (foresee_single ws m).trans (harmless ws)

/-- Nothing that happens after the end touches the jobs or what the writers will come to. -/
theorem Final.step {least : Option Instant} (final : Final least o) (step : Step talk o after) :
    Final least after := by
  have idle : ∀ {k : Nat} {t : Task β} {need : Need}, o.jobs[k]? = some t →
      t.phase.need ≠ some need := by
    intro k t need found needs
    have unfinished := Phase.isFinished_of_need needs
    rw [final.finished t (List.mem_of_getElem? found)] at unfinished
    cases unfinished
  cases step with
  | still => exact final
  | pull here | ask here | known here | enrolled here | announce here | submit here =>
    cases here.symm.trans final.ending
  | ends => exact final.congr rfl rfl rfl rfl
  | close => exact final.congr final.ending rfl rfl rfl
  | wind past running harmless =>
    rcases harmless with ⟨ticket, rfl⟩ | ⟨n, rfl⟩
    · exact final.post (fun _ => rfl) nofun
    · exact final.post (fun _ => rfl) nofun
  | answer found needs | complete found needs | refused found needs =>
    exact absurd needs (idle found)
  | interruption found closing interruptible =>
    have unfinished := Phase.isFinished_of_interruptible interruptible
    rw [final.finished _ (List.mem_of_getElem? found)] at unfinished
    cases unfinished
  | @deliver m rest j answers running oldest =>
    refine ⟨final.ending, final.finished, fun going ticket queued => ?_, fun going => ?_⟩
    · simp only [if_pos going] at queued
      refine final.unregistered running ticket ?_
      rw [oldest]
      exact List.mem_cons_of_mem _ queued
    · obtain ⟨ws, seen, settled⟩ := final.settled running
      rw [oldest] at seen
      obtain ⟨us, attended, seen⟩ := Option.bind_eq_some_iff.mp seen
      refine ⟨ws, ?_, settled⟩
      simp only [if_pos going]
      change foresee (o.worker.receive duty Instant.first j m).1.state.state.writers rest = some ws
      rw [receive_writers attended]
      exact seen
  | peer talks running => exact final.post (fun _ => rfl) nofun

end Outline

/-- Every run that was started is paced. -/
theorem Run.paced_of_run {config : Config} {now : Instant}
    {createLog : String → Except FileError Stats.Sink} {work : Work β} {shared : β}
    {operations : List (Except Rows.DecodingError Operation)} {s₀ s : Run β}
    {choices : List Choice}
    (started : Run.start config now createLog work shared operations = .ok s₀)
    (ran : s₀.steps choices = some s) :
    Outline.Paced operations config.threadCount (s.outline (s₀.told choices)) := by
  obtain ⟨valid, initial⟩ := Run.start_outline started
  have first : Outline.Paced operations config.threadCount (s₀.outline []) := by
    rw [initial]
    exact Outline.paced_first valid
  simpa using steps_outline (fun step paced => paced.step step) (fun _ _ _ => rfl) ran first

end PacedLoad
