import PacedLoad.Proofs.Pool.Floor
import PacedLoad.Proofs.Watermark.Service
import PacedLoad.Run.Basic

/-!
# The outline of a run

What decides which operations are let go, and nothing else: the operations, their
handlers, the completion time service and how far the driver has come with the
operation at hand.  Statistics, logs, errors and the ways in which a run ends are
left out.  `Run.step_outline` says that every move of a run is a step of its
outline; invariants are proved of these steps.
-/

namespace PacedLoad

open Handler Watermark

/-- How far the driver has come with the operation at hand. -/
inductive Station
  /-- No operation is at hand. -/
  | between
  | enrol (op : Operation)
  | enrolling (op : Operation) (ticket : Nat)
  | announce (op : Operation)
  | submit (op : Operation) (writer : Nat)
  /-- No operation will be taken any more. -/
  | ending

def Stage.station : Stage → Station
  | .pull | .window | .sweep | .check | .drain => .between
  | .enrol op => .enrol op
  | .enrolling op ticket => .enrolling op ticket
  | .announce op => .announce op
  | .submit op writer => .submit op writer
  | _ => .ending

def Station.pending : Station → List Operation
  | .enrol op | .enrolling op _ | .announce op | .submit op _ => [op]
  | .between | .ending => []

/-- The parts of a run that decide which operations are let go. -/
structure Outline (β : Type) (σ : Type := State) where
  threads : Nat
  tolerated : Span
  work : Work β
  worker : Worker (Coordinator σ)
  queue : List Letter
  /-- What has been answered to the requests, by number. -/
  answers : Nat → Option Answer
  jobs : List (Task β)
  /-- The pool was shut down. -/
  closing : Bool
  upcoming : List (Except Rows.DecodingError Operation)
  submitted : Nat
  previous : Option Instant
  writers : List Nat
  station : Station
  /-- What the handlers have told the completion time service. -/
  told : List Sent

/-- The outline of a run whose handlers have told the completion time service `told`. -/
def Run.outline {β σ : Type} (s : Run β σ) (told : List Sent) : Outline β σ where
  threads := s.config.threadCount
  tolerated := s.floor.policy.tolerated
  work := s.work
  worker := s.floor.watermark.core.worker
  queue := s.floor.watermark.core.queue
  answers := Cell.valueAt s.floor.watermark.core.cells
  jobs := s.floor.pool.jobs
  closing := s.floor.pool.shutDown
  upcoming := s.upcoming
  submitted := s.submitted
  previous := s.previous
  writers := s.writers
  station := s.stage.station
  told := told

namespace Outline

variable {β σ : Type}

def advance (o : Outline β σ) (k : Nat) (phase : Phase) : Outline β σ :=
  { o with jobs := o.jobs.modify k fun t => { t with phase } }

/-- What the phases of jobs do not decide stays as it is. -/
theorem advance_map {γ : Type} {f : Task β → γ} (same : ∀ (t : Task β) phase, f { t with phase } = f t)
    (o : Outline β σ) (k : Nat) (phase : Phase) :
    (o.advance k phase).jobs.map f = o.jobs.map f :=
  map_modify_same (fun t => same t phase) o.jobs k

/-- The outline after a message was sent. -/
def post (o : Outline β σ) (m : Letter) : Outline β σ := { o with queue := o.queue ++ [m] }

/-- A step of an outline.  Peers may take part only if they `talk`. -/
inductive Step [Bookkeeping σ] (talk : Bool) (o : Outline β σ) : Outline β σ → Prop
  | still : Step talk o o
  /-- The driver takes an operation that does not start before the last one. -/
  | pull {op : Operation} {rest : List (Except Rows.DecodingError Operation)}
      (free : o.station = .between) (next : o.upcoming = .ok op :: rest)
      (late : ∀ p, o.previous = some p → p ≤ op.scheduledStart) :
      Step talk o
        { o with upcoming := rest, previous := some op.scheduledStart, station := .enrol op }
  /-- The driver asks for a writer. -/
  | ask {op : Operation} {ticket : Nat} (here : o.station = .enrol op)
      (turn : o.submitted % o.threads = o.writers.length) (running : o.worker.phase = .running)
      (unanswered : o.answers ticket = none) :
      Step talk o { o.post (.request .register ticket) with station := .enrolling op ticket }
  /-- The writer whose turn it is has been registered before. -/
  | known {op : Operation} (here : o.station = .enrol op)
      (turn : o.submitted % o.threads ≠ o.writers.length) :
      Step talk o { o with station := .announce op }
  /-- The driver takes up the answer with a writer. -/
  | enrolled {op : Operation} {ticket writer : Nat} (here : o.station = .enrolling op ticket)
      (answered : o.answers ticket = some (.writer writer)) :
      Step talk o { o with writers := o.writers ++ [writer], station := .announce op }
  | announce {op : Operation} {writer : Nat} (here : o.station = .announce op)
      (turn : o.writers[o.submitted % o.threads]? = some writer)
      (running : o.worker.phase = .running) :
      Step talk o
        { o.post (.event (.initiated writer op.scheduledStart)) with station := .submit op writer }
  | submit {op : Operation} {writer : Nat} (here : o.station = .submit op writer) :
      Step talk o { o with
        jobs := o.jobs ++ [⟨op, writer, o.work, .waiting, false⟩]
        submitted := o.submitted + 1
        station := .between }
  /-- The driver comes to an end; an announced operation is given up only after the pool was shut
  down. -/
  | ends {rest : List (Except Rows.DecodingError Operation)}
      (given : ∀ op writer, o.station = .submit op writer → o.closing = true) :
      Step talk o { o with upcoming := rest, station := .ending }
  | close (past : o.station = .ending) : Step talk o { o with closing := true }
  /-- The driver asks for the time, or tells the worker when to stop. -/
  | wind {m : Letter} (past : o.station = .ending) (running : o.worker.phase = .running)
      (harmless : (∃ ticket, m = .request .read ticket) ∨ ∃ n, m = .terminate n) :
      Step talk o (o.post m)
  /-- A handler gets an answer. -/
  | answer {k : Nat} {t : Task β} {need : Need} {e : Handler.Event} (found : o.jobs[k]? = some t)
      (needs : t.phase.need = some need)
      (answers : t.Answers o.worker.state.published o.closing need e) :
      Step talk o (o.advance k (t.phase.next t.operation o.tolerated e))
  /-- A handler completes its start. -/
  | complete {k : Nat} {t : Task β} (found : o.jobs[k]? = some t)
      (needs : t.phase.need = some .submission) (running : o.worker.phase = .running) :
      Step talk o { (o.advance k (t.phase.next t.operation o.tolerated (.submission (.ok ())))).post
          (.event (.completed t.writer t.operation.scheduledStart)) with
        told := o.told ++ [⟨some k, .completed t.writer t.operation.scheduledStart⟩] }
  /-- A handler can not complete its start, since the worker has stopped. -/
  | refused {k : Nat} {t : Task β} {e : ServiceError} (found : o.jobs[k]? = some t)
      (needs : t.phase.need = some .submission) (stopped : o.worker.phase ≠ .running) :
      Step talk o (o.advance k (t.phase.next t.operation o.tolerated (.submission (.error e))))
  | interruption {k : Nat} {t : Task β} (found : o.jobs[k]? = some t) (closing : o.closing = true)
      (interruptible : t.phase.interruptible = true) :
      Step talk o (o.advance k (.finished (.error (.interrupted t.operation.id))))
  /-- The worker takes a message; one that stops leaves the rest behind. -/
  | deliver {m : Letter} {rest : List Letter} {j : Journal} {answers : Nat → Option Answer}
      (running : o.worker.phase = .running) (oldest : o.queue = m :: rest)
      (answered : ∀ ticket a, answers ticket = some a → o.answers ticket = some a ∨
        (o.worker.receive duty Instant.first j m).2.2 = some (ticket, a)) :
      Step talk o { o with
        worker := (o.worker.receive duty Instant.first j m).1
        queue := if (o.worker.receive duty Instant.first j m).1.phase = .running then rest else []
        answers := answers }
  | peer {name : String} {time : Instant} (talks : talk = true)
      (running : o.worker.phase = .running) : Step talk o (o.post (.event (.external name time)))

/-- What is possible without peers is possible with them. -/
theorem Step.weaken [Bookkeeping σ] {a b : Bool} {o after : Outline β σ} (step : Step a o after)
    (more : a = true → b = true) : Step b o after := by
  cases step with
  | peer talks running => exact .peer (more talks) running
  | deliver running oldest answered => exact .deliver running oldest answered
  | answer found needs answers => exact .answer found needs answers
  | complete found needs running => exact .complete found needs running
  | refused found needs stopped => exact .refused found needs stopped
  | interruption found closing interruptible => exact .interruption found closing interruptible
  | _ => constructor <;> assumption

end Outline

end PacedLoad
