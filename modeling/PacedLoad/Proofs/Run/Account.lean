import PacedLoad.Proofs.Pool.Outcomes
import PacedLoad.Proofs.Stats.Service
import PacedLoad.Run.Basic

/-!
# The account of a run

What decides how a run ends, and nothing else: which outcomes were collected, what
became of the results in the statistics, which errors were reported, and how far the
driver has come with its way out.  `Run.step_account` says that every move of a run
is a step of its account; invariants are proved of these steps.
-/

namespace PacedLoad

open Handler

/-- How far the driver has come on its way through a run. -/
inductive Leg
  /-- Operations are taken and outcomes are collected. -/
  | gathering
  /-- All operations were taken. -/
  | draining
  /-- All outcomes were collected. -/
  | gathered
  /-- The completion time service is about to be stopped. -/
  | stopping
  /-- The completion time service was told to stop. -/
  | awaiting
  /-- The completion time service has stopped. -/
  | settled
  /-- The snapshot was asked for. -/
  | asking (ticket : Nat)
  /-- The report is made, and the statistics service is about to be stopped. -/
  | reported (r : Report)
  /-- The statistics service was told to stop. -/
  | leaving (r : Report)
  /-- The statistics service has stopped. -/
  | closed (r : Report)
  /-- The run fails. -/
  | broken (e : RunError)

def Leg.ofEnding {γ : Type} (good : γ → Leg) : Except RunError γ → Leg
  | .ok a => good a
  | .error e => .broken e

def Stage.leg : Stage → Leg
  | .pull | .enrol _ | .enrolling .. | .announce _ | .submit .. | .window | .sweep | .check =>
    .gathering
  | .drain => .draining
  | .interrupt ending | .clear ending => .ofEnding (fun _ => .gathered) ending
  | .readTime | .readingTime _ => .gathered
  | .stopWatermark ending => .ofEnding (fun _ => .stopping) ending
  | .stoppingWatermark ending => .ofEnding (fun _ => .awaiting) ending
  | .readStats _ => .settled
  | .readingStats _ ticket => .asking ticket
  | .stopStats ending => .ofEnding .reported ending
  | .stoppingStats ending => .ofEnding .leaving ending
  | .save _ r => .closed r
  | .finished result => .ofEnding .closed result

def Leg.collects : Leg → Bool
  | .gathering | .draining => true
  | _ => false

def Leg.isBroken : Leg → Bool
  | .broken _ => true
  | _ => false

/-- The parts of a run that decide how it ends. -/
structure Account (β : Type) (σ : Type := Watermark.State) where
  config : Config
  policy : DelayPolicy
  watermark : Service (Watermark.Coordinator σ) Watermark.Event Watermark.Request Watermark.Answer
  stats : Service Stats.Collector OperationResult Stats.Request Stats.Answer
  journal : Journal
  pool : Pool β
  failed : Nat
  leg : Leg
  /-- The outcomes that were collected, with the numbers of their tasks. -/
  collected : List (Nat × Outcome)

def Run.account {β σ : Type} (s : Run β σ) (collected : List (Nat × Outcome)) : Account β σ where
  config := s.config
  policy := s.floor.policy
  watermark := s.floor.watermark.core
  stats := s.stats.core
  journal := s.floor.journal
  pool := s.floor.pool
  failed := s.failed
  leg := s.stage.leg
  collected := collected

namespace Account

variable {β σ : Type}

def gather (a : Account β σ) (pool : Pool β) (ticket : Nat) (outcome : Outcome) : Account β σ :=
  { a with pool, collected := a.collected ++ [(ticket, outcome)] }

/-- The journal after a handler has asked the delay policy, or not. -/
inductive Asked (a : Account β σ) : Journal → Prop
  | silent : Asked a a.journal
  | judged (op : Operation) : Asked a (a.policy.judge op a.journal).2

inductive Step [Watermark.Bookkeeping σ] (operations : List (Except Rows.DecodingError Operation))
    (a : Account β σ) :
    Account β σ → Prop
  | still : Step operations a a
  /-- Somebody calls the completion time service. -/
  | call {watermark} (called : a.watermark.Called watermark) :
      Step operations a { a with watermark }
  | submit {op : Operation} {writer : Nat} {work : Work β} {pool : Pool β}
      (here : a.leg = .gathering) (accepted : a.pool.submit op writer work = .ok pool) :
      Step operations a { a with pool }
  /-- The stream is exhausted, and all of it was submitted. -/
  | drain (here : a.leg = .gathering) (whole : a.pool.tasks.map (.ok ·.operation) = operations) :
      Step operations a { a with leg := .draining }
  /-- The driver collects a result and passes it on to the statistics. -/
  | pass {ticket : Nat} {r : OperationResult} {pool : Pool β} {counted : Nat}
      (here : a.leg.collects = true) (first : a.pool.first? = some (ticket, .ok r))
      (taken : a.pool.tryTake = some (.ok r, pool)) (running : a.stats.isOpen = true) :
      Step operations a { a.gather pool ticket (.ok r) with
        stats := { a.stats with counted, queue := a.stats.queue ++ [.event r] } }
  /-- The driver collects an error and goes on. -/
  | tolerate {ticket : Nat} {e : ExecutionError} {pool : Pool β} (here : a.leg.collects = true)
      (first : a.pool.first? = some (ticket, .error e))
      (taken : a.pool.tryTake = some (.error e, pool)) :
      Step operations a { a.gather pool ticket (.error e) with failed := a.failed + 1 }
  /-- The driver collects an error, reports it and fails the run. -/
  | abort {ticket : Nat} {e : ExecutionError} {pool : Pool β} {journal : Journal} {text : String}
      (here : a.leg.collects = true) (first : a.pool.first? = some (ticket, .error e))
      (taken : a.pool.tryTake = some (.error e, pool)) :
      Step operations a { a.gather pool ticket (.error e) with
        journal, leg := .broken (.aborted (a.failed + 1) text) }
  /-- The driver fails the run because of reported errors. -/
  | giveUp {text : String} (here : a.leg.collects = true) :
      Step operations a { a with leg := .broken (.aborted a.failed text) }
  /-- The driver fails the run for another reason.  It may just have taken a result that the
  statistics do not take any more. -/
  | fail {watermark} {stats} {pool : Pool β} {collected : List (Nat × Outcome)} {e : RunError}
      (called : a.watermark.Called watermark ∨ a.watermark.Closes watermark)
      (taken : pool = a.pool ∨ ∃ outcome, a.pool.tryTake = some (outcome, pool))
      (other : ∀ n text, e ≠ .aborted n text) :
      Step operations a { a with watermark, stats, pool, collected, leg := .broken e }
  /-- All outcomes were collected. -/
  | rest (here : a.leg = .draining) (idle : a.pool.inFlight = 0) :
      Step operations a { a with leg := .gathered }
  | shutdown (past : a.leg.collects = false) :
      Step operations a { a with pool := a.pool.shutdownNow }
  /-- The driver throws an outcome away. -/
  | discard {outcome : Outcome} {pool : Pool β} (past : a.leg.collects = false)
      (taken : a.pool.tryTake = some (outcome, pool)) : Step operations a { a with pool }
  /-- The driver has read the global completion time. -/
  | timed {watermark} (here : a.leg = .gathered) (called : a.watermark.Called watermark) :
      Step operations a { a with watermark, leg := .stopping }
  | stopWatermark {watermark} (here : a.leg = .stopping) (closes : a.watermark.Closes watermark) :
      Step operations a { a with watermark, leg := .awaiting }
  /-- Somebody else has stopped the completion time service. -/
  | skipWatermark (here : a.leg = .stopping) (closed : a.watermark.shuttingDown = true) :
      Step operations a { a with leg := .settled }
  | settle (here : a.leg = .awaiting) (complete : a.watermark.isComplete = true) :
      Step operations a { a with leg := .settled }
  /-- The driver asks for the snapshot. -/
  | ask (here : a.leg = .settled) (running : a.stats.isOpen = true) :
      Step operations a { a with
        stats := { a.stats with
          cells := a.stats.cells ++ [Cell.fresh]
          queue := a.stats.queue ++ [.request .snapshot a.stats.cells.length] }
        leg := .asking a.stats.cells.length }
  /-- The driver takes up the answer with the snapshot. -/
  | report {ticket : Nat} {snapshot : Stats.Snapshot} {gct : Option Instant}
      {cells : List (Cell Stats.Answer)} (here : a.leg = .asking ticket)
      (answered : Cell.valueAt a.stats.cells ticket = some (.snapshot snapshot)) :
      Step operations a { a with
        stats := { a.stats with cells }, leg := .reported ⟨snapshot, a.failed, gct⟩ }
  | stopStats {r : Report} {stats} (here : a.leg = .reported r) (closes : a.stats.Closes stats) :
      Step operations a { a with stats, leg := .leaving r }
  /-- Somebody else has stopped the statistics service. -/
  | skipStats {r : Report} (here : a.leg = .reported r) (closed : a.stats.shuttingDown = true) :
      Step operations a { a with leg := .closed r }
  | leave {r : Report} (here : a.leg = .leaving r) (complete : a.stats.isComplete = true) :
      Step operations a { a with leg := .closed r }
  /-- The services are stopped after the run has failed. -/
  | teardown {watermark} {stats} {e : RunError} (here : a.leg = .broken e)
      (called : a.watermark.Called watermark ∨ a.watermark.Closes watermark) :
      Step operations a { a with watermark, stats }
  /-- A handler gets an answer and goes on. -/
  | handle {k : Nat} {t : Task β} {need : Need} {e : Event} {watermark} {journal : Journal}
      (found : a.pool.tasks[k]? = some t) (needs : t.phase.need = some need)
      (called : a.watermark.Called watermark) (asked : a.Asked journal) :
      Step operations a { a with
        watermark
        journal
        pool := a.pool.move k t.phase (t.phase.next t.operation a.policy.tolerated e) }
  | interruption {k : Nat} {t : Task β} (found : a.pool.tasks[k]? = some t)
      (interruptible : t.phase.interruptible = true) :
      Step operations a { a with
        pool := a.pool.move k t.phase (.finished (.error (.interrupted t.operation.id))) }
  | deliverWatermark :
      Step operations a { a with
        watermark := (a.watermark.deliver Watermark.duty Instant.first a.journal).1
        journal := (a.watermark.deliver Watermark.duty Instant.first a.journal).2 }
  | deliverStats {now : Instant} :
      Step operations a { a with
        stats := (a.stats.deliver Stats.duty now a.journal).1
        journal := (a.stats.deliver Stats.duty now a.journal).2 }

/-- The driver fails the run without a call of the completion time service. -/
theorem Step.failAlone [Watermark.Bookkeeping σ]
    {operations : List (Except Rows.DecodingError Operation)} {a : Account β σ}
    {stats} {pool : Pool β} {collected : List (Nat × Outcome)} {e : RunError}
    (taken : pool = a.pool ∨ ∃ outcome, a.pool.tryTake = some (outcome, pool))
    (other : ∀ n text, e ≠ .aborted n text) :
    Step operations a { a with stats, pool, collected, leg := .broken e } :=
  .fail (.inl (Service.called_silent rfl rfl rfl)) taken other

end Account

end PacedLoad
