import PacedLoad.Pool.Floor
import PacedLoad.Run.Error
import PacedLoad.Stats.Calls

/-!
# Runs

A run feeds operations to the pool in the order of their starts and collects
their outcomes.  Its driver goes through stages; the tasks, the workers of both
services and the outside world move independently of it.  A run is therefore a
function of the order in which they move: `step` makes the move that a `Choice`
names.
-/

namespace PacedLoad

open Handler

structure Report where
  snapshot : Stats.Snapshot
  /-- How many operations failed without ending the run. -/
  failed : Nat
  /-- The global completion time after all operations. -/
  gct : Option Instant

/-- How far the driver has come. -/
inductive Stage
  /-- Takes the next operation. -/
  | pull
  /-- Looks whether the writer whose turn it is has to be registered. -/
  | enrol (op : Operation)
  /-- Waits for the registration of a writer. -/
  | enrolling (op : Operation) (ticket : Nat)
  /-- Announces the start. -/
  | announce (op : Operation)
  | submit (op : Operation) (writer : Nat)
  /-- Collects outcomes until there is room for another operation. -/
  | window
  /-- Collects outcomes that are there. -/
  | sweep
  /-- Looks for reported errors. -/
  | check
  /-- Collects all outcomes that are left. -/
  | drain
  /-- Interrupts what is in flight. -/
  | interrupt (ending : Except RunError Unit)
  /-- Waits until nothing is in flight. -/
  | clear (ending : Except RunError Unit)
  /-- Asks for the global completion time. -/
  | readTime
  | readingTime (ticket : Nat)
  /-- Stops the completion time service. -/
  | stopWatermark (ending : Except RunError (Option Instant))
  | stoppingWatermark (ending : Except RunError (Option Instant))
  /-- Asks for the snapshot. -/
  | readStats (gct : Option Instant)
  | readingStats (gct : Option Instant) (ticket : Nat)
  /-- Stops the statistics service. -/
  | stopStats (ending : Except RunError Report)
  | stoppingStats (ending : Except RunError Report)
  /-- Writes the snapshot to a file. -/
  | save (path : String) (report : Report)
  | finished (result : Except RunError Report)

/-- A run in progress. -/
structure Run (β : Type) (σ : Type := Watermark.State) where
  config : Config
  /-- The body of all operations. -/
  work : Work β
  floor : Floor β σ
  stats : Stats.Service
  /-- The operations that have not been pulled. -/
  upcoming : List (Except Rows.DecodingError Operation)
  /-- How many operations were submitted. -/
  submitted : Nat
  /-- The start of the last operation that was pulled. -/
  previous : Option Instant
  /-- The writers of the driver, in the order in which they take turns. -/
  writers : List Nat
  /-- How many operations failed so far. -/
  failed : Nat
  stage : Stage

namespace Run

variable {β σ : Type}

def driverName : String := "driver"

/-- A run before its first step.  `createLog` opens the log of results, which has to take a
header. -/
def start [Watermark.Bookkeeping σ] (config : Config) (now : Instant)
    (createLog : String → Except FileError Stats.Sink)
    (work : Work β) (shared : β) (operations : List (Except Rows.DecodingError Operation)) :
    Except RunError (Run β σ) := do
  config.validate.mapError .config
  let log ←
    match config.resultsLog with
    | none => pure none
    | some path => do
      let sink ← (createLog path).mapError fun e => .stats (.file e)
      match Stats.ResultsLog.create sink config.resultsLogDelimiter with
      | (log, .ok ()) => pure (some log)
      | (_, .error text) => throw (.stats (.file (.other text)))
  return {
    config
    work
    floor := {
      watermark := .start config.peerIds config.watermarkPatience
      journal := .empty
      policy := config.policy
      pool := .start config.threadCount
      shared }
    stats := .start now config.policy config.recordStartDelay config.statsPatience log
    upcoming := operations
    submitted := 0
    previous := none
    writers := []
    failed := 0
    stage := .pull }

def journal (s : Run β σ) : Journal := s.floor.journal

def inFlight (s : Run β σ) : Nat := s.floor.pool.inFlight

def goTo (s : Run β σ) (stage : Stage) : Run β σ := { s with stage }

def fail (s : Run β σ) (e : RunError) : Run β σ := s.goTo (.interrupt (.error e))

/-- Ends the run at once. -/
def giveUp (s : Run β σ) (e : RunError) : Run β σ := s.goTo (.finished (.error e))

/-- Ends the run early because of reported errors. -/
def abort (s : Run β σ) (failed : Nat) : Run β σ := s.fail (.aborted failed s.journal.text)

def withWatermark (s : Run β σ) (watermark : Watermark.Service σ) : Run β σ :=
  { s with floor := { s.floor with watermark } }

/-- Takes the next operation, which must not start before the one that was pulled before it. -/
def pull (s : Run β σ) : Run β σ :=
  match s.upcoming with
  | [] => s.goTo .drain
  | .error e :: rest => { s with upcoming := rest }.fail (.decoding e)
  | .ok op :: rest =>
    let s := { s with upcoming := rest }
    match s.previous with
    | none => { s with previous := some op.scheduledStart }.goTo (.enrol op)
    | some previous =>
      if op.scheduledStart < previous then s.fail (.outOfOrder op.id op.scheduledStart previous)
      else { s with previous := some op.scheduledStart }.goTo (.enrol op)

def slot (s : Run β σ) : Nat := s.submitted % s.config.threadCount

/-- Registers a writer on its first turn. -/
def enrol (s : Run β σ) (op : Operation) : Run β σ :=
  if s.slot = s.writers.length then
    match s.floor.watermark.ask s.journal .register with
    | (watermark, .ok ticket) => (s.withWatermark watermark).goTo (.enrolling op ticket)
    | (watermark, .error e) => (s.withWatermark watermark).fail (.watermark e)
  else s.goTo (.announce op)

def enrolling (s : Run β σ) (expired : Bool) (op : Operation) (ticket : Nat) : Run β σ :=
  match s.floor.watermark.pollRegistration s.journal expired ticket with
  | none => s
  | some (watermark, .ok writer) =>
    { s.withWatermark watermark with writers := s.writers ++ [writer], stage := .announce op }
  | some (watermark, .error e) => (s.withWatermark watermark).fail (.watermark e)

/-- Announces the start with the writer whose turn it is, which must be registered. -/
def announce (s : Run β σ) (op : Operation) : Option (Run β σ) :=
  s.writers[s.slot]?.map fun writer =>
    match s.floor.announce op writer with
    | (floor, .ok ()) => { s with floor, stage := .submit op writer }
    | (floor, .error e) => { s with floor }.fail (.execution e)

def submit (s : Run β σ) (op : Operation) (writer : Nat) : Run β σ :=
  match s.floor.submit op writer s.work with
  | (floor, .ok ()) => { s with floor, submitted := s.submitted + 1, stage := .window }
  | (floor, .error e) => { s with floor }.fail (.execution e)

/-- Passes a result on to the statistics, counts a failed operation, or ends the run because of
it. -/
def collect (s : Run β σ) : Outcome → Run β σ
  | .ok result =>
    match s.stats.submit s.journal result with
    | (stats, .ok ()) => { s with stats }
    | (stats, .error e) => { s with stats }.fail (.stats (.service e))
  | .error e =>
    if s.config.abortOnFailure then
      let journal := s.journal.report driverName e.message
      { s with floor := { s.floor with journal } }.abort (s.failed + 1)
    else { s with failed := s.failed + 1 }

def take (s : Run β σ) : Option (Outcome × Run β σ) :=
  s.floor.pool.tryTake.map fun (outcome, pool) =>
    (outcome, { s with floor := { s.floor with pool } })

/-- Collects the next outcome.  When there is none the driver goes to `done` if nothing is in
flight, ends the run if errors were reported, and else waits. -/
def next (s : Run β σ) (done : Stage) : Run β σ :=
  match s.take with
  | some (outcome, s) => s.collect outcome
  | none =>
    if s.inFlight = 0 then s.goTo done
    else if s.journal.hasErrors then s.abort s.failed
    else s

/-- Throws the next outcome away.  When nothing is in flight the services are stopped. -/
def clear (s : Run β σ) (ending : Except RunError Unit) : Run β σ :=
  match s.take with
  | some (_, s) => s
  | none =>
    if s.inFlight = 0 then
      match ending with
      | .ok () => s.goTo .readTime
      | .error e => s.goTo (.stopWatermark (.error e))
    else s

/-- What follows the end of the completion time service.  A run that failed before ignores how
it ended. -/
def watermarkStopped (s : Run β σ) (ending : Except RunError (Option Instant))
    (stopped : Except ServiceError Unit) : Run β σ :=
  match ending, stopped with
  | .error e, _ => s.goTo (.stopStats (.error e))
  | .ok gct, .ok () => s.goTo (.readStats gct)
  | .ok _, .error e => s.giveUp (.watermark e)

def statsStopped (s : Run β σ) (ending : Except RunError Report)
    (stopped : Except ServiceError Unit) : Run β σ :=
  match ending, stopped with
  | .error e, _ => s.giveUp e
  | .ok report, .ok () =>
    match s.config.resultsJson with
    | some path => s.goTo (.save path report)
    | none => s.goTo (.finished (.ok report))
  | .ok _, .error e => s.giveUp (.stats (.service e))

/-- Asks for the global completion time after all announcements. -/
def readTime (s : Run β σ) : Run β σ :=
  match s.floor.watermark.ask s.journal .read with
  | (watermark, .ok ticket) => (s.withWatermark watermark).goTo (.readingTime ticket)
  | (watermark, .error e) => (s.withWatermark watermark).giveUp (.watermark e)

def readingTime (s : Run β σ) (expired : Bool) (ticket : Nat) : Run β σ :=
  match s.floor.watermark.pollReading s.journal expired ticket with
  | none => s
  | some (watermark, .ok gct) => (s.withWatermark watermark).goTo (.stopWatermark (.ok gct))
  | some (watermark, .error e) => (s.withWatermark watermark).giveUp (.watermark e)

/-- Sends the last message to the completion time service. -/
def stopWatermark (s : Run β σ) (ending : Except RunError (Option Instant)) : Run β σ :=
  match s.floor.watermark.beginShutdown s.journal with
  | (watermark, .ok true) => (s.withWatermark watermark).goTo (.stoppingWatermark ending)
  | (watermark, .ok false) => (s.withWatermark watermark).watermarkStopped ending (.ok ())
  | (watermark, .error e) => (s.withWatermark watermark).watermarkStopped ending (.error e)

/-- One poll for the end of the completion time service. -/
def stoppingWatermark (s : Run β σ) (expired : Bool) (ending : Except RunError (Option Instant)) :
    Run β σ :=
  match s.floor.watermark.pollShutdown s.journal expired with
  | none => s
  | some r => s.watermarkStopped ending r

def readStats (s : Run β σ) (gct : Option Instant) : Run β σ :=
  match s.stats.ask s.journal .snapshot with
  | (stats, .ok ticket) => { s with stats, stage := .readingStats gct ticket }
  | (stats, .error e) => { s with stats }.giveUp (.stats (.service e))

def readingStats (s : Run β σ) (expired : Bool) (gct : Option Instant) (ticket : Nat) : Run β σ :=
  match s.stats.pollAnswer s.journal expired .snapshot ticket with
  | none => s
  | some (stats, .ok (.snapshot snapshot)) =>
    { s with stats, stage := .stopStats (.ok ⟨snapshot, s.failed, gct⟩) }
  | some (stats, .ok (.status _)) =>
    { s with stats }.giveUp (.stats (.service .channelClosed))
  | some (stats, .error e) => { s with stats }.giveUp (.stats (.service e))

def stopStats (s : Run β σ) (ending : Except RunError Report) : Run β σ :=
  match s.stats.beginShutdown s.journal with
  | (stats, .ok true) => { s with stats, stage := .stoppingStats ending }
  | (stats, .ok false) => { s with stats }.statsStopped ending (.ok ())
  | (stats, .error e) => { s with stats }.statsStopped ending (.error e)

def stoppingStats (s : Run β σ) (expired : Bool) (ending : Except RunError Report) : Run β σ :=
  match s.stats.pollShutdown s.journal expired with
  | none => s
  | some r => s.statsStopped ending r

/-- One step of the driver.  A wait for an answer is over when its deadline has `expired`. -/
def stepDriver (s : Run β σ) (expired : Bool) : Option (Run β σ) :=
  match s.stage with
  | .pull => some s.pull
  | .enrol op => some (s.enrol op)
  | .enrolling op ticket => some (s.enrolling expired op ticket)
  | .announce op => s.announce op
  | .submit op writer => some (s.submit op writer)
  | .window =>
    if s.inFlight < s.config.maxInFlightOperations then some (s.goTo .sweep)
    else some (s.next .sweep)
  | .sweep =>
    match s.take with
    | some (outcome, s) => some (s.collect outcome)
    | none => some (s.goTo .check)
  | .check => some (if s.journal.hasErrors then s.abort s.failed else s.goTo .pull)
  | .drain => some (s.next (.interrupt (.ok ())))
  | .interrupt ending =>
    some { s with
      floor := { s.floor with pool := s.floor.pool.shutdownNow }, stage := .clear ending }
  | .clear ending => some (s.clear ending)
  | .readTime => some s.readTime
  | .readingTime ticket => some (s.readingTime expired ticket)
  | .stopWatermark ending => some (s.stopWatermark ending)
  | .stoppingWatermark ending => some (s.stoppingWatermark expired ending)
  | .readStats gct => some (s.readStats gct)
  | .readingStats gct ticket => some (s.readingStats expired gct ticket)
  | .stopStats ending => some (s.stopStats ending)
  | .stoppingStats ending => some (s.stoppingStats expired ending)
  | .save .. | .finished _ => none

/-- The end of the attempt to write the snapshot to a file. -/
def saved (s : Run β σ) (r : Except FileError Unit) : Option (Run β σ) :=
  match s.stage with
  | .save _ report => some (s.goTo (.finished (r.mapError (fun e => .stats (.file e)) |>.map fun _ => report)))
  | _ => none

inductive Choice
  /-- The driver; a wait for an answer may have lasted too long. -/
  | driver (expired : Bool)
  /-- A task, to which the clock shows a time. -/
  | task (ticket : Nat) (now : Instant)
  /-- A task that is interrupted. -/
  | interruption (ticket : Nat)
  /-- The worker of the completion time service. -/
  | watermark
  /-- The worker of the statistics service, to which the clock shows a time. -/
  | stats (now : Instant)
  /-- A peer that reports its completion time. -/
  | peer (name : String) (time : Instant)
  /-- The file system. -/
  | file (r : Except FileError Unit)

def stepStats (s : Run β σ) (now : Instant) : Option (Run β σ) :=
  if s.stats.core.queue.isEmpty then none
  else
    let (stats, journal) := s.stats.deliver now s.journal
    some { s with stats, floor := { s.floor with journal } }

def peer (s : Run β σ) (name : String) (time : Instant) : Run β σ × Except ServiceError Unit :=
  let (watermark, r) := s.floor.watermark.submitExternal s.journal name time
  (s.withWatermark watermark, r)

/-- The run after somebody has moved; nothing when that party can not move. -/
def step [Watermark.Bookkeeping σ] (s : Run β σ) : Choice → Option (Run β σ)
  | .driver expired => s.stepDriver expired
  | .task ticket now => (s.floor.stepTask ticket now).map fun floor => { s with floor }
  | .interruption ticket => (s.floor.interrupt ticket).map fun floor => { s with floor }
  | .watermark => s.floor.stepWatermark.map fun floor => { s with floor }
  | .stats now => s.stepStats now
  | .peer name time => some (s.peer name time).1
  | .file r => s.saved r

def steps [Watermark.Bookkeeping σ] (s : Run β σ) : List Choice → Option (Run β σ)
  | [] => some s
  | c :: rest => (s.step c).bind fun t => t.steps rest

/-- The result, once there is one. -/
def result? (s : Run β σ) : Option (Except RunError Report) :=
  match s.stage with
  | .finished r => some r
  | _ => none

end Run

end PacedLoad
