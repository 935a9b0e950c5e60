import PacedLoad.Run.Basic

/-!
# Runs whose clock stands still

The driver moves until it has to wait for somebody.  Then both services and all
tasks move as long as they can before the driver looks again.  An answer that is
not there by then never comes, so that every wait of the driver for one is over.
-/

namespace PacedLoad

namespace Run

variable {β σ : Type}

/-- How far a stage is from the end.  A stage that sends a message counts for one step more. -/
def stageWeight : Stage → Nat
  | .pull => 20
  | .enrol _ => 42
  | .enrolling .. => 40
  | .announce _ => 38
  | .submit .. => 36
  | .window => 23
  | .sweep => 22
  | .check => 21
  | .drain => 19
  | .interrupt _ => 18
  | .clear _ => 17
  | .readTime => 16
  | .readingTime _ => 14
  | .stopWatermark _ => 13
  | .stoppingWatermark _ => 11
  | .readStats _ => 10
  | .readingStats .. => 8
  | .stopStats _ => 7
  | .stoppingStats _ => 5
  | .save .. => 4
  | .finished _ => 0

/-- What every step lowers unless somebody has to wait. -/
def weight (s : Run β σ) : Nat :=
  32 * s.upcoming.length + s.floor.weight + s.stats.core.queue.length + stageWeight s.stage

/-- Both workers take all messages. -/
def settleWorkers [Watermark.Bookkeeping σ] (now : Instant) (s : Run β σ) : Run β σ :=
  let (watermark, journal) := s.floor.watermark.settle s.journal
  let (stats, journal) := s.stats.settle true now journal
  { s with stats, floor := { s.floor with watermark, journal } }

/-- The workers and all tasks move as long as they can. -/
def settleOthers [Watermark.Bookkeeping σ] (now : Instant) (s : Run β σ) : Run β σ :=
  settleWorkers now { s with floor := s.floor.settle now }

/-- The others move as long as they can, then the driver makes a step. -/
def pause [Watermark.Bookkeeping σ] (now : Instant) (s : Run β σ) : Run β σ :=
  let s := s.settleOthers now
  (s.stepDriver true).getD s

/-- A step of the driver, before which it pauses if there is nothing for it to do. -/
def round [Watermark.Bookkeeping σ] (now : Instant) (s : Run β σ) : Run β σ :=
  match s.stepDriver false with
  | some t => if t.weight < s.weight then t else s.pause now
  | none => s.pause now

/-- Rounds as long as they lead on. -/
def settle [Watermark.Bookkeeping σ] (now : Instant) (s : Run β σ) : Run β σ :=
  let t := s.round now
  if t.weight < s.weight then settle now t else t
termination_by s.weight

/-- The result of a run while the clock stands still; nothing when the run can not end so.
`write` tells whether the snapshot can be written to a file. -/
def finish [Watermark.Bookkeeping σ] (now : Instant) (write : String → Except FileError Unit)
    (s : Run β σ) : Run β σ × Option (Except RunError Report) :=
  let s := s.settle now
  match s.stage with
  | .save path _ =>
    let s := (s.saved (write path)).getD s
    (s, s.result?)
  | _ => (s, s.result?)

/-- Peers report one after the other before the run, and each report is processed before the
next. -/
def peersFirst [Watermark.Bookkeeping σ] (s : Run β σ) :
    List (String × Instant) → Run β σ × List (Except ServiceError Unit)
  | [] => (s, [])
  | (name, time) :: rest =>
    let (s, r) := s.peer name time
    let (watermark, journal) := s.floor.watermark.settle s.journal
    let (s, others) := peersFirst { s with floor := { s.floor with watermark, journal } } rest
    (s, r :: others)

def logText (s : Run β σ) : String := s.stats.logText

end Run

end PacedLoad
