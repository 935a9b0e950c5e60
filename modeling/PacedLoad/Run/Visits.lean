import PacedLoad.Run.Basic

/-!
# Runs with visitors

Whoever gets hold of the completion time service of a run may use it as well: the
service and the handles of its writers can be asked for.  A visitor registers writers
of its own, announces and completes times through any writer, asks for the global
completion time, and may even stop the service.
-/

namespace PacedLoad.Run

variable {β σ : Type}

inductive Visit
  | register
  /-- Looks for the answer to a registration. -/
  | registered (expired : Bool) (ticket : Nat)
  | initiated (writer : Nat) (time : Instant)
  | completed (writer : Nat) (time : Instant)
  | read
  /-- Looks for the answer to a reading. -/
  | wasRead (expired : Bool) (ticket : Nat)
  | shutdown

def visited (s : Run β σ) : Visit → Run β σ
  | .register => s.withWatermark (s.floor.watermark.ask s.journal .register).1
  | .registered expired ticket =>
    match s.floor.watermark.pollRegistration s.journal expired ticket with
    | some (watermark, _) => s.withWatermark watermark
    | none => s
  | .initiated writer time =>
    s.withWatermark (s.floor.watermark.submitInitiated s.journal writer time).1
  | .completed writer time =>
    s.withWatermark (s.floor.watermark.submitCompleted s.journal writer time).1
  | .read => s.withWatermark (s.floor.watermark.ask s.journal .read).1
  | .wasRead expired ticket =>
    match s.floor.watermark.pollReading s.journal expired ticket with
    | some (watermark, _) => s.withWatermark watermark
    | none => s
  | .shutdown => s.withWatermark (s.floor.watermark.beginShutdown s.journal).1

/-- Who moves next when there are visitors. -/
inductive Move
  | own (c : Choice)
  | visit (v : Visit)

def act [Watermark.Bookkeeping σ] (s : Run β σ) : Move → Option (Run β σ)
  | .own c => s.step c
  | .visit v => some (s.visited v)

def acts [Watermark.Bookkeeping σ] (s : Run β σ) : List Move → Option (Run β σ)
  | [] => some s
  | m :: rest => (s.act m).bind fun t => t.acts rest

end PacedLoad.Run
