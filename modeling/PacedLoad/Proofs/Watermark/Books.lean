import PacedLoad.Proofs.Watermark.Counting

/-!
# Services that keep different books

Only the worker looks into the books of a completion time service.  Whatever clients
do is the same with other books.  What the worker makes of a letter is the same with a
board and with the state that the board stands for, as long as the copies of a time
can be counted.
-/

namespace PacedLoad

open Watermark

variable {σ τ : Type}

def Worker.map (f : σ → τ) (w : Worker σ) : Worker τ := { w with state := f w.state }

theorem Worker.settle_map (w : Worker σ) (f : σ → τ) : (w.map f).settle = w.settle.map f := by
  unfold settle
  rw [show (w.map f).drained = w.drained from rfl]
  split <;> rfl

namespace Service

variable {ε ρ α : Type}

def map (f : σ → τ) (s : Service σ ε ρ α) : Service τ ε ρ α := { s with worker := s.worker.map f }

variable (f : σ → τ) (s : Service σ ε ρ α) (j : Journal)

theorem isOpen_map : (s.map f).isOpen = s.isOpen := rfl

theorem send_map (m : Message ε ρ) : (s.map f).send j m = (s.send j m).map (map f) id := by
  cases running : s.isOpen with
  | true =>
    rw [send_of_open running, send_of_open (s := s.map f) running]
    rfl
  | false =>
    rw [send_of_closed running, send_of_closed (s := s.map f) running]
    rfl

theorem submit_map (e : ε) : (s.map f).submit j e = (s.submit j e).map (map f) id :=
  send_map f s.count j _

theorem submitWhileUp_map (e : ε) :
    (s.map f).submitWhileUp j e = (s.submitWhileUp j e).map (map f) id := by
  unfold submitWhileUp
  change (if s.shuttingDown then _ else _) = _
  split
  · rfl
  · exact submit_map f s j e

theorem ask_map (r : ρ) : (s.map f).ask j r = (s.ask j r).map (map f) id := by
  have sent := send_map f { s with cells := s.cells ++ [Cell.fresh] } j (.request r s.cells.length)
  simp only [ask] at sent ⊢
  exact congrArg (fun t => (t.1, t.2.map fun _ => s.cells.length)) sent

theorem terminate_map : (s.map f).terminate j = (s.terminate j).map (map f) id :=
  send_map f s j _

end Service

namespace Watermark

def Coordinator.map (f : σ → τ) (c : Coordinator σ) : Coordinator τ := ⟨f c.state, c.slot⟩

namespace Service

def map (f : σ → τ) (s : Service σ) : Service τ :=
  { s with core := s.core.map (Coordinator.map f) }

variable (f : σ → τ) (s : Service σ) (j : Journal)

theorem submitInitiated_map (w : Nat) (t : Instant) :
    (s.map f).submitInitiated j w t = (s.submitInitiated j w t).map (map f) id :=
  congrArg (fun r => (Service.mk r.1 s.patience s.writers, r.2))
    (s.core.submitWhileUp_map (Coordinator.map f) j (.initiated w t))

theorem submitCompleted_map (w : Nat) (t : Instant) :
    (s.map f).submitCompleted j w t = (s.submitCompleted j w t).map (map f) id :=
  congrArg (fun r => (Service.mk r.1 s.patience s.writers, r.2))
    (s.core.submit_map (Coordinator.map f) j (.completed w t))

theorem submitExternal_map (p : String) (t : Instant) :
    (s.map f).submitExternal j p t = (s.submitExternal j p t).map (map f) id :=
  congrArg (fun r => (Service.mk r.1 s.patience s.writers, r.2))
    (s.core.submit_map (Coordinator.map f) j (.external p t))

theorem ask_map (r : Request) : (s.map f).ask j r = (s.ask j r).map (map f) id :=
  congrArg (fun r => (Service.mk r.1 s.patience s.writers, r.2))
    (s.core.ask_map (Coordinator.map f) j r)

theorem registered_map (r : Except ServiceError Answer) :
    (s.map f).registered r = (s.registered r).map (map f) id := by
  rcases r with e | ⟨id | t⟩ <;> rfl

theorem pollRegistration_map (expired : Bool) (ticket : Nat) :
    (s.map f).pollRegistration j expired ticket =
      (s.pollRegistration j expired ticket).map (Prod.map (map f) id) := by
  unfold pollRegistration
  change (s.core.answer j registering s.patience.registration expired ticket).map _ = _
  rw [Option.map_map]
  exact congrArg (Option.map · _)
    (funext fun r =>
      registered_map f { s with core := s.core.modifyCell ticket Cell.dropPending } r)

theorem pollReading_map (expired : Bool) (ticket : Nat) :
    (s.map f).pollReading j expired ticket =
      (s.pollReading j expired ticket).map (Prod.map (map f) id) := by
  unfold pollReading
  change (s.core.answer j reading s.patience.read expired ticket).map _ = _
  rw [Option.map_map]
  rfl

theorem beginShutdown_map :
    (s.map f).beginShutdown j = (s.beginShutdown j).map (map f) id := by
  have sent := ({ s.core with shuttingDown := true }).terminate_map (Coordinator.map f) j
  unfold beginShutdown PacedLoad.Service.refuse
  change (if s.core.shuttingDown then _ else _) = _
  dsimp only
  split
  · rfl
  · exact congrArg (fun r => (Service.mk r.1 s.patience s.writers, r.2.map fun _ => true)) sent

end Service

end Watermark

section Delivery

variable {ε ρ α : Type} {duty : Duty σ ε ρ α} {duty' : Duty τ ε ρ α}

/-- A worker on the other books that makes the same of the oldest message goes on in the same way. -/
theorem Service.deliver_map {f : σ → τ} {s : Service σ ε ρ α} {now : Instant} {j : Journal}
    (same : ∀ m rest, s.isOpen = true → s.queue = m :: rest →
      (s.worker.map f).receive duty' now j m =
        (s.worker.receive duty now j m).map (Worker.map f) id) :
    (s.map f).deliver duty' now j = (s.deliver duty now j).map (map f) id := by
  unfold deliver
  rw [isOpen_map, show (s.map f).queue = s.queue from rfl]
  cases running : s.isOpen with
  | false => rfl
  | true =>
    cases waiting : s.queue with
    | nil => rfl
    | cons m rest =>
      simp only [show (s.map f).worker = s.worker.map f from rfl, same m rest running waiting]
      rcases s.worker.receive duty now j m with ⟨worker, k, answer⟩
      change (if worker.phase = .running then _ else _) = _
      dsimp only
      split <;> rfl

end Delivery

namespace Watermark

variable {b : Board} {peers : List String} {taken : List Letter}

/-- What is published of a board is what is published of the state that it stands for. -/
theorem publish_plain (positive : b.Positive) :
    Coordinator.publish b.plain = (Coordinator.publish b).map Board.plain := by
  rw [Coordinator.publish, Bookkeeping.globalCompletionTime_state,
    Board.plain_globalCompletionTime positive]
  rfl

theorem register_plain (b : Board) : b.plain.register = b.register.map Board.plain id := by
  simp only [State.register, Board.register, Board.plain, List.length_map, Prod.map_apply,
    List.map_append]
  rfl

/-- A worker that has published a board settles like one with the state that the board stands for. -/
theorem settle_plain (positive : b.Positive) (processed : Nat) (expected : Option Nat)
    (phase : WorkerPhase) :
    (⟨Coordinator.publish b.plain, processed, expected, phase⟩ : Worker Coordinator).settle =
      (⟨Coordinator.publish b, processed, expected, phase⟩ : Worker (Coordinator Board)).settle.map
        (Coordinator.map Board.plain) := by
  rw [publish_plain positive, ← Worker.settle_map]
  rfl

/-- What a worker with a board makes of a letter, in terms of the state that the board stands for. -/
theorem receive_plain {w : Worker (Coordinator Board)} {now : Instant} {j : Journal} {m : Letter}
    (ordered : w.state.state.Ordered) (positive : w.state.state.Positive)
    (room : ∀ e, m = .event e → w.state.state.Room (.announce e)) :
    (w.map (Coordinator.map Board.plain)).receive duty now j m =
      (w.receive duty now j m).map (Worker.map (Coordinator.map Board.plain)) id := by
  rcases w with ⟨⟨b, slot⟩, processed, expected, phase⟩
  dsimp only at ordered positive room
  cases m with
  | event e =>
    simp only [Worker.receive, duty, Worker.map, Coordinator.map]
    rw [Board.apply_plain ordered positive (room e rfl)]
    cases applied : Bookkeeping.apply b e with
    | error v => rfl
    | ok after =>
      have kept := positive.step (room e rfl) (Board.step_of_apply applied)
      exact congrArg (·, j, none) (settle_plain kept _ _ _)
  | request r ticket =>
    cases r with
    | register =>
      have kept := positive.step (Board.room_register b) .register
      simp only [Worker.receive, duty, Worker.map, Coordinator.map, Bookkeeping.register_state,
        register_plain]
      exact congrArg (·, j, some (ticket, Answer.writer b.writers.length))
        (settle_plain kept _ _ _)
    | read =>
      simp only [Worker.receive, duty, Worker.map, Coordinator.map,
        Bookkeeping.globalCompletionTime_state, Board.plain_globalCompletionTime positive]
      exact congrArg (·, j, some (ticket, Answer.time b.globalCompletionTime))
        (Worker.settle_map (⟨⟨b, slot⟩, processed, expected, phase⟩ : Worker (Coordinator Board))
          (Coordinator.map Board.plain))
  | terminate n =>
    cases expected with
    | some first => rfl
    | none =>
      exact congrArg (·, j, none)
        (Worker.settle_map (⟨⟨b, slot⟩, processed, some n, phase⟩ : Worker (Coordinator Board))
          (Coordinator.map Board.plain))

/-- The worker with the board that the letters so far have led to. -/
theorem deliver_plain {s : Service Board} {j : Journal}
    (board : s.core.worker.state.state = (Board.start peers).replay (callsOf taken))
    (few : ∀ m rest, s.core.isOpen = true → s.core.queue = m :: rest →
      FewCopies peers (callsOf (taken ++ [m]))) :
    (s.map Board.plain).deliver j = (s.deliver j).map (Service.map Board.plain) id := by
  have delivered : (s.core.map (Coordinator.map Board.plain)).deliver duty .first j =
      (s.core.deliver duty .first j).map (PacedLoad.Service.map (Coordinator.map Board.plain)) id := by
    refine PacedLoad.Service.deliver_map fun m rest running waiting => ?_
    have copies := few m rest running waiting
    have earlier : FewCopies peers (callsOf taken) :=
      copies.of_prefix (by simp [callsOf])
    refine receive_plain (board ▸ Board.ordered_replay peers _)
      (board ▸ (Board.plain_replay earlier).1) fun e sent => ?_
    subst sent
    rw [board]
    exact Board.room_of_few (by simpa [callsOf, called] using copies) (Board.recorded_of_few earlier)
  exact congrArg (fun r => (Service.mk r.1 s.patience s.writers, r.2)) delivered

end Watermark

end PacedLoad
