import PacedLoad.Proofs.Watermark.Bookkeeping
import PacedLoad.Proofs.Watermark.Turns

/-!
# The worker with a board

The worker keeps a board, on which the copies of a time are counted.  Its board is that
of all calls that the letters have made, refused or not, and what it shows is decided by
the accepted ones, as long as the copies can be counted.
-/

namespace PacedLoad.Watermark

/-- The worker makes the call of a letter. -/
theorem receive_board {now : Instant} {w : Worker (Coordinator Board)} {j : Journal} (m : Letter) :
    (w.receive duty now j m).1.state.state = w.state.state.replay (callsOf [m]) := by
  cases m with
  | event e =>
    change _ = (w.state.state.call (.announce e)).1
    simp only [Worker.receive, duty]
    cases made : w.state.state.call (.announce e) with
    | mk after answer =>
      have applied := w.state.state.apply_eq e
      rw [made] at applied
      cases answer with
      | error v =>
        rw [applied, Board.call_refused made]
        rfl
      | ok done =>
        simp only [applied, Except.map, Worker.settle_state]
        rfl
  | request r ticket =>
    cases r <;> exact congrArg Coordinator.state (Worker.settle_state _)
  | terminate n =>
    simp only [Worker.receive]
    cases w.expected with
    | none => exact congrArg Coordinator.state (Worker.settle_state _)
    | some first => rfl

/-- A registration is answered with the next writer, which there was not before. -/
theorem receive_board_answer {now : Instant} {w : Worker (Coordinator Board)} {j : Journal}
    {m : Letter} {ticket id : Nat}
    (answered : (w.receive duty now j m).2.2 = some (ticket, .writer id)) :
    id < (w.receive duty now j m).1.state.state.writers.length := by
  cases m with
  | event e =>
    simp only [Worker.receive, duty] at answered
    cases applied : Bookkeeping.apply w.state.state e <;> simp [applied] at answered
  | request r ticket' =>
    cases r with
    | register =>
      rw [receive_board]
      have next : (Bookkeeping.register w.state.state).2 = id := by
        simpa [Worker.receive, duty] using congrArg (·.map Prod.snd) answered
      change w.state.state.writers.length = id at next
      simp [callsOf, called, Board.replay, Board.call, Board.register, ← next]
    | read => simp [Worker.receive, duty] at answered
  | terminate n =>
    simp only [Worker.receive] at answered
    cases expected : w.expected <;> simp [expected] at answered

variable {peers : List String} {calls : List Call} {w : Nat} {t v : Instant}

/-- What the board shows has been reached by the accepted calls of every writer. -/
theorem Board.reached_of_few (few : FewCopies peers calls)
    (reached : ∃ known, ((Board.start peers).replay calls).globalCompletionTime = some known ∧
      v ≤ known) (inside : w < ((Board.start peers).replay calls).writers.length) :
    (∃ last, (initiatedTimes ((Board.start peers).accepted calls) w).getLast? = some last ∧
      v ≤ last) ∧
    ∀ t, (completedTimes ((Board.start peers).accepted calls) w).count t <
      (initiatedTimes ((Board.start peers).accepted calls) w).count t → v < t := by
  have recorded := recorded_of_few few
  rw [← plain_globalCompletionTime (plain_replay few).1] at reached
  obtain ⟨-, writers, -⟩ := (State.reached_iff v).mp reached
  have found := plain_writer (List.getElem?_eq_getElem inside)
  have here := recorded.writer w _ found
  obtain ⟨last, above⟩ :=
    (Writer.reached_iff here.ordered v).mp (writers _ (List.mem_of_getElem? found))
  rw [here.last] at last
  refine ⟨last, fun t fewer => above t (List.count_pos_iff.mp ?_)⟩
  have balance := here.balance t
  omega

end PacedLoad.Watermark
