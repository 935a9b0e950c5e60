import Mathlib.Data.List.Induction
import PacedLoad.Proofs.Run.Simulation

/-!
# Runs as sequences of moves

What every move keeps holds in the end, and what becomes true becomes true with one
move.  Ghost lists, read off the queue of the completion time service, hold the
letters that its worker has taken and what the driver has initiated.
-/

namespace PacedLoad

open Handler Watermark

variable {β σ : Type}

def initiations (letters : List Letter) : List (Nat × Instant) :=
  letters.filterMap fun
    | .event (.initiated writer time) => some (writer, time)
    | _ => none

def completions (letters : List Letter) : List (Nat × Instant) :=
  letters.filterMap fun
    | .event (.completed writer time) => some (writer, time)
    | _ => none

section Partial

variable {S M : Type} {step : S → M → Option S} {s t : S} {moves : List M}

/-- What holds at first and is kept by every move holds in the end. -/
theorem foldlM_induct {P : List M → S → Prop} (ran : moves.foldlM step s = some t) (first : P [] s)
    (kept : ∀ (earlier : List M) (m : M) (u v : S), earlier ++ [m] <+: moves →
      earlier.foldlM step s = some u → step u m = some v → P earlier u → P (earlier ++ [m]) v) :
    P moves t := by
  induction moves using List.reverseRecOn generalizing t with
  | nil =>
    cases ran
    exact first
  | append_singleton earlier m ih =>
    rw [List.foldlM_append] at ran
    obtain ⟨u, led, ran⟩ := Option.bind_eq_some_iff.mp ran
    obtain ⟨v, moved, same⟩ := Option.bind_eq_some_iff.mp ran
    cases same
    refine kept earlier m u _ List.prefix_rfl led moved (ih led fun before m' u' v' part => ?_)
    exact kept before m' u' v' (part.trans (List.prefix_append _ _))

/-- What becomes true becomes true with one of the moves. -/
theorem exists_move_of_foldlM {P : S → Prop} (ran : moves.foldlM step s = some t) (before : ¬ P s)
    (after : P t) : ∃ earlier m later u v, moves = earlier ++ m :: later ∧
      earlier.foldlM step s = some u ∧ ¬ P u ∧ step u m = some v ∧ P v := by
  induction moves generalizing s with
  | nil =>
    cases ran
    exact absurd after before
  | cons m rest ih =>
    obtain ⟨u, moved, ran⟩ := Option.bind_eq_some_iff.mp ran
    by_cases here : P u
    · exact ⟨[], m, rest, s, u, rfl, rfl, before, moved, here⟩
    · obtain ⟨earlier, m', later, v, w, split, led, fresh, moved', there⟩ := ih ran here
      refine ⟨m :: earlier, m', later, v, w, by rw [split]; rfl, ?_, fresh, moved', there⟩
      rw [List.foldlM_cons, moved]
      exact led

end Partial

namespace Run

/-- The letter that the worker of the completion time service takes in a move. -/
def takenBy (s : Run β σ) : Choice → List Letter
  | .watermark =>
    if s.floor.watermark.core.isOpen then s.floor.watermark.core.queue.take 1 else []
  | _ => []

/-- The letters that the worker takes during several moves, the oldest first. -/
def delivered [Bookkeeping σ] (s : Run β σ) : List Choice → List Letter
  | [] => []
  | c :: rest =>
    match s.step c with
    | some t => s.takenBy c ++ t.delivered rest
    | none => []

/-- What the driver initiates during several moves, in order: the writers and the starts that the
completion time service is told. -/
def initiated [Bookkeeping σ] (s : Run β σ) : List Choice → List (Nat × Instant)
  | [] => []
  | c :: rest =>
    match s.step c with
    | some t =>
      initiations (t.floor.watermark.core.queue.drop s.floor.watermark.core.queue.length) ++
        t.initiated rest
    | none => []

variable [Bookkeeping σ] {s t u : Run β σ} {choices earlier later : List Choice} {c : Choice}

theorem steps_eq (s : Run β σ) (choices : List Choice) : s.steps choices = choices.foldlM step s := by
  induction choices generalizing s with
  | nil => rfl
  | cons c rest ih =>
    rw [steps, List.foldlM_cons]
    exact congrArg (s.step c).bind (funext ih)

theorem steps_cons (moved : s.step c = some t) : s.steps (c :: later) = t.steps later := by
  rw [steps, moved]
  rfl

theorem steps_append (s : Run β σ) (earlier later : List Choice) :
    s.steps (earlier ++ later) = (s.steps earlier).bind (·.steps later) := by
  simp only [steps_eq, List.foldlM_append]
  rfl

theorem delivered_concat (led : s.steps earlier = some u) (moved : u.step c = some t) :
    s.delivered (earlier ++ [c]) = s.delivered earlier ++ u.takenBy c := by
  induction earlier generalizing s with
  | nil =>
    cases led
    simp [delivered, moved]
  | cons first rest ih =>
    obtain ⟨v, stepped, led⟩ := Option.bind_eq_some_iff.mp led
    simp only [List.cons_append, delivered, stepped, ih led, List.append_assoc]

@[inherit_doc foldlM_induct]
theorem steps_induct {P : List Choice → Run β σ → Prop} (ran : s.steps choices = some t)
    (first : P [] s)
    (kept : ∀ (earlier : List Choice) (c : Choice) (u v : Run β σ), earlier ++ [c] <+: choices →
      s.steps earlier = some u → u.step c = some v → P earlier u → P (earlier ++ [c]) v) :
    P choices t := by
  simp only [steps_eq] at ran kept
  exact foldlM_induct ran first kept

def single : Config := { Config.standard with threadCount := 1 }

/-- A body that succeeds at once. -/
def prompt : Work Unit := fun shared _ => some (shared, .returned (.ok ⟨0, .null⟩))

end Run

end PacedLoad
