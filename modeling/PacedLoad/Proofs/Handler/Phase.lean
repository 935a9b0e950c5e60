import PacedLoad.Handler.Phase

/-!
# Which handlers complete their start

A handler completes the announced start exactly once, at the end: after a refused
late start, a failure of its body or a result.  It never does when it is
interrupted, when its body breaks off, or when its completion is refused.
-/

namespace PacedLoad.Handler

def completes : Outcome → Bool
  | .ok _ | .error (.failure ..) | .error (.excessiveDelay ..) => true
  | .error _ => false

/-- Whether a handler was cut short: interrupted, or left by a body that broke off. -/
def cutShort : Outcome → Bool
  | .error (.interrupted _) | .error (.panicked ..) => true
  | _ => false

theorem completes_outcomeOf (op : Operation) (accepted : Bool) (start : Instant) (run : Span)
    (result : Except Failure Product) : completes (outcomeOf op accepted start run result) = true := by
  cases result <;> rfl

namespace Phase

def completed : Phase → Bool
  | .finished outcome => completes outcome
  | _ => false

def isFinished : Phase → Bool
  | .finished _ => true
  | _ => false

/-- Whether the start has not been let go: the handler waits for its time or its dependency. -/
def held : Phase → Bool
  | .waiting | .dependent _ => true
  | _ => false

/-- An outcome that only lacks the completion of the start will complete it. -/
def Sound : Phase → Prop
  | .completing outcome => completes outcome = true
  | _ => True

variable {op : Operation} {tolerated : Span} {phase : Phase}

theorem sound_next (sound : phase.Sound) (e : Event) : (phase.next op tolerated e).Sound := by
  cases phase <;> cases e <;>
    simp only [next, due, close] <;> (repeat' split) <;>
    first | trivial | exact sound | exact completes_outcomeOf ..

/-- A handler that needs something has no outcome yet. -/
theorem isFinished_of_need {need : Need} (needs : phase.need = some need) :
    phase.isFinished = false := by
  cases phase <;> simp_all [Phase.need, isFinished]

/-- A handler that can be interrupted has no outcome. -/
theorem isFinished_of_interruptible (interruptible : phase.interruptible = true) :
    phase.isFinished = false := by
  cases phase <;> first | rfl | cases interruptible

theorem completed_of_not_finished (running : phase.isFinished = false) :
    phase.completed = false := by
  cases phase <;> simp_all [completed, isFinished]

/-- Nothing but a submission completes a start. -/
theorem completed_next {need : Need} (needs : phase.need = some need)
    (other : need ≠ .submission) (e : Event) :
    (phase.next op tolerated e).completed = false := by
  cases phase <;> cases needs <;> first | exact absurd rfl other | skip
  case started accepted start =>
    cases e with
    | body result => cases result <;> rfl
    | _ => rfl
  all_goals
    cases e <;> simp only [next, due] <;> (repeat' split) <;> rfl

/-- Only a submission, a refused slot or a body that breaks off ends a handler. -/
theorem unfinished_next {need : Need} (needs : phase.need = some need) (other : need ≠ .submission)
    {e : Event} (granted : e ≠ .slot false) (returned : ∀ m, e ≠ .body (.panicked m)) :
    (phase.next op tolerated e).isFinished = false := by
  cases phase <;> cases needs <;> first | exact absurd rfl other | skip
  case released r =>
    cases e with
    | slot accepted =>
      cases accepted with
      | false => exact absurd rfl granted
      | true => rfl
    | _ => rfl
  case started accepted start =>
    cases e with
    | body result =>
      cases result with
      | returned r => rfl
      | panicked m => exact absurd rfl (returned m)
    | _ => rfl
  all_goals
    cases e <;> simp only [next, due] <;> (repeat' split) <;> rfl

/-- An accepted submission completes the start. -/
theorem completed_accepted (sound : phase.Sound) (needs : phase.need = some .submission) :
    (phase.next op tolerated (.submission (.ok ()))).completed = true := by
  cases phase <;> cases needs
  case refused delay => rfl
  case completing outcome => exact sound

/-- A refused submission ends the handler with its start left open. -/
theorem next_refused (needs : phase.need = some .submission) (e : ServiceError) :
    phase.next op tolerated (.submission (.error e)) =
      .finished (.error (.completionTime op.id e)) := by
  cases phase <;> cases needs <;> rfl

/-- A handler whose operation depends on a time is let go only after a look at a published time
that has reached it. -/
theorem met_of_released {e : Event} {required : Instant} (held : phase.held = true)
    (released : (phase.next op tolerated e).held = false)
    (depends : op.dependencyTime = some required) :
    ∃ gct, e = .watermark (some gct) ∧ required ≤ gct := by
  cases phase with
  | waiting =>
    cases e with
    | clock now =>
      simp only [next, depends, Option.isSome_some, if_true] at released
      split at released <;> cases released
    | _ => cases released
  | dependent now =>
    cases e with
    | watermark gct =>
      simp only [next, dependencyMet, depends] at released
      cases gct with
      | none => cases released
      | some gct =>
        by_cases met : required ≤ gct
        · exact ⟨gct, rfl, met⟩
        · simp [met, Phase.held] at released
    | _ => cases released
  | _ => cases held

end Phase

end PacedLoad.Handler
