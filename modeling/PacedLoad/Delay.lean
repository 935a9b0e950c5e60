import PacedLoad.Journal
import PacedLoad.Time.Text

/-!
# Delay policies

A policy tolerates some delay of an operation's start.  When a start is later
than that, the policy is asked whether to go on, and may log or report the case.
-/

namespace PacedLoad

/-- What happens when the policy is asked. -/
inductive DelayNotice
  | silent
  /-- A line in the log. -/
  | logged (level : Level) (line : Operation → String)
  /-- A reported error. -/
  | reported (source : String) (message : Operation → String)

/-- A tolerated delay and the answers for starts beyond it, which may depend on how many
questions were asked before. -/
structure DelayPolicy where
  tolerated : Span
  accepts : Nat → Operation → Bool
  notice : DelayNotice

namespace DelayPolicy

/-- Adds what a question about `op` leaves in the journal. -/
def note (p : DelayPolicy) (op : Operation) (j : Journal) : Journal :=
  match p.notice with
  | .silent => j
  | .logged level line => j.log level (line op)
  | .reported source message => j.report source (message op)

/-- Asks whether an operation may start beyond the tolerated delay. -/
def judge (p : DelayPolicy) (op : Operation) (j : Journal) : Bool × Journal :=
  (p.accepts j.judged.length op, { p.note op j with judged := j.judged ++ [op] })

def permissive (tolerated : Span) : DelayPolicy := ⟨tolerated, fun _ _ => true, .silent⟩

def logging (tolerated : Span) : DelayPolicy where
  tolerated := tolerated
  accepts := fun _ _ => true
  notice := .logged .warning fun op =>
    s!"Operation {op.id} ({op.kind}) exceeded tolerated start delay of " ++ tolerated.text

def refusal (tolerated : Span) (op : Operation) : String :=
  s!"Operation {op.id} ({op.kind}) scheduled at {op.scheduledStart} exceeded tolerated start delay of "
    ++ tolerated.text

def reportSource : String := "delay-policy"

def strict (tolerated : Span) : DelayPolicy where
  tolerated := tolerated
  accepts := fun _ _ => false
  notice := .logged .error (refusal tolerated)

def strictReporting (tolerated : Span) : DelayPolicy where
  tolerated := tolerated
  accepts := fun _ _ => false
  notice := .reported reportSource (refusal tolerated)

end DelayPolicy

end PacedLoad
