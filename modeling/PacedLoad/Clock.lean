import PacedLoad.Time.Basic

/-!
# Simulated time

A clock shows simulated time that runs at its own pace against real time.  It
remembers one moment at which both are known; a change of pace sets that moment
anew, so that simulated time does not jump.
-/

namespace PacedLoad

inductive TimeScale
  | normal
  | fast (multiplier : Nat)
  /-- A divisor of zero stops time. -/
  | slow (divisor : Nat)
  | fixed
deriving DecidableEq, Repr

def TimeScale.text : TimeScale → String
  | .normal => "Normal"
  | .fast n => s!"Fast({n})"
  | .slow n => s!"Slow({n})"
  | .fixed => "Fixed"

/-- The simulated span that passes during a real one. -/
def TimeScale.apply (scale : TimeScale) (real : Span) : Span :=
  match scale with
  | .normal => real
  | .fast n => Span.saturate (real.nanos * n)
  | .slow n => if n = 0 then Span.zero else Span.saturate (real.nanos / n)
  | .fixed => Span.zero

/-- A pace and a moment, in real nanoseconds and in simulated time. -/
structure WorldClock where
  scale : TimeScale
  real : Nat
  simulated : Instant
deriving DecidableEq, Repr

namespace WorldClock

/-- A clock that shows `time` at real moment `real` and runs normally. -/
def start (real : Nat) (time : Instant) : WorldClock := ⟨.normal, real, time⟩

/-- The simulated time at a real moment. -/
def now (c : WorldClock) (real : Nat) : Instant :=
  c.simulated.plus (c.scale.apply (Span.saturate (real - c.real)))

/-- Changes the pace: what the clock shows at the moment `measured` goes on from the moment
`anchored`, at which the new pace begins. -/
def rescale (c : WorldClock) (measured anchored : Nat) (scale : TimeScale) : WorldClock :=
  ⟨scale, anchored, c.now measured⟩

@[simp] theorem scale_rescale (c : WorldClock) (measured anchored : Nat) (scale : TimeScale) :
    (c.rescale measured anchored scale).scale = scale := rfl

def setScale (c : WorldClock) (real : Nat) (scale : TimeScale) : WorldClock :=
  c.rescale real real scale

@[simp] theorem scale_setScale (c : WorldClock) (real : Nat) (scale : TimeScale) :
    (c.setScale real scale).scale = scale := rfl

def advance (c : WorldClock) (d : Span) : WorldClock := { c with simulated := c.simulated.plus d }

@[simp] theorem scale_advance (c : WorldClock) (d : Span) : (c.advance d).scale = c.scale := rfl

def setTime (c : WorldClock) (real : Nat) (time : Instant) : WorldClock :=
  { c with simulated := time, real := real }

def fixed (real : Nat) (time : Instant) : WorldClock := (start real time).setScale real .fixed

def name : String := "WorldClock"

end WorldClock

def machineClockName : String := "SystemClock"

def anonymousClockName : String := "Clock"

end PacedLoad
