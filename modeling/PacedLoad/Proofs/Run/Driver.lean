import PacedLoad.Run.Basic

/-!
# The steps of the driver

The stage of the driver decides its step, and each stage has its own function.  The
final drain and the wait for a free place share theirs.
-/

namespace PacedLoad.Run

variable {β σ : Type} {s t : Run β σ} {expired : Bool}

/-- The steps that a driver can take.  A driver whose report is being saved, or that has
finished, takes none. -/
inductive Driven (s : Run β σ) (expired : Bool) : Run β σ → Prop
  | pull (here : s.stage = .pull) : Driven s expired s.pull
  | enrol {op : Operation} (here : s.stage = .enrol op) : Driven s expired (s.enrol op)
  | enrolling {op : Operation} {ticket : Nat} (here : s.stage = .enrolling op ticket) :
      Driven s expired (s.enrolling expired op ticket)
  | announce {op : Operation} {t : Run β σ} (here : s.stage = .announce op)
      (announced : s.announce op = some t) : Driven s expired t
  | submit {op : Operation} {writer : Nat} (here : s.stage = .submit op writer) :
      Driven s expired (s.submit op writer)
  | room (here : s.stage = .window) (room : s.inFlight < s.config.maxInFlightOperations) :
      Driven s expired (s.goTo .sweep)
  | full (here : s.stage = .window) (full : ¬ s.inFlight < s.config.maxInFlightOperations) :
      Driven s expired (s.next .sweep)
  | sweep {outcome : Handler.Outcome} {t : Run β σ} (here : s.stage = .sweep)
      (taken : s.take = some (outcome, t)) : Driven s expired (t.collect outcome)
  | swept (here : s.stage = .sweep) (none : s.take = none) : Driven s expired (s.goTo .check)
  | check (here : s.stage = .check) :
      Driven s expired (if s.journal.hasErrors then s.abort s.failed else s.goTo .pull)
  | drain (here : s.stage = .drain) : Driven s expired (s.next (.interrupt (.ok ())))
  | interrupt {ending : Except RunError Unit} (here : s.stage = .interrupt ending) :
      Driven s expired { s with
        floor := { s.floor with pool := s.floor.pool.shutdownNow }, stage := .clear ending }
  | clear {ending : Except RunError Unit} (here : s.stage = .clear ending) :
      Driven s expired (s.clear ending)
  | readTime (here : s.stage = .readTime) : Driven s expired s.readTime
  | readingTime {ticket : Nat} (here : s.stage = .readingTime ticket) :
      Driven s expired (s.readingTime expired ticket)
  | stopWatermark {ending : Except RunError (Option Instant)}
      (here : s.stage = .stopWatermark ending) : Driven s expired (s.stopWatermark ending)
  | stoppingWatermark {ending : Except RunError (Option Instant)}
      (here : s.stage = .stoppingWatermark ending) :
      Driven s expired (s.stoppingWatermark expired ending)
  | readStats {gct : Option Instant} (here : s.stage = .readStats gct) :
      Driven s expired (s.readStats gct)
  | readingStats {gct : Option Instant} {ticket : Nat} (here : s.stage = .readingStats gct ticket) :
      Driven s expired (s.readingStats expired gct ticket)
  | stopStats {ending : Except RunError Report} (here : s.stage = .stopStats ending) :
      Driven s expired (s.stopStats ending)
  | stoppingStats {ending : Except RunError Report} (here : s.stage = .stoppingStats ending) :
      Driven s expired (s.stoppingStats expired ending)

/-- A step of the driver is the one of its stage. -/
theorem driven_of_step (moved : s.stepDriver expired = some t) : s.Driven expired t := by
  unfold stepDriver at moved
  split at moved
  next here => cases moved; exact .pull here
  next op here => cases moved; exact .enrol here
  next op ticket here => cases moved; exact .enrolling here
  next op here => exact .announce here moved
  next op writer here => cases moved; exact .submit here
  next here =>
    split at moved <;> cases moved
    next room => exact .room here room
    next full => exact .full here full
  next here =>
    split at moved <;> cases moved
    next outcome t taken => exact .sweep here taken
    next none => exact .swept here none
  next here => cases moved; exact .check here
  next here => cases moved; exact .drain here
  next ending here => cases moved; exact .interrupt here
  next ending here => cases moved; exact .clear here
  next here => cases moved; exact .readTime here
  next ticket here => cases moved; exact .readingTime here
  next ending here => cases moved; exact .stopWatermark here
  next ending here => cases moved; exact .stoppingWatermark here
  next gct here => cases moved; exact .readStats here
  next gct ticket here => cases moved; exact .readingStats here
  next ending here => cases moved; exact .stopStats here
  next ending here => cases moved; exact .stoppingStats here
  next => cases moved
  next => cases moved

end PacedLoad.Run
