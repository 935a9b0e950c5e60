import PacedLoad.Proofs.Handler.Waiting

/-!
# Whole calls

A handler waits for its start, gets a slot, lets its body run and completes the announced
start.  All that it does is kept in order, with what it saw.  The first poll that admits the
operation settles everything after it: a refused start, a body that fails, one that makes a
result and one that breaks off each have their own deeds and their own outcome, which a refused
completion hides.
-/

namespace PacedLoad.Handler

/-- All that a handler depends on: what the clock and the global completion time show, how the
policy answers, what the body does and whether a completed start is accepted. -/
structure Surroundings where
  readings : Readings
  policy : DelayPolicy
  body : Operation → BodyResult
  completion : Instant → Except ServiceError Unit

inductive Deed
  /-- Looks at the clock. -/
  | looked (now : Instant)
  /-- Looks at the global completion time. -/
  | read (gct : Option Instant)
  /-- Asks the delay policy. -/
  | asked (accepted : Bool)
  /-- Gets its slot. -/
  | entered
  /-- Lets the body run. -/
  | ran (result : BodyResult)
  /-- Completes a start. -/
  | completed (start : Instant) (submitted : Except ServiceError Unit)

def Deed.need : Deed → Need
  | .looked _ => .clock
  | .read _ => .watermark
  | .asked _ => .verdict
  | .entered => .slot
  | .ran _ => .body
  | .completed .. => .submission

structure Call extends Wait where
  deeds : List Deed

def Surroundings.answer (around : Surroundings) (op : Operation) (w : Wait) : Need → Event
  | .clock => .clock (around.readings.clock w.polls)
  | .watermark => .watermark (around.readings.watermark (w.polls - 1))
  | .verdict => .verdict (around.policy.judge op w.journal).1
  | .slot => .slot true
  | .body => .body (around.body op)
  | .submission => .submission (around.completion op.scheduledStart)

def deedOf (op : Operation) : Event → Deed
  | .clock now => .looked now
  | .watermark gct => .read gct
  | .verdict accepted => .asked accepted
  | .slot _ => .entered
  | .body result => .ran result
  | .submission submitted => .completed op.scheduledStart submitted

namespace Call

def start (journal : Journal) : Call := ⟨.start journal, []⟩

def step (around : Surroundings) (op : Operation) (c : Call) : Call :=
  match c.phase.need with
  | none => c
  | some need =>
    { phase := c.phase.next op around.policy.tolerated (around.answer op c.toWait need)
      polls := if need = .clock then c.polls + 1 else c.polls
      journal := if need = .verdict then (around.policy.judge op c.journal).2 else c.journal
      deeds := c.deeds ++ [deedOf op (around.answer op c.toWait need)] }

def run (around : Surroundings) (op : Operation) (journal : Journal) (n : Nat) : Call :=
  (step around op)^[n] (start journal)

/-- The outcome, once there is one. -/
def outcome? (c : Call) : Option Outcome := c.phase.outcome?

end Call

/-! ## What a call should do -/

/-- The deeds of one poll: the global completion time is only looked at when the start is due and
the operation depends on a time. -/
def Readings.polled (readings : Readings) (op : Operation) (i : Nat) : List Deed :=
  .looked (readings.clock i) ::
    if op.scheduledStart ≤ readings.clock i ∧ op.dependencyTime.isSome = true then
      [.read (readings.watermark i)]
    else []

/-- The outcome `before` stands unless the completion was refused. -/
structure Closes (op : Operation) (submitted : Except ServiceError Unit)
    (before outcome : Outcome) : Prop where
  hidden : ∀ e, submitted = .error e → outcome = .error (.completionTime op.id e)
  shown : submitted = .ok () → outcome = before

/-- What a handler does that was let go, and its outcome.  The clock was looked at `p` times
before. -/
structure Executes (around : Surroundings) (op : Operation) (late : Bool) (p : Nat)
    (deeds : List Deed) (outcome : Outcome) : Prop where
  returned : ∀ r, around.body op = .returned r →
    deeds = [.entered, .looked (around.readings.clock p), .ran (.returned r),
      .looked (around.readings.clock (p + 1)),
      .completed op.scheduledStart (around.completion op.scheduledStart)]
  failed : ∀ f, around.body op = .returned (.error f) →
    Closes op (around.completion op.scheduledStart) (.error (.failure op.id f)) outcome
  succeeded : ∀ made, around.body op = .returned (.ok made) → ∃ took : Span,
    took.nanos = (around.readings.clock (p + 1)).nanos - (around.readings.clock p).nanos ∧
    Closes op (around.completion op.scheduledStart)
      (.ok { operation := op, actualStart := around.readings.clock p, runDuration := took,
             resultCode := made.code, value := made.value, lateStartAccepted := late }) outcome
  brokeOff : ∀ message, around.body op = .panicked message →
    deeds = [.entered, .looked (around.readings.clock p), .ran (.panicked message)] ∧
      outcome = .error (.panicked op.id message)

/-- What a handler does after the poll `i`, which admits its operation, and its outcome. -/
structure Concludes (around : Surroundings) (op : Operation) (journal : Journal) (i : Nat)
    (deeds : List Deed) (outcome : Outcome) : Prop where
  punctual : ¬ Exceeds around.policy op (around.readings.clock i) →
    Executes around op false (i + 1) deeds outcome
  accepted : Exceeds around.policy op (around.readings.clock i) →
    (around.policy.judge op journal).1 = true →
    ∃ rest, deeds = .asked true :: rest ∧ Executes around op true (i + 1) rest outcome
  refused : Exceeds around.policy op (around.readings.clock i) →
    (around.policy.judge op journal).1 = false →
    deeds = [.asked false, .completed op.scheduledStart (around.completion op.scheduledStart)] ∧
    ∃ delay : Span,
      (delay.nanos : Int) = ((around.readings.clock i).nanos : Int) - (op.scheduledStart.nanos : Int) ∧
      Closes op (around.completion op.scheduledStart) (.error (.excessiveDelay op.id delay)) outcome

namespace Call

variable {around : Surroundings} {op : Operation} {journal : Journal} {c c' c'' : Call}
  {deeds : List Deed} {i : Nat}

/-! ## From one state to another -/

/-- The handler comes from `c` to `c'`. -/
def Reaches (around : Surroundings) (op : Operation) (c c' : Call) : Prop :=
  ∃ n, (step around op)^[n] c = c'

theorem Reaches.refl (c : Call) : Reaches around op c c := ⟨0, rfl⟩

theorem Reaches.head (rest : Reaches around op (step around op c) c') : Reaches around op c c' := by
  obtain ⟨n, arrives⟩ := rest
  exact ⟨n + 1, arrives⟩

theorem Reaches.trans (first : Reaches around op c c') (second : Reaches around op c' c'') :
    Reaches around op c c'' := by
  obtain ⟨n, rfl⟩ := first
  obtain ⟨k, rfl⟩ := second
  exact ⟨k + n, Function.iterate_add_apply _ k n c⟩

/-- Deeds are never taken back. -/
theorem prefix_step (c : Call) : c.deeds <+: (step around op c).deeds := by
  unfold step
  split
  · exact List.prefix_rfl
  · exact List.prefix_append _ _

theorem prefix_iterate (c : Call) {m n : Nat} (le : m ≤ n) :
    ((step around op)^[m] c).deeds <+: ((step around op)^[n] c).deeds := by
  induction n, le using Nat.le_induction with
  | base => exact List.prefix_rfl
  | succ n _ ih =>
    rw [Function.iterate_succ_apply']
    exact ih.trans (prefix_step _)

/-- A handler with an outcome does nothing more. -/
theorem step_of_outcome {outcome : Outcome} (ended : c.outcome? = some outcome) :
    step around op c = c := by
  obtain ⟨⟨phase, polls, journal⟩, deeds⟩ := c
  cases phase <;> first | rfl | cases ended

theorem iterate_of_outcome {outcome : Outcome} (ended : c.outcome? = some outcome) (n : Nat) :
    (step around op)^[n] c = c :=
  Function.iterate_fixed (step_of_outcome ended) n

theorem polls_run_le (around : Surroundings) (op : Operation) (journal : Journal) (n : Nat) :
    (run around op journal n).polls ≤ n := by
  induction n with
  | zero => exact Nat.le_refl 0
  | succ n ih =>
    rw [run, Function.iterate_succ_apply', ← run]
    unfold step
    split
    · exact Nat.le_succ_of_le ih
    · dsimp only
      split
      · exact Nat.succ_le_succ ih
      · exact Nat.le_succ_of_le ih

/-! ## The wait -/

/-- A poll that does not admit the operation leads to the next poll. -/
theorem reaches_next (held : ¬ around.readings.Admits op i) :
    Reaches around op ⟨⟨.waiting, i, journal⟩, deeds⟩
      ⟨⟨.waiting, i + 1, journal⟩, deeds ++ around.readings.polled op i⟩ := by
  refine .head ?_
  rcases lt_or_ge (around.readings.clock i) op.scheduledStart with early | due
  · simp only [step, Phase.need, Phase.next, Surroundings.answer, if_pos early, reduceCtorEq,
      if_true, if_false, Readings.polled, deedOf, not_le_of_gt early, false_and]
    exact .refl _
  · have unmet : ¬ dependencyMet op (around.readings.watermark i) = true :=
      fun met => held (Readings.admits_iff.mpr ⟨due, met⟩)
    cases dependent : op.dependencyTime.isSome with
    | false => exact absurd (dependencyMet_of_independent dependent _) unmet
    | true =>
      refine .head ?_
      simp only [step, Phase.need, Phase.next, Surroundings.answer, if_neg (not_lt_of_ge due),
        dependent, reduceCtorEq, if_true, if_false, Readings.polled, deedOf, due, and_self,
        List.append_assoc, List.cons_append, List.nil_append, Nat.add_sub_cancel, if_neg unmet]
      exact .refl _

/-- A poll that admits the operation leads to the lateness test. -/
theorem reaches_due (admits : around.readings.Admits op i) :
    Reaches around op ⟨⟨.waiting, i, journal⟩, deeds⟩
      ⟨⟨.due op around.policy.tolerated (around.readings.clock i), i + 1, journal⟩,
        deeds ++ around.readings.polled op i⟩ := by
  obtain ⟨due, met⟩ := Readings.admits_iff.mp admits
  refine .head ?_
  cases dependent : op.dependencyTime.isSome with
  | false =>
    simp only [step, Phase.need, Phase.next, Surroundings.answer, if_neg (not_lt_of_ge due),
      dependent, reduceCtorEq, if_true, if_false, Readings.polled, deedOf, Bool.false_eq_true,
      and_false]
    exact .refl _
  | true =>
    refine .head ?_
    simp only [step, Phase.need, Phase.next, Surroundings.answer, if_neg (not_lt_of_ge due),
      dependent, reduceCtorEq, if_true, if_false, Readings.polled, deedOf, due, and_self,
      List.append_assoc, List.cons_append, List.nil_append, Nat.add_sub_cancel, if_pos met]
    exact .refl _

/-- The `i`th poll is reached when none before it admits the operation. -/
theorem reaches_poll (held : ∀ j < i, ¬ around.readings.Admits op j) :
    Reaches around op (start journal)
      ⟨⟨.waiting, i, journal⟩, (List.range i).flatMap (around.readings.polled op)⟩ := by
  induction i with
  | zero => exact .refl _
  | succ i ih =>
    rw [List.range_succ, List.flatMap_append, List.flatMap_singleton]
    exact (ih fun j below => held j (Nat.lt_succ_of_lt below)).trans
      (reaches_next (held i (Nat.lt_succ_self i)))

/-- A wait that is not admitted goes on as the wait alone does. -/
theorem toWait_step {lo : Nat} (held : Wait.Held around.readings op journal lo c.toWait) :
    (step around op c).toWait = c.toWait.step around.policy around.readings op := by
  obtain ⟨wait, deeds⟩ := c
  cases held <;> rfl

theorem held_iterate {lo : Nat} (never : ∀ k ≥ lo, ¬ around.readings.Admits op k)
    (held : Wait.Held around.readings op journal lo c.toWait) (n : Nat) :
    Wait.Held around.readings op journal lo ((step around op)^[n] c).toWait := by
  induction n with
  | zero => exact held
  | succ n ih =>
    rw [Function.iterate_succ_apply', toWait_step ih]
    exact ih.step never

theorem outcome?_of_held {lo : Nat} (held : Wait.Held around.readings op journal lo c.toWait) :
    c.outcome? = none := by
  obtain ⟨wait, deeds⟩ := c
  cases held <;> rfl

/-! ## What follows the wait -/

theorem closes_close (op : Operation) (submitted : Except ServiceError Unit) (before : Outcome) :
    ∃ outcome, Phase.close op submitted before = .finished outcome ∧
      Closes op submitted before outcome := by
  cases submitted with
  | ok _ => exact ⟨before, rfl, by rintro e ⟨⟩, fun _ => rfl⟩
  | error e => exact ⟨.error (.completionTime op.id e), rfl, by rintro _ ⟨⟩; rfl, by rintro ⟨⟩⟩

variable {now : Instant} {late : Bool} {p : Nat}

/-- A body that returns is timed, and then the start is completed. -/
theorem reaches_returned {r : Except Failure Product} (returned : around.body op = .returned r) :
    Reaches around op ⟨⟨.released ⟨now, late⟩, p, journal⟩, deeds⟩
      ⟨⟨.close op (around.completion op.scheduledStart) (outcomeOf op late (around.readings.clock p)
          ((around.readings.clock (p + 1)).since (around.readings.clock p)) r), p + 2, journal⟩,
        deeds ++ [.entered, .looked (around.readings.clock p), .ran (.returned r),
          .looked (around.readings.clock (p + 1)),
          .completed op.scheduledStart (around.completion op.scheduledStart)]⟩ := by
  refine ⟨5, ?_⟩
  simp only [Function.iterate_succ_apply, Function.iterate_zero_apply, step, Phase.need, Phase.next,
    Surroundings.answer, deedOf, returned, reduceCtorEq, if_true, if_false, List.append_assoc,
    List.cons_append, List.nil_append]

/-- A body that breaks off leaves the start open. -/
theorem reaches_panicked {m : String} (panicked : around.body op = .panicked m) :
    Reaches around op ⟨⟨.released ⟨now, late⟩, p, journal⟩, deeds⟩
      ⟨⟨.finished (.error (.panicked op.id m)), p + 1, journal⟩,
        deeds ++ [.entered, .looked (around.readings.clock p), .ran (.panicked m)]⟩ := by
  refine ⟨3, ?_⟩
  simp only [Function.iterate_succ_apply, Function.iterate_zero_apply, step, Phase.need, Phase.next,
    Surroundings.answer, deedOf, panicked, reduceCtorEq, if_true, if_false, List.append_assoc,
    List.cons_append, List.nil_append]

/-- The policy refuses: nothing runs, and the start is completed. -/
theorem reaches_refused (refused : (around.policy.judge op journal).1 = false) :
    Reaches around op ⟨⟨.late now, p, journal⟩, deeds⟩
      ⟨⟨.close op (around.completion op.scheduledStart)
          (.error (.excessiveDelay op.id (now.since op.scheduledStart))), p,
          (around.policy.judge op journal).2⟩,
        deeds ++ [.asked false,
          .completed op.scheduledStart (around.completion op.scheduledStart)]⟩ := by
  refine ⟨2, ?_⟩
  simp only [Function.iterate_succ_apply, Function.iterate_zero_apply, step, Phase.need, Phase.next,
    Surroundings.answer, deedOf, refused, Bool.false_eq_true, reduceCtorEq, if_true, if_false,
    List.append_assoc, List.cons_append, List.nil_append]

/-- The policy accepts. -/
theorem reaches_accepted (accepted : (around.policy.judge op journal).1 = true) :
    Reaches around op ⟨⟨.late now, p, journal⟩, deeds⟩
      ⟨⟨.released ⟨now, true⟩, p, (around.policy.judge op journal).2⟩, deeds ++ [.asked true]⟩ := by
  refine ⟨1, ?_⟩
  simp only [Function.iterate_succ_apply, Function.iterate_zero_apply, step, Phase.need, Phase.next,
    Surroundings.answer, deedOf, accepted, reduceCtorEq, if_true, if_false]

def EndsWith (around : Surroundings) (op : Operation) (c : Call) (deeds : List Deed)
    (outcome : Outcome) : Prop :=
  ∃ c', Reaches around op c c' ∧ c'.outcome? = some outcome ∧ c'.deeds = c.deeds ++ deeds

theorem EndsWith.of_reaches {rest more : List Deed} {outcome : Outcome}
    (ends : EndsWith around op c' rest outcome) (reaches : Reaches around op c c')
    (grown : c'.deeds = c.deeds ++ more) : EndsWith around op c (more ++ rest) outcome := by
  obtain ⟨last, arrives, ended, done⟩ := ends
  exact ⟨last, reaches.trans arrives, ended, by rw [done, grown, List.append_assoc]⟩

/-- What follows a release. -/
theorem endsWith_released (around : Surroundings) (op : Operation) (now : Instant) (late : Bool)
    (p : Nat) (journal : Journal) (deeds : List Deed) :
    ∃ rest outcome, Executes around op late p rest outcome ∧
      EndsWith around op ⟨⟨.released ⟨now, late⟩, p, journal⟩, deeds⟩ rest outcome := by
  cases body : around.body op with
  | panicked message =>
    refine ⟨_, _, ⟨?_, ?_, ?_, ?_⟩, _, reaches_panicked body, rfl, rfl⟩
    all_goals simp only [body, reduceCtorEq, BodyResult.panicked.injEq, false_implies, implies_true]
    rintro _ rfl
    exact ⟨rfl, rfl⟩
  | returned r =>
    obtain ⟨outcome, ended, closes⟩ := closes_close op (around.completion op.scheduledStart)
      (outcomeOf op late (around.readings.clock p)
        ((around.readings.clock (p + 1)).since (around.readings.clock p)) r)
    refine ⟨_, outcome, ⟨?_, ?_, ?_, ?_⟩, _, reaches_returned body, by rw [ended]; rfl, rfl⟩
    all_goals simp only [body, reduceCtorEq, BodyResult.returned.injEq, false_implies, implies_true]
    · rintro _ rfl
      rfl
    · rintro f rfl
      exact closes
    · rintro made rfl
      exact ⟨_, rfl, closes⟩

/-- What follows the lateness test. -/
theorem endsWith_due (around : Surroundings) (op : Operation) (journal : Journal) (i : Nat)
    (deeds : List Deed) :
    ∃ rest outcome, Concludes around op journal i rest outcome ∧
      EndsWith around op
        ⟨⟨.due op around.policy.tolerated (around.readings.clock i), i + 1, journal⟩, deeds⟩
        rest outcome := by
  by_cases exceeds : Exceeds around.policy op (around.readings.clock i)
  · rw [due_of_exceeds exceeds]
    cases verdict : (around.policy.judge op journal).1 with
    | true =>
      obtain ⟨rest, outcome, executes, ends⟩ := endsWith_released around op
        (around.readings.clock i) true (i + 1) (around.policy.judge op journal).2
        (deeds ++ [.asked true])
      exact ⟨.asked true :: rest, outcome,
        ⟨absurd exceeds, fun _ _ => ⟨rest, rfl, executes⟩, fun _ no => by simp [verdict] at no⟩,
        ends.of_reaches (reaches_accepted verdict) rfl⟩
    | false =>
      obtain ⟨outcome, ended, closes⟩ := closes_close op (around.completion op.scheduledStart)
        (.error (.excessiveDelay op.id ((around.readings.clock i).since op.scheduledStart)))
      exact ⟨_, outcome, ⟨absurd exceeds, fun _ yes => by simp [verdict] at yes,
        fun _ _ => ⟨rfl, _, since_of_exceeds exceeds, closes⟩⟩,
        _, reaches_refused verdict, by rw [ended]; rfl, rfl⟩
  · rw [due_of_not_exceeds exceeds]
    obtain ⟨rest, outcome, executes, ends⟩ := endsWith_released around op
      (around.readings.clock i) false (i + 1) journal deeds
    exact ⟨rest, outcome, ⟨fun _ => executes, fun e => absurd e exceeds, fun e => absurd e exceeds⟩,
      ends⟩

/-- The first poll that admits the operation settles all that the handler does. -/
theorem endsWith_start (journal : Journal) (admits : around.readings.Admits op i)
    (first : ∀ j < i, ¬ around.readings.Admits op j) :
    ∃ rest outcome, Concludes around op journal i rest outcome ∧
      EndsWith around op (start journal)
        ((List.range (i + 1)).flatMap (around.readings.polled op) ++ rest) outcome := by
  obtain ⟨rest, outcome, concludes, ends⟩ := endsWith_due around op journal i
    ((List.range (i + 1)).flatMap (around.readings.polled op))
  refine ⟨rest, outcome, concludes, ends.of_reaches ((reaches_poll first).trans ?_) rfl⟩
  rw [List.range_succ, List.flatMap_append, List.flatMap_singleton]
  exact reaches_due admits

/-- What was done at last was done step by step, and nothing is done after that. -/
theorem EndsWith.run {done : List Deed} {outcome : Outcome}
    (ends : EndsWith around op (start journal) done outcome) :
    ∃ n, (∀ m, (run around op journal m).deeds <+: done) ∧
      ∀ m ≥ n, (run around op journal m).outcome? = some outcome ∧
        (run around op journal m).deeds = done := by
  obtain ⟨last, ⟨n, arrives⟩, ended, deeds⟩ := ends
  have later {m : Nat} (late : n ≤ m) : Call.run around op journal m = last := by
    obtain ⟨d, rfl⟩ := Nat.exists_eq_add_of_le' late
    rw [Call.run, Function.iterate_add_apply, arrives, iterate_of_outcome ended]
  refine ⟨n, fun m => ?_, fun m late => ?_⟩
  · have whole : (Call.run around op journal (max m n)).deeds = done := by
      rw [later (le_max_right m n), deeds]
      rfl
    rw [← whole]
    exact prefix_iterate _ (le_max_left m n)
  · rw [later late]
    exact ⟨ended, deeds⟩

/-- A handler that is never admitted only polls. -/
theorem run_never (journal : Journal) (never : ∀ i, ¬ around.readings.Admits op i) (m : Nat) :
    (run around op journal m).outcome? = none ∧
      (run around op journal m).deeds <+: (List.range m).flatMap (around.readings.polled op) := by
  have held : Wait.Held around.readings op journal 0 (start journal).toWait := .waiting 0 le_rfl
  refine ⟨outcome?_of_held (held_iterate (fun k _ => never k) held m), ?_⟩
  obtain ⟨n, arrives⟩ : Reaches around op (start journal) ⟨⟨.waiting, m, journal⟩, _⟩ :=
    reaches_poll fun j _ => never j
  -- Each poll takes a step or more, so that the `m`th is not reached before the `m`th step.
  have le : m ≤ n := by
    have polls := polls_run_le around op journal n
    rwa [run, arrives] at polls
  have deeds : (run around op journal m).deeds <+: ((step around op)^[n] (start journal)).deeds :=
    prefix_iterate _ le
  rwa [arrives] at deeds

end Call

end PacedLoad.Handler
