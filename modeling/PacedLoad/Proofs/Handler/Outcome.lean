import PacedLoad.Proofs.Handler.Call
import PacedLoad.Proofs.Handler.Phase
import PacedLoad.Proofs.Handler.Release

/-!
# Outcomes

A handler that runs alone does what a call over the same readings does, step by step, and
has the same outcome.  It gives up only where the call would wait for ever.
-/

namespace PacedLoad.Handler

namespace Replay

def around (s : Replay) (op : Operation) : Surroundings where
  readings := s.readings op
  policy := s.policy
  body _ := s.body
  completion _ := match s.refusal with | some e => .error e | none => .ok ()

/-- What is left of the global completion time is what the replay `s₀` leaves after as many polls,
as long as the handler may still look at it. -/
inductive Ahead (s₀ : Replay) (op : Operation) (left : List (Option Instant)) :
    Phase → Nat → Prop
  | waiting {i : Nat} (same : left = ((poll op)^[i] s₀).watermark) : Ahead s₀ op left .waiting i
  | dependent {i : Nat} (same : left = ((poll op)^[i] s₀).watermark)
      (due : op.scheduledStart ≤ (s₀.readings op).clock i)
      (depends : op.dependencyTime.isSome = true) :
      Ahead s₀ op left (.dependent ((s₀.readings op).clock i)) (i + 1)
  | gone {phase : Phase} {i : Nat} (gone : phase.held = false) : Ahead s₀ op left phase i

/-- The replay `s`, which began as `s₀`, stands where the call does. -/
structure Follows (s₀ : Replay) (op : Operation) (s : Replay) (c : Call) : Prop where
  policy : s.policy = s₀.policy
  body : s.body = s₀.body
  refusal : s.refusal = s₀.refusal
  journal : s.journal = c.journal
  needs : s.needs = s₀.needs ++ c.deeds.map Deed.need
  clock : s.clock = ((poll op)^[c.polls] s₀).clock
  ahead : Ahead s₀ op s.watermark c.phase c.polls

variable {op : Operation} {s₀ s : Replay} {c : Call} {need : Need} {phase : Phase}

theorem follows_start (s₀ : Replay) (op : Operation) :
    Follows s₀ op s₀ (.start s₀.journal) :=
  ⟨rfl, rfl, rfl, rfl, (List.append_nil _).symm, rfl, .waiting rfl⟩

/-- The global completion time shows both the same, when the handler looks at it. -/
theorem Ahead.headD {i : Nat} (ahead : Ahead s₀ op s.watermark phase i)
    (needs : phase.need = some .watermark) :
    s.watermark.headD none = (s₀.readings op).watermark (i - 1) := by
  cases ahead with
  | waiting same => cases needs
  | dependent same due depends => rw [same]; rfl
  | gone gone =>
    cases phase <;> cases needs
    cases gone

/-- Both get the same answers. -/
theorem Follows.answer (follows : Follows s₀ op s c) (needs : c.phase.need = some need) :
    s.answer op need = (s₀.around op).answer op c.toWait need := by
  cases need with
  | clock => simp only [Replay.answer, Surroundings.answer, around, readings, follows.clock]
  | watermark => simp only [Replay.answer, Surroundings.answer, around, follows.ahead.headD needs]
  | verdict =>
    simp only [Replay.answer, Surroundings.answer, around, follows.policy, follows.journal]
  | slot => rfl
  | body => simp only [Replay.answer, Surroundings.answer, around, follows.body]
  | submission =>
    exact congrArg (fun refusal : Option ServiceError =>
      Event.submission (match refusal with | some e => .error e | none => .ok ())) follows.refusal

theorem need_deedOf (around : Surroundings) (op : Operation) (w : Wait) (need : Need) :
    (deedOf op (around.answer op w need)).need = need := by
  cases need <;> rfl

/-- A handler that has been admitted does not wait again. -/
theorem held_next {tolerated : Span} (gone : phase.held = false) (e : Event) :
    (phase.next op tolerated e).held = false := by
  cases phase <;> try cases gone
  case started accepted start =>
    cases e with
    | body result => cases result <;> rfl
    | _ => rfl
  all_goals
    cases e <;> simp only [Phase.next, Phase.close] <;> (repeat' split) <;> rfl

theorem held_due (op : Operation) (tolerated : Span) (now : Instant) :
    (Phase.due op tolerated now).held = false := by
  unfold Phase.due
  split <;> rfl

theorem watermark_poll (op : Operation) (s : Replay) : (s.poll op).watermark =
    if op.scheduledStart ≤ s.clock.headD Instant.first ∧ op.dependencyTime.isSome = true then
      laterReadings s.watermark
    else s.watermark := by
  unfold poll
  split <;> rfl

/-- An early start leads to the next poll, and a due one to the dependency or the lateness test. -/
theorem ahead_clock {i : Nat} (tolerated : Span) (left : s.watermark = ((poll op)^[i] s₀).watermark)
    (clock : s.clock = ((poll op)^[i] s₀).clock) :
    Ahead s₀ op s.watermark (Phase.waiting.next op tolerated (s.answer op .clock)) (i + 1) := by
  have now : s.clock.headD Instant.first = (s₀.readings op).clock i := by
    rw [clock]
    rfl
  simp only [Phase.next, Replay.answer, now]
  split
  next early =>
    refine .waiting ?_
    rw [Function.iterate_succ_apply', watermark_poll, ← clock, ← left, now,
      if_neg fun due => absurd due.1 (not_le_of_gt early)]
  next due =>
    split
    next depends => exact .dependent left (not_lt.mp due) depends
    next => exact .gone (held_due _ _ _)

theorem Ahead.next {i : Nat} (ahead : Ahead s₀ op s.watermark phase i)
    (clock : s.clock = ((poll op)^[i] s₀).clock) (needs : phase.need = some need)
    (tolerated : Span) :
    Ahead s₀ op (s.after op need).watermark (phase.next op tolerated (s.answer op need))
      (if need = .clock then i + 1 else i) := by
  cases ahead with
  | waiting left =>
    cases needs
    exact ahead_clock tolerated left clock
  | @dependent i left due depends =>
    cases needs
    simp only [Phase.next, Replay.answer, reduceCtorEq, if_false]
    split
    next => exact .gone (held_due _ _ _)
    next =>
      refine .waiting ?_
      change laterReadings s.watermark = _
      rw [left, Function.iterate_succ_apply', watermark_poll]
      exact (if_pos ⟨due, depends⟩).symm
  | gone gone => exact .gone (held_next gone _)

theorem Follows.step (follows : Follows s₀ op s c) (needs : c.phase.need = some need) :
    Follows s₀ op (s.after op need) (c.step (s₀.around op) op) := by
  have answer := follows.answer needs
  obtain ⟨policy, body, refusal, journal, done, clock, ahead⟩ := follows
  have stepped : c.step (s₀.around op) op =
    { phase := c.phase.next op s₀.policy.tolerated (s.answer op need)
      polls := if need = .clock then c.polls + 1 else c.polls
      journal := if need = .verdict then (s₀.policy.judge op c.journal).2 else c.journal
      deeds := c.deeds ++ [deedOf op ((s₀.around op).answer op c.toWait need)] } := by
    rw [Call.step, needs, answer]
    rfl
  rw [stepped]
  refine ⟨policy, body, refusal, ?_, ?_, ?_, ahead.next clock needs _⟩
  · simp only [after, policy, journal]
  · simp only [after, done, List.map_append, List.map_cons, List.map_nil, need_deedOf,
      List.append_assoc]
  · by_cases look : need = .clock
    · simp only [after, look, if_true, Function.iterate_succ_apply', poll_clock, clock]
    · simp only [after, look, if_false, clock]

/-! ### Handlers that give up -/

/-- Only a handler that waits can come no nearer to its outcome. -/
theorem stepsLeft_next (gone : phase.held = false) (needs : phase.need = some need) :
    (phase.next op s.policy.tolerated (s.answer op need)).stepsLeft < phase.stepsLeft := by
  cases phase <;> cases needs <;> try cases gone
  case started accepted start =>
    simp only [Phase.next, Replay.answer]
    cases s.body <;> simp [Phase.stepsLeft]
  all_goals
    simp only [Phase.next, Replay.answer, Phase.close]
    (repeat' split) <;> simp [Phase.stepsLeft]

/-- A handler that waits and comes no nearer to its outcome is never admitted again. -/
theorem Ahead.never {i : Nat} (ahead : Ahead s₀ op s.watermark phase i) (journal : Journal)
    (clock : s.clock = ((poll op)^[i] s₀).clock) (needs : phase.need = some need)
    (same : ¬ (s.after op need).weight (phase.next op s.policy.tolerated (s.answer op need)) <
      s.weight phase) :
    ∃ lo, (∀ k ≥ lo, ¬ (s₀.readings op).Admits op k) ∧
      Wait.Held (s₀.readings op) op journal lo ⟨phase, i, journal⟩ := by
  cases ahead with
  | waiting left =>
    cases needs
    have now : s.clock.headD Instant.first = (s₀.readings op).clock i := by
      rw [clock]
      rfl
    have early : (s₀.readings op).clock i < op.scheduledStart := by
      refine not_le.mp fun due => same (weight_after_lt ?_)
      simp only [Phase.next, Replay.answer, now, if_neg (not_lt_of_ge due)]
      split
      · exact Nat.lt_succ_self 10
      · exact Nat.lt_succ_of_lt (stepsLeft_due_lt _ _ ((s₀.readings op).clock i))
    have goesOn : Phase.waiting.next op s.policy.tolerated (s.answer op .clock) = .waiting :=
      if_pos (now ▸ early)
    refine ⟨i, not_admits_of_early early ?_, .waiting i le_rfl⟩
    rw [goesOn] at same
    rw [← clock]
    simpa [weight, after] using same
  | @dependent i left due depends =>
    cases needs
    have unmet : ¬ dependencyMet op ((s₀.readings op).watermark i) = true := by
      refine fun met => same (weight_after_lt ?_)
      simp only [Phase.next, Replay.answer, left]
      exact (if_pos met).symm ▸ stepsLeft_due_lt _ _ _
    have goesOn : (Phase.dependent ((s₀.readings op).clock i)).next op s.policy.tolerated
        (s.answer op .watermark) = .waiting := if_neg (left ▸ unmet)
    refine ⟨i, not_admits_of_unmet unmet ?_, .dependent i le_rfl due⟩
    rw [goesOn] at same
    rw [← left]
    simp only [weight, after, Phase.stepsLeft, reduceCtorEq, if_true, if_false] at same
    omega
  | gone gone => exact absurd (weight_after_lt (stepsLeft_next gone needs)) same

theorem Follows.phase_step (follows : Follows s₀ op s c) (needs : c.phase.need = some need) :
    (c.step (s₀.around op) op).phase =
      c.phase.next op s.policy.tolerated (s.answer op need) := by
  rw [Call.step, needs, follows.answer needs, follows.policy]
  rfl

theorem outcome?_of_need (done : phase.need = none) : phase.outcome?.isSome := by
  cases phase <;> first | rfl | cases done

/-- Induction on the weight: the replay goes on as the call does, up to an outcome or to a state
from which the call never has one. -/
theorem run_follows (s₀ : Replay) (op : Operation) (s : Replay) (c : Call)
    (follows : Follows s₀ op s c) :
    ∃ n c', (Call.step (s₀.around op) op)^[n] c = c' ∧
      Follows s₀ op (s.run (fun _ => false) op c.phase).1 c' ∧
      (s.run (fun _ => false) op c.phase).2 = c'.phase ∧
      (c'.outcome?.isSome ∨ ∀ m, ((Call.step (s₀.around op) op)^[m] c').outcome? = none) := by
  induction left : s.weight c.phase using Nat.strong_induction_on generalizing s c with
  | _ w ih =>
    rw [run, if_neg Bool.false_ne_true]
    cases needs : c.phase.need with
    | none => exact ⟨0, c, rfl, follows, rfl, .inl (outcome?_of_need needs)⟩
    | some need =>
      dsimp only
      split
      next lower =>
        rw [← follows.phase_step needs] at lower ⊢
        obtain ⟨n, last, arrives, rest⟩ :=
          ih _ (left ▸ lower) (s.after op need) (c.step (s₀.around op) op) (follows.step needs) rfl
        exact ⟨n + 1, last, arrives, rest⟩
      next same =>
        obtain ⟨lo, never, held⟩ := follows.ahead.never c.journal follows.clock needs same
        refine ⟨0, c, rfl, follows, rfl, .inr fun m => ?_⟩
        have held' : Wait.Held (s₀.around op).readings op c.journal lo c.toWait := held
        exact Call.outcome?_of_held (Call.held_iterate never held' m)

/-- A handler that runs alone has the outcome of the call, if that ever has one, and then it has
needed what the call has done. -/
theorem call_follows (s : Replay) (op : Operation) : ∃ n, ∀ m ≥ n,
    (s.call op).2 = (Call.run (s.around op) op s.journal m).outcome? ∧
      ∀ outcome, (s.call op).2 = some outcome →
        (s.call op).1.journal = (Call.run (s.around op) op s.journal m).journal ∧
        (s.call op).1.needs =
          s.needs ++ (Call.run (s.around op) op s.journal m).deeds.map Deed.need := by
  obtain ⟨n, last, arrives, follows, phase, ended⟩ :=
    run_follows s op s (.start s.journal) (follows_start s op)
  have call : s.call op = ((s.run (fun _ => false) op .waiting).1, last.outcome?) :=
    congrArg (fun p : Phase => ((s.run (fun _ => false) op .waiting).1, p.outcome?)) phase
  refine ⟨n, fun m late => ?_⟩
  obtain ⟨d, rfl⟩ := Nat.exists_eq_add_of_le' late
  rw [call, Call.run, Function.iterate_add_apply, arrives]
  cases outcome : last.outcome? with
  | none =>
    rcases ended with finished | never
    · rw [outcome] at finished
      cases finished
    · exact ⟨(never d).symm, by rintro _ ⟨⟩⟩
  | some outcome' =>
    rw [Call.iterate_of_outcome outcome]
    exact ⟨outcome.symm, fun _ _ => ⟨follows.journal, follows.needs⟩⟩

end Replay

/-- All that a handler does, and its outcome. -/
theorem outcome_of_call (op : Operation) :
    (∀ (around : Surroundings) (journal : Journal),
      (∀ i, around.readings.Admits op i → (∀ j < i, ¬ around.readings.Admits op j) →
        ∃ rest outcome, Concludes around op journal i rest outcome ∧
          let done := (List.range (i + 1)).flatMap (around.readings.polled op) ++ rest
          ∃ n, (∀ m, (Call.run around op journal m).deeds <+: done) ∧
            ∀ m ≥ n, (Call.run around op journal m).outcome? = some outcome ∧
              (Call.run around op journal m).deeds = done) ∧
      ((∀ i, ¬ around.readings.Admits op i) →
        ∀ m, (Call.run around op journal m).outcome? = none ∧
          (Call.run around op journal m).deeds <+:
            (List.range m).flatMap (around.readings.polled op))) ∧
    ∀ s : Replay, ∃ n, ∀ m ≥ n,
      (s.call op).2 = (Call.run (s.around op) op s.journal m).outcome? ∧
        ∀ outcome, (s.call op).2 = some outcome →
          (s.call op).1.journal = (Call.run (s.around op) op s.journal m).journal ∧
          (s.call op).1.needs =
            s.needs ++ (Call.run (s.around op) op s.journal m).deeds.map Deed.need := by
  refine ⟨fun around journal => ⟨fun i admits first => ?_, fun never m => ?_⟩, fun s => ?_⟩
  · obtain ⟨rest, outcome, concludes, ends⟩ := Call.endsWith_start journal admits first
    exact ⟨rest, outcome, concludes, ends.run⟩
  · exact Call.run_never journal never m
  · exact Replay.call_follows s op

end PacedLoad.Handler
