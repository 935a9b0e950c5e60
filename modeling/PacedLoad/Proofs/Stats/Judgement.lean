import Mathlib.Data.Nat.Find
import PacedLoad.Proofs.Handler.Call
import PacedLoad.Proofs.Stats.Course

/-!
# Late starts are judged once

The delay policy may be asked about an operation when its handler lets it go, and again when
its result comes to the statistics.  The two questions depend on different looks at the clock,
with a wait for a slot between them, and the result carries the only trace of the first one.
-/

namespace PacedLoad

open Handler Stats

namespace Handler

def Deed.isQuestion : Deed → Bool
  | .asked _ => true
  | _ => false

/-- How often a handler has asked the delay policy. -/
def Call.questions (c : Call) : Nat := c.deeds.countP Deed.isQuestion

variable {around : Surroundings} {op : Operation} {journal : Journal} {i m : Nat}
  {deeds : List Deed} {outcome : Outcome} {r : OperationResult}

/-! ## Questions of a handler -/

theorem questions_polled (readings : Readings) (op : Operation) (n : Nat) :
    ((List.range n).flatMap (readings.polled op)).countP Deed.isQuestion = 0 := by
  rw [List.countP_eq_zero]
  intro d member
  obtain ⟨i, -, polled⟩ := List.mem_flatMap.mp member
  unfold Readings.polled at polled
  rcases List.mem_cons.mp polled with rfl | read
  · exact Bool.false_ne_true
  · split at read
    · rw [List.mem_singleton.mp read]
      exact Bool.false_ne_true
    · cases read

/-- A handler that was let go asks no more. -/
theorem Executes.questions {late : Bool} {p : Nat} (executes : Executes around op late p deeds outcome) :
    deeds.countP Deed.isQuestion = 0 := by
  cases body : around.body op with
  | returned result => rw [executes.returned result body]; rfl
  | panicked message => rw [(executes.brokeOff message body).1]; rfl

/-- The result of a handler that was let go. -/
theorem Executes.ok {late : Bool} {p : Nat} (executes : Executes around op late p deeds (.ok r)) :
    r.operation = op ∧ r.actualStart = around.readings.clock p ∧ r.lateStartAccepted = late := by
  have accepted {before : Outcome} (closes : Closes op (around.completion op.scheduledStart) before
      (.ok r)) : .ok r = before := by
    cases submitted : around.completion op.scheduledStart with
    | error e => cases closes.hidden e submitted
    | ok _ => exact closes.shown submitted
  cases body : around.body op with
  | panicked message => cases (executes.brokeOff message body).2
  | returned result =>
    cases result with
    | error f => cases accepted (executes.failed f body)
    | ok made =>
      obtain ⟨took, -, closes⟩ := executes.succeeded made body
      cases accepted closes
      exact ⟨rfl, rfl, rfl⟩

/-- A handler asks about a start that exceeds the tolerated delay, and never otherwise. -/
theorem Concludes.questions_le (concludes : Concludes around op journal i deeds outcome) :
    deeds.countP Deed.isQuestion ≤ 1 := by
  by_cases exceeds : Exceeds around.policy op (around.readings.clock i)
  · cases verdict : (around.policy.judge op journal).1 with
    | true =>
      obtain ⟨rest, rfl, executes⟩ := concludes.accepted exceeds verdict
      rw [List.countP_cons, executes.questions]
      exact Nat.le_refl 1
    | false =>
      rw [(concludes.refused exceeds verdict).1]
      exact Nat.le_refl 1
  · rw [(concludes.punctual exceeds).questions]
    exact Nat.zero_le 1

/-- The two ways to a result: let go in time and without a question, or late after one question
that was answered with yes. -/
theorem Concludes.ok (concludes : Concludes around op journal i deeds (.ok r)) :
    r.operation = op ∧
      (¬ Exceeds around.policy op (around.readings.clock i) ∧ r.lateStartAccepted = false ∧
          deeds.countP Deed.isQuestion = 0 ∨
        Exceeds around.policy op (around.readings.clock i) ∧ r.lateStartAccepted = true ∧
          (around.policy.judge op journal).1 = true ∧ deeds.countP Deed.isQuestion = 1) := by
  by_cases exceeds : Exceeds around.policy op (around.readings.clock i)
  · cases verdict : (around.policy.judge op journal).1 with
    | true =>
      obtain ⟨rest, rfl, executes⟩ := concludes.accepted exceeds verdict
      refine ⟨executes.ok.1, .inr ⟨exceeds, executes.ok.2.2, rfl, ?_⟩⟩
      rw [List.countP_cons, executes.questions]
      rfl
    | false =>
      obtain ⟨-, delay, -, closes⟩ := concludes.refused exceeds verdict
      cases submitted : around.completion op.scheduledStart with
      | error e => cases closes.hidden e submitted
      | ok _ => cases closes.shown submitted
  · have executes := concludes.punctual exceeds
    exact ⟨executes.ok.1, .inl ⟨exceeds, executes.ok.2.2, executes.questions⟩⟩

namespace Call

/-- A step that asks leaves one question in the journal, and no other step leaves any. -/
theorem judged_step (around : Surroundings) (op : Operation) (c : Call) : ∃ asked,
    (step around op c).journal.judged = c.journal.judged ++ List.replicate asked op ∧
      (step around op c).questions = c.questions + asked := by
  unfold step
  cases needs : c.phase.need with
  | none => exact ⟨0, (List.append_nil _).symm, rfl⟩
  | some need =>
    by_cases verdict : need = .verdict
    · subst verdict
      exact ⟨1, rfl, List.countP_append⟩
    · refine ⟨0, by simp only [if_neg verdict, List.replicate_zero, List.append_nil], ?_⟩
      have silent : (deedOf op (around.answer op c.toWait need)).isQuestion = false := by
        cases need <;> first | rfl | exact absurd rfl verdict
      simp [questions, silent]

/-- The journal keeps each question. -/
theorem judged_run (around : Surroundings) (op : Operation) (journal : Journal) (m : Nat) :
    (run around op journal m).journal.judged =
      journal.judged ++ List.replicate (run around op journal m).questions op := by
  induction m with
  | zero => exact (List.append_nil _).symm
  | succ m ih =>
    obtain ⟨asked, judged, questions⟩ := judged_step around op (run around op journal m)
    rw [run, Function.iterate_succ_apply', ← run, judged, questions, ih, List.append_assoc,
      List.replicate_append_replicate]

/-- Either no poll admits the operation, or a first one settles all that the handler does. -/
theorem never_or_settled (around : Surroundings) (op : Operation) (journal : Journal) :
    (∀ i, ¬ around.readings.Admits op i) ∨
      ∃ i rest outcome, around.readings.Admits op i ∧ (∀ j < i, ¬ around.readings.Admits op j) ∧
        Concludes around op journal i rest outcome ∧
        EndsWith around op (start journal)
          ((List.range (i + 1)).flatMap (around.readings.polled op) ++ rest) outcome := by
  classical
  by_cases admitted : ∃ i, around.readings.Admits op i
  · have admits := Nat.find_spec admitted
    have first (j : Nat) (below : j < Nat.find admitted) := Nat.find_min admitted below
    obtain ⟨rest, outcome, concludes, ends⟩ := endsWith_start journal admits first
    exact .inr ⟨_, rest, outcome, admits, first, concludes, ends⟩
  · exact .inl (not_exists.mp admitted)

/-- An outcome comes from the first poll that admits the operation. -/
theorem settled_of_outcome (ended : (run around op journal m).outcome? = some outcome) :
    ∃ i rest, around.readings.Admits op i ∧ (∀ j < i, ¬ around.readings.Admits op j) ∧
      Concludes around op journal i rest outcome ∧
      (run around op journal m).questions = rest.countP Deed.isQuestion := by
  rcases never_or_settled around op journal with never | settled
  · have unanswered := (run_never journal never m).1
    rw [ended] at unanswered
    cases unanswered
  · obtain ⟨i, rest, outcome', admits, first, concludes, ends⟩ := settled
    obtain ⟨n, -, final⟩ := ends.run
    have same : run around op journal (m + n) = run around op journal m := by
      rw [run, Nat.add_comm, Function.iterate_add_apply, ← run, iterate_of_outcome ended]
    obtain ⟨ended', deeds⟩ := final (m + n) (Nat.le_add_left n m)
    rw [same] at ended' deeds
    cases ended.symm.trans ended'
    refine ⟨i, rest, admits, first, concludes, ?_⟩
    rw [questions, deeds, List.countP_append, questions_polled, Nat.zero_add]

/-- A handler asks at most once. -/
theorem questions_run_le (around : Surroundings) (op : Operation) (journal : Journal) (m : Nat) :
    (run around op journal m).questions ≤ 1 := by
  rcases never_or_settled around op journal with never | settled
  · refine (run_never journal never m).2.sublist.countP_le.trans ?_
    rw [questions_polled]
    exact Nat.zero_le 1
  · obtain ⟨i, rest, outcome, -, -, concludes, ends⟩ := settled
    obtain ⟨n, done, -⟩ := ends.run
    refine (done m).sublist.countP_le.trans ?_
    rw [List.countP_append, questions_polled, Nat.zero_add]
    exact concludes.questions_le

end Call

end Handler

/-! ## Questions of the statistics -/

namespace Stats.Collector

variable {c : Collector} {j : Journal} {r : OperationResult}

/-- The statistics drop a result: they neither count it nor fail. -/
def Drops (c : Collector) (j : Journal) (r : OperationResult) : Prop :=
  (c.collect j r).2 = none ∧ (c.collect j r).1.1.workload = c.workload

/-- What the statistics do with a result that they do not have to judge: it is counted, unless
its operation has no kind. -/
structure TakesUnasked (c : Collector) (j : Journal) (r : OperationResult) : Prop where
  named : r.operation.kind ≠ "" → ∃ w, c.workload.measure r = .ok w ∧
    c.collect j r = (({ c.offer r with workload := w }, j), none)
  nameless : r.operation.kind = "" →
    c.collect j r = ((c.offer r, j), some (foldMessage r (.noKind r.operation.id)))

theorem collect_judged (c : Collector) (j : Journal) (r : OperationResult) :
    (c.collect j r).1.2.judged =
      j.judged ++ List.replicate (if c.needsJudgement r then 1 else 0) r.operation := by
  have questions : c.questions [r] =
      List.replicate (if c.needsJudgement r then 1 else 0) r.operation := by
    cases needed : c.needsJudgement r <;> simp [Collector.questions, needed]
  rw [← questions, ← DelayPolicy.judgeAll_judged c.policy, collect_eq]
  dsimp only
  split
  · split <;> rfl
  · rfl

theorem takesUnasked (idle : c.needsJudgement r = false) : c.TakesUnasked j r := by
  have quiet : c.questions [r] = [] := by simp [Collector.questions, idle]
  have counts : c.counts j.judged.length r = true := by simp [counts_eq, idle]
  have taken := c.collect_eq j r
  simp only [quiet, counts, if_true, DelayPolicy.judgeAll, List.foldl_nil] at taken
  constructor
  · intro named
    cases measured : c.workload.measure r with
    | ok w => exact ⟨w, rfl, by rw [taken, measured]⟩
    | error e => simp [Workload.measure, named] at measured
  · intro nameless
    rw [taken]
    simp only [Workload.measure, nameless, if_true]

/-- A result that is dropped was judged, and the policy refused it. -/
theorem Drops.refused (drops : c.Drops j r) :
    c.needsJudgement r = true ∧ (c.policy.judge r.operation j).1 = false := by
  obtain ⟨fine, same⟩ := drops
  rw [collect_eq] at fine same
  dsimp only at fine same
  cases counts : c.counts j.judged.length r with
  | false =>
    rw [counts_eq] at counts
    simp only [Bool.or_eq_false_iff, Bool.not_eq_false'] at counts
    exact counts
  | true =>
    simp only [counts, if_true] at fine same
    cases measured : c.workload.measure r with
    | error e => simp [measured] at fine
    | ok w =>
      simp only [measured] at same
      have more := (Workload.measure_ok measured).1
      rw [same] at more
      omega

end Stats.Collector

namespace Stats

/-- An operation is judged at most once, by its handler or when its result is recorded, whatever
the policy of the statistics answers, as long as it tolerates the same delay.  A late start that
was accepted is not judged again, and a result that is dropped comes from an operation that was
let go in time and started late. -/
theorem judged_once (around : Surroundings) (op : Operation) (journal : Journal) (m : Nat) :
    ∃ asked, (Call.run around op journal m).journal.judged =
        journal.judged ++ List.replicate asked op ∧ asked ≤ 1 ∧
      ∀ r, (Call.run around op journal m).outcome? = some (.ok r) →
        ∀ (c : Collector) (j : Journal), c.policy.tolerated = around.policy.tolerated →
          ∃ again, (c.collect j r).1.2.judged = j.judged ++ List.replicate again op ∧
            asked + again ≤ 1 ∧
            (asked = 1 → (around.policy.judge op journal).1 = true ∧ c.TakesUnasked j r) ∧
            (c.Drops j r → asked = 0 ∧ again = 1 ∧ (c.policy.judge op j).1 = false ∧
              Exceeds around.policy op r.actualStart ∧
              ∃ i, around.readings.Admits op i ∧ (∀ k < i, ¬ around.readings.Admits op k) ∧
                ¬ Exceeds around.policy op (around.readings.clock i)) := by
  refine ⟨_, Call.judged_run around op journal m, Call.questions_run_le around op journal m,
    fun r ended c j tolerated => ?_⟩
  obtain ⟨i, rest, admits, first, concludes, questions⟩ := Call.settled_of_outcome ended
  obtain ⟨rfl, cases⟩ := concludes.ok
  refine ⟨_, c.collect_judged j r, ?_⟩
  rw [questions]
  rcases cases with ⟨punctual, unaccepted, none⟩ | ⟨exceeds, accepted, verdict, one⟩
  · rw [none]
    refine ⟨by split <;> omega, fun one => absurd one (by decide), fun drops => ?_⟩
    obtain ⟨needed, refused⟩ := drops.refused
    rw [if_pos needed]
    refine ⟨rfl, rfl, refused, ?_, i, admits, first, punctual⟩
    simp only [Collector.needsJudgement, OperationResult.startedTooLate, tolerated, Bool.and_eq_true,
      decide_eq_true_eq] at needed
    exact plus_tolerated_lt_iff.mp needed.1.2
  · have idle : c.needsJudgement r = false := by simp [Collector.needsJudgement, accepted]
    rw [one, idle]
    refine ⟨Nat.le_refl 1, fun _ => ⟨verdict, Collector.takesUnasked idle⟩, fun drops => ?_⟩
    exact absurd drops.refused.1 (idle ▸ Bool.false_ne_true)

def firstOperation (kind : String) : Operation := ⟨7, kind, Instant.first, none, .null⟩

/-- What surrounds a handler that finds `now` at its first look at the clock and a tenth of a second
at all later ones.  The policy tolerates half of that and accepts every start. -/
def tenthLater (now : Instant) : Surroundings where
  readings := ⟨fun i => if i = 0 then now else Instant.ofMillis 100, fun _ => none⟩
  policy := DelayPolicy.permissive (Span.ofMillis 50)
  body _ := .returned (.ok ⟨0, .null⟩)
  completion _ := .ok ()

def lateResult (kind : String) (lateStartAccepted : Bool) : OperationResult :=
  ⟨firstOperation kind, Instant.ofMillis 100, Span.zero, 0, .null, lateStartAccepted⟩

/-- Statistics with a policy that tolerates the same delay and refuses every later start. -/
def strictCollector : Collector :=
  ⟨Workload.start Instant.first, DelayPolicy.strict (Span.ofMillis 50), true, none⟩

/-- An operation that is let go in time and then waits for its slot starts late, and its result is
dropped after the only question about it. -/
theorem judged_once_dropped :
    (Call.run (tenthLater Instant.first) (firstOperation "read") Journal.empty 6).outcome? =
        some (.ok (lateResult "read" false)) ∧
      strictCollector.Drops Journal.empty (lateResult "read" false) ∧
      Exceeds (tenthLater Instant.first).policy (firstOperation "read") (Instant.ofMillis 100) ∧
      (Call.run (tenthLater Instant.first) (firstOperation "read") Journal.empty 6).journal.judged =
        [] ∧
      (strictCollector.collect Journal.empty (lateResult "read" false)).1.2.judged =
        [firstOperation "read"] := by
  obtain ⟨asked, judged, -, later⟩ :=
    judged_once (tenthLater Instant.first) (firstOperation "read") Journal.empty 6
  have drops : strictCollector.Drops Journal.empty (lateResult "read" false) :=
    ⟨by decide +kernel, by decide +kernel⟩
  obtain ⟨again, judged', -, -, dropped⟩ := later (lateResult "read" false) rfl strictCollector
    Journal.empty rfl
  obtain ⟨none, one, -, exceeds, -⟩ := dropped drops
  subst none one
  exact ⟨rfl, drops, exceeds, judged, judged'⟩

/-- The late start of an operation without a kind is accepted when it is let go, but its result is
not counted. -/
theorem accepted_not_counted :
    (Call.run (tenthLater (Instant.ofMillis 100)) (firstOperation "") Journal.empty 7).outcome? =
        some (.ok (lateResult "" true)) ∧
      (Call.run (tenthLater (Instant.ofMillis 100)) (firstOperation "") Journal.empty 7).journal.judged =
        [firstOperation ""] ∧
      strictCollector.collect Journal.empty (lateResult "" true) =
        ((strictCollector, Journal.empty),
          some (Collector.foldMessage (lateResult "" true) (.noKind 7))) :=
  ⟨rfl, rfl, rfl⟩

end Stats

end PacedLoad
