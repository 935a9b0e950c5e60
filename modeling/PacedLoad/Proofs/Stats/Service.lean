import PacedLoad.Config
import PacedLoad.Proofs.Service.Queue
import PacedLoad.Proofs.Stats.Tally

/-!
# What the statistics count

The policies of a run either accept every late start or refuse every one, and report
each refusal.  So it does not depend on the order of questions which results are
dropped: those that started too late, are not accepted yet, and are to be judged
under the strict policy.
-/

namespace PacedLoad

open Stats

namespace Config

variable {config : Config}

/-- Whether the statistics drop a result. -/
def drops (config : Config) (r : OperationResult) : Bool :=
  config.delayPolicy = .strict && (config.recordStartDelay &&
    r.startedTooLate config.tolerated && !r.lateStartAccepted)

def refusal (config : Config) (op : Operation) : ReportedError :=
  ⟨DelayPolicy.reportSource, DelayPolicy.refusal config.tolerated op⟩

/-- The errors that a policy reports of the operations it was asked about. -/
def refusals (config : Config) (judged : List Operation) : List ReportedError :=
  if config.delayPolicy = .strict then judged.map config.refusal else []

@[simp] theorem policy_tolerated (config : Config) : config.policy.tolerated = config.tolerated := by
  unfold policy
  cases config.delayPolicy <;> rfl

theorem policy_accepts (config : Config) (n : Nat) (op : Operation) :
    config.policy.accepts n op = !decide (config.delayPolicy = .strict) := by
  unfold policy
  cases config.delayPolicy <;> rfl

/-- A question is noted, and reported if it is a refusal. -/
theorem policy_judge (config : Config) (op : Operation) (j : Journal) :
    (config.policy.judge op j).2.judged = j.judged ++ [op] ∧
      (config.policy.judge op j).2.errors = j.errors ++ config.refusals [op] := by
  unfold DelayPolicy.judge DelayPolicy.note policy refusals
  cases config.delayPolicy <;> simp [DelayPolicy.permissive, DelayPolicy.logging,
    DelayPolicy.strictReporting, refusal, Journal.report]

theorem refusals_append (config : Config) (first second : List Operation) :
    config.refusals (first ++ second) = config.refusals first ++ config.refusals second := by
  unfold refusals
  split <;> simp

/-- Only the strict policy reports anything, or drops a result. -/
theorem refusals_lenient (lenient : config.delayPolicy ≠ .strict) (judged : List Operation) :
    config.refusals judged = [] := if_neg lenient

theorem drops_lenient (lenient : config.delayPolicy ≠ .strict) (r : OperationResult) :
    config.drops r = false := by simp [drops, lenient]

end Config

namespace Journal

/-- The policy's refusals are all that was reported. -/
def OnlyRefusals (config : Config) (j : Journal) : Prop := j.errors = config.refusals j.judged

/-- A journal that goes on, in which all that is new was reported by the policy. -/
structure Continues (config : Config) (j k : Journal) : Prop where
  judged : j.judged <+: k.judged
  refusals : j.OnlyRefusals config → k.OnlyRefusals config

theorem continues_refl (config : Config) (j : Journal) : j.Continues config j :=
  ⟨List.prefix_rfl, id⟩

theorem continues_judge (config : Config) (op : Operation) (j : Journal) :
    j.Continues config (config.policy.judge op j).2 := by
  obtain ⟨judged, errors⟩ := config.policy_judge op j
  refine ⟨⟨[op], judged.symm⟩, fun only => ?_⟩
  rw [OnlyRefusals, judged, errors, Config.refusals_append, only]

end Journal

namespace Stats.Collector

/-- The collector judges and counts by the rules of a configuration. -/
structure Follows (config : Config) (c : Collector) : Prop where
  policy : c.policy = config.policy
  recordStartDelay : c.recordStartDelay = config.recordStartDelay

/-- Which part of the results a collector has counted, beginning with an empty workload. -/
structure Tallied (config : Config) (now : Instant) (seen : List OperationResult)
    (c : Collector) : Prop where
  follows : c.Follows config
  counted : (Workload.start now).addAll (seen.filter (!config.drops ·)) = .ok c.workload

variable {config : Config} {c : Collector} {j : Journal} {r : OperationResult}

/-- A result is dropped if it has to be judged and the policy refuses. -/
theorem Follows.admits (follows : c.Follows config) (r : OperationResult) (j : Journal) :
    (c.admits r j).1 = !config.drops r ∧
      (c.admits r j).2 =
        if c.needsJudgement r then (config.policy.judge r.operation j).2 else j := by
  unfold Collector.admits
  cases needed : c.needsJudgement r with
  | true =>
    simp only [if_true, follows.policy, and_true, DelayPolicy.judge, Config.policy_accepts]
    rw [needsJudgement, follows.policy, follows.recordStartDelay, Config.policy_tolerated] at needed
    simp [Config.drops, needed]
  | false =>
    simp only [Bool.false_eq_true, if_false, and_true]
    rw [needsJudgement, follows.policy, follows.recordStartDelay, Config.policy_tolerated] at needed
    simp [Config.drops, needed]

theorem follows_collect (follows : c.Follows config) (j : Journal) (r : OperationResult) :
    (c.collect j r).1.1.Follows config := by
  unfold collect
  dsimp only
  split
  · exact ⟨follows.policy, follows.recordStartDelay⟩
  · split <;> exact ⟨follows.policy, follows.recordStartDelay⟩

/-- The journal after a result was handed in. -/
theorem journal_collect (follows : c.Follows config) (j : Journal) (r : OperationResult) :
    (c.collect j r).1.2 =
      if c.needsJudgement r then (config.policy.judge r.operation j).2 else j := by
  have offered : (c.offer r).Follows config := ⟨follows.policy, follows.recordStartDelay⟩
  obtain ⟨-, journal⟩ := offered.admits r j
  unfold collect
  dsimp only
  split
  next admitted =>
    rw [admitted] at journal
    exact journal
  next admitted =>
    rw [admitted] at journal
    split <;> exact journal

/-- All that a result leaves in the journal is its refusal. -/
theorem continues_collect (follows : c.Follows config) (j : Journal) (r : OperationResult) :
    j.Continues config (c.collect j r).1.2 := by
  rw [journal_collect follows]
  split
  · exact j.continues_judge config r.operation
  · exact j.continues_refl config

/-- A result that is dropped leaves its operation in the journal. -/
theorem judged_collect (follows : c.Follows config) (j : Journal) {r : OperationResult}
    (dropped : config.drops r = true) :
    (c.collect j r).1.2.judged = j.judged ++ [r.operation] := by
  have needed : c.needsJudgement r = true := by
    simp only [Config.drops, Bool.and_eq_true] at dropped
    simp only [needsJudgement, follows.policy, follows.recordStartDelay, Config.policy_tolerated,
      Bool.and_eq_true]
    exact dropped.2
  rw [journal_collect follows, if_pos needed]
  exact (config.policy_judge r.operation j).1

/-- A result that does not stop the worker is counted unless it is dropped. -/
theorem Tallied.collect {now : Instant} {seen : List OperationResult}
    (tallied : c.Tallied config now seen) (fine : (c.collect j r).2 = none) :
    (c.collect j r).1.1.Tallied config now (seen ++ [r]) := by
  refine ⟨follows_collect tallied.follows j r, ?_⟩
  have offered : (c.offer r).Follows config := ⟨tallied.follows.policy,
    tallied.follows.recordStartDelay⟩
  obtain ⟨verdict, -⟩ := offered.admits r j
  have workload : (c.offer r).workload = c.workload := rfl
  rw [List.filter_append]
  unfold Collector.collect at fine ⊢
  dsimp only at fine ⊢
  cases admitted : (c.offer r).admits r j with
  | mk admits after =>
    rw [admitted] at verdict fine
    cases admits with
    | false =>
      have dropped : config.drops r = true := by simpa using verdict.symm
      have none : [r].filter (!config.drops ·) = [] := by simp [dropped]
      rw [none, List.append_nil, tallied.counted]
      rfl
    | true =>
      have kept : config.drops r = false := by simpa using verdict.symm
      have one : [r].filter (!config.drops ·) = [r] := by simp [kept]
      rw [one, Workload.addAll_concat, tallied.counted]
      dsimp only at fine ⊢
      rw [workload] at fine ⊢
      cases counted : c.workload.measure r with
      | error e =>
        rw [counted] at fine
        cases fine
      | ok w => exact counted

end Stats.Collector

namespace Stats

variable {config : Config} {j : Journal} {now : Instant}
  {s : PacedLoad.Service Collector OperationResult Request Answer}

/-- The worker keeps to the rules, and never takes back that the policy was asked. -/
theorem keeps_deliver (follows : s.worker.state.Follows config) :
    (s.deliver duty now j).1.worker.state.Follows config ∧
      j.judged <+: (s.deliver duty now j).2.judged := by
  refine s.deliver_keeps (P := fun c k => c.Follows config ∧ j.judged <+: k.judged)
    (fun c k r ⟨follows, judged⟩ => ?_) (fun c k r before => ?_) (fun c k text before => before)
    ⟨follows, List.prefix_rfl⟩
  · exact ⟨Collector.follows_collect follows k r,
      judged.trans (Collector.continues_collect follows k r).judged⟩
  · cases r <;> exact before

/-- All that the worker reports as long as it does not fail is refusals. -/
theorem continues_deliver (follows : s.worker.state.Follows config)
    (fine : (s.deliver duty now j).1.worker.phase ≠ .failed) :
    j.Continues config (s.deliver duty now j).2 := by
  rcases Service.journal_deliver_fine fine with same | ⟨r, handled⟩
  · rw [same]
    exact j.continues_refl config
  · rw [handled]
    exact Collector.continues_collect follows j r

end Stats

end PacedLoad
