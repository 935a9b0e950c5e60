import PacedLoad.Proofs.Run.Closing
import PacedLoad.Proofs.Run.Collecting

/-!
# What the snapshot counts

The driver hands results to the statistics in the order in which it collects them,
and asks for the snapshot behind all of them.  So the report counts every result
that was collected, except for those that the policy refuses to count; and the
policy was asked about each of these.
-/

namespace PacedLoad

namespace Stats

variable {config : Config} {start now : Instant} {results : List OperationResult}
  {tail : List (Message OperationResult Request)} {j k : Journal}
  {s : PacedLoad.Service Collector OperationResult Request Answer}

/-- A workload counts all results but those that the policy has refused. -/
structure Concluded (config : Config) (start : Instant) (results : List OperationResult)
    (j : Journal) (w : Workload) : Prop where
  counted : (Workload.start start).addAll (results.filter (!config.drops ·)) = .ok w
  refused : ((results.filter config.drops).map (·.operation)).Sublist j.judged

theorem Concluded.continues {w : Workload} (concluded : Concluded config start results j w)
    (judged : j.judged <+: k.judged) : Concluded config start results k w :=
  ⟨concluded.counted, concluded.refused.trans judged.sublist⟩

/-- The worker has taken some of the results.  The others wait in its queue, before `tail`. -/
structure Serves (config : Config) (start : Instant) (results : List OperationResult)
    (tail : List (Message OperationResult Request)) (j : Journal)
    (s : PacedLoad.Service Collector OperationResult Request Answer) : Prop where
  untold : s.worker.expected = none
  follows : s.worker.state.Follows config
  progress : ∃ seen pending, results = seen ++ pending ∧
    s.queue = pending.map .event ++ tail ∧ Concluded config start seen j s.worker.state.workload

theorem Serves.continues (serves : Serves config start results tail j s)
    (judged : j.judged <+: k.judged) : Serves config start results tail k s := by
  obtain ⟨seen, pending, split, queue, concluded⟩ := serves.progress
  exact ⟨serves.untold, serves.follows, seen, pending, split, queue, concluded.continues judged⟩

/-- One result more. -/
theorem Concluded.collect {c : Collector} {r : OperationResult} (follows : c.Follows config)
    (concluded : Concluded config start results j c.workload) (fine : (c.collect j r).2 = none) :
    Concluded config start (results ++ [r]) (c.collect j r).1.2 (c.collect j r).1.1.workload := by
  have tallied : c.Tallied config start results := ⟨follows, concluded.counted⟩
  refine ⟨(tallied.collect fine).counted, ?_⟩
  rw [List.filter_append, List.map_append]
  cases dropped : config.drops r with
  | true =>
    rw [Collector.judged_collect follows j dropped]
    exact concluded.refused.append (by simp [dropped])
  | false =>
    have judged := (Collector.continues_collect follows j r).judged
    simpa [dropped] using concluded.refused.trans judged.sublist

/-- The worker takes the next result, unless it has taken all of them. -/
theorem Serves.deliver (serves : Serves config start results tail j s) (running : s.isOpen = true)
    (after : (s.deliver duty now j).1.isOpen = true) :
    Serves config start results tail (s.deliver duty now j).2 (s.deliver duty now j).1 ∨
      s.queue = tail ∧ Concluded config start results j s.worker.state.workload := by
  obtain ⟨seen, pending, rfl, queue, concluded⟩ := serves.progress
  cases pending with
  | nil => exact .inr ⟨queue, by simpa using concluded⟩
  | cons r rest =>
    left
    obtain ⟨worker, left⟩ := Service.deliver_cons duty now j running queue
    rw [Service.isOpen_iff, worker] at after
    obtain ⟨fine, state, journal⟩ := Worker.receive_event after
    have next := concluded.collect serves.follows fine
    refine ⟨?_, (keeps_deliver serves.follows).1, seen ++ [r], rest, by simp, ?_, ?_⟩
    · rw [worker, Worker.receive_expected, serves.untold]
      rfl
    · rw [left, if_pos after]
      rfl
    · rw [worker, state, Service.journal_deliver running queue, journal]
      exact next

/-- While results wait nothing is answered. -/
theorem Serves.deliver_values {ticket t : Nat} {x : Answer}
    (serves : Serves config start results [.request .snapshot ticket] j s)
    (running : s.isOpen = true)
    (held : Cell.valueAt (s.deliver duty now j).1.cells t = some x) :
    Cell.valueAt s.cells t = some x ∨
      ∃ w, x = .snapshot w.snapshot ∧ Concluded config start results j w := by
  obtain ⟨seen, pending, rfl, queue, concluded⟩ := serves.progress
  cases pending with
  | nil =>
    rcases Service.deliver_values running queue held with before | answer
    · exact .inl before
    · simp only [Worker.receive, Option.some.injEq, Prod.mk.injEq] at answer
      exact .inr ⟨_, answer.2.symm, by simpa using concluded⟩
  | cons r rest =>
    rcases Service.deliver_values running queue held with before | answer
    · exact .inl before
    · simp only [Worker.receive] at answer
      split at answer <;> cases answer

end Stats

def Leg.report? : Leg → Option Report
  | .reported r | .leaving r | .closed r => some r
  | _ => none

namespace Account

open Stats

variable {β σ : Type} {operations : List (Except Rows.DecodingError Operation)}
  {a b : Account β σ} {config : Config} {start : Instant}

structure Tallying (config : Config) (start : Instant) (a : Account β σ) : Prop where
  serving : a.leg.rank ≤ 5 → a.stats.isOpen = true →
    Serves config start (resultsIn a.collected) [] a.journal a.stats
  asked : ∀ ticket, a.leg = .asking ticket → a.stats.isOpen = true → a.stats.queue = [] ∨
    Serves config start (resultsIn a.collected) [.request .snapshot ticket] a.journal a.stats
  answered : ∀ ticket x, a.leg = .asking ticket → Cell.valueAt a.stats.cells ticket = some x →
    ∃ w, x = .snapshot w.snapshot ∧ Concluded config start (resultsIn a.collected) a.journal w
  reported : ∀ r, a.leg.report? = some r → r.failed = a.failed ∧
    ∃ w, r.snapshot = w.snapshot ∧ Concluded config start (resultsIn a.collected) a.journal w

/-- The same leg, with the statistics as they were. -/
theorem Tallying.congr (tallying : Tallying config start a) (leg : b.leg = a.leg)
    (stats : b.stats = a.stats) (failed : b.failed = a.failed)
    (collected : b.collected = a.collected) (judged : a.journal.judged <+: b.journal.judged) :
    Tallying config start b where
  serving := by
    rw [leg, stats, collected]
    exact fun early running => (tallying.serving early running).continues judged
  asked := by
    rw [leg, stats, collected]
    exact fun ticket here running =>
      (tallying.asked ticket here running).imp_right (·.continues judged)
  answered := by
    rw [leg, stats, collected]
    intro ticket x here held
    obtain ⟨w, same, concluded⟩ := tallying.answered ticket x here held
    exact ⟨w, same, concluded.continues judged⟩
  reported := by
    rw [leg, failed, collected]
    intro r here
    obtain ⟨failed, w, same, concluded⟩ := tallying.reported r here
    exact ⟨failed, w, same, concluded.continues judged⟩

/-- As long as results may be handed in there is no report. -/
theorem tallying_early (early : b.leg.rank ≤ 5) (serving : b.stats.isOpen = true →
    Serves config start (resultsIn b.collected) [] b.journal b.stats) : Tallying config start b where
  serving _ := serving
  asked ticket here := by simp [here] at early
  answered ticket x here := by simp [here] at early
  reported r here := by
    cases leg : b.leg <;> simp [leg] at early <;> simp [leg, Leg.report?] at here

/-- Once the report is made it stays. -/
theorem Tallying.late (tallying : Tallying config start a) {r : Report}
    (here : a.leg.report? = some r) (after : b.leg.report? = some r) (late : 6 < b.leg.rank)
    (failed : b.failed = a.failed) (collected : b.collected = a.collected)
    (judged : a.journal.judged <+: b.journal.judged) : Tallying config start b where
  serving early := by omega
  asked ticket asking := by simp [asking] at late
  answered ticket x asking := by simp [asking] at late
  reported r' same := by
    cases after.symm.trans same
    obtain ⟨failed', w, same, concluded⟩ := tallying.reported r here
    rw [failed, collected]
    exact ⟨failed', w, same, concluded.continues judged⟩

theorem tallying_broken {e : RunError} (broken : b.leg = .broken e) : Tallying config start b :=
  ⟨by simp [broken], by simp [broken], by simp [broken], by simp [broken, Leg.report?]⟩

theorem Tallying.deliver (tallying : Tallying config start a) (reporting : Reporting config a)
    (now : Instant) :
    Tallying config start { a with
      stats := (a.stats.deliver duty now a.journal).1
      journal := (a.stats.deliver duty now a.journal).2 } := by
  have before (after : (a.stats.deliver duty now a.journal).1.isOpen = true) :
      a.stats.isOpen = true := by
    cases running : a.stats.isOpen with
    | true => rfl
    | false =>
      rw [Service.deliver_closed running] at after
      exact running.symm.trans after
  have judged (fine : a.leg.isBroken = false) :
      a.journal.judged <+: (a.stats.deliver duty now a.journal).2.judged :=
    (keeps_deliver (reporting.follows fine)).2
  refine ⟨fun early after => ?_, fun ticket here after => ?_, fun ticket x here held => ?_,
    fun r here => ?_⟩
  · have running := before after
    have serves := tallying.serving early running
    rcases serves.deliver running after with next | ⟨empty, -⟩
    · exact next
    · rw [Service.deliver_nil duty now a.journal empty]
      exact serves
  · have running := before after
    rcases tallying.asked ticket here running with empty | serves
    · rw [Service.deliver_nil duty now a.journal empty]
      exact .inl empty
    · rcases serves.deliver running after with next | ⟨queue, -⟩
      · exact .inr next
      · -- the request itself is taken
        obtain ⟨worker, left⟩ := Service.deliver_cons duty now a.journal running queue
        refine .inl (left.trans ?_)
        rw [Service.isOpen_iff, worker] at after
        rw [if_pos after]
  · have fine : a.leg.isBroken = false := by rw [show a.leg = .asking ticket from here]; rfl
    suffices known : ∃ w, x = .snapshot w.snapshot ∧
        Concluded config start (resultsIn a.collected) a.journal w by
      obtain ⟨w, same, concluded⟩ := known
      exact ⟨w, same, concluded.continues (judged fine)⟩
    cases running : a.stats.isOpen with
    | false =>
      rw [Service.deliver_closed running] at held
      exact tallying.answered ticket x here held
    | true =>
      rcases tallying.asked ticket here running with empty | serves
      · rw [Service.deliver_nil duty now a.journal empty] at held
        exact tallying.answered ticket x here held
      · rcases serves.deliver_values running held with earlier | known
        · exact tallying.answered ticket x here earlier
        · exact known
  · obtain ⟨failed, w, same, concluded⟩ := tallying.reported r here
    have fine : a.leg.isBroken = false := by
      change a.leg.report? = some r at here
      cases leg : a.leg <;> rw [leg] at here <;> first | rfl | cases here
    exact ⟨failed, w, same, concluded.continues (judged fine)⟩

theorem Tallying.step [Watermark.Bookkeeping σ] (tallying : Tallying config start a)
    (reporting : Reporting config a) (closing : Closing config a) (step : Step operations a b) :
    Tallying config start b := by
  cases step with
  | still | call | submit | shutdown | discard | interruption =>
    exact tallying.congr rfl rfl rfl rfl List.prefix_rfl
  | handle found needs called asked =>
    exact tallying.congr rfl rfl rfl rfl (asked.continues closing.ruled.2).judged
  | deliverWatermark =>
    exact tallying.congr rfl rfl rfl rfl ⟨[], by rw [List.append_nil, Watermark.judged_deliver]⟩
  | deliverStats => exact tallying.deliver reporting _
  | abort | giveUp | fail => exact tallying_broken rfl
  | teardown here => exact tallying_broken here
  | @pass ticket r pool counted here first taken running =>
    have early := Leg.rank_of_collects here
    refine tallying_early (Nat.le_trans early (by omega)) fun _ => ?_
    obtain ⟨untold, follows, seen, pending, split, queue, concluded⟩ :=
      tallying.serving (Nat.le_trans early (by omega)) running
    refine ⟨untold, follows, seen, pending ++ [r], ?_, ?_, concluded⟩
    · change resultsIn (a.collected ++ [(ticket, .ok r)]) = _
      rw [resultsIn_concat, split, List.append_assoc]
      rfl
    · change a.stats.queue ++ [.event r] = _
      rw [queue]
      simp
  | @tolerate ticket e pool here first taken =>
    have early := Leg.rank_of_collects here
    refine tallying_early (Nat.le_trans early (by omega)) fun running => ?_
    change Serves config start (resultsIn (a.collected ++ [(ticket, .error e)])) [] _ _
    rw [resultsIn_concat]
    simpa [Handler.result?, gather] using tallying.serving (Nat.le_trans early (by omega)) running
  | drain here | rest here | timed here | stopWatermark here | skipWatermark here | settle here =>
    exact tallying_early (by simp) (tallying.serving (by simp [here]))
  | ask here running =>
    obtain ⟨untold, follows, seen, pending, split, queue, concluded⟩ :=
      tallying.serving (by simp [here]) running
    refine ⟨by simp, fun ticket same _ => ?_, fun ticket x same held => ?_, by simp [Leg.report?]⟩
    · cases same
      exact .inr ⟨untold, follows, seen, pending, split, by simp [queue], concluded⟩
    · cases same
      rw [Cell.valueAt_append_fresh, Cell.valueAt_length] at held
      cases held
  | @report ticket snapshot gct cells here answered =>
    refine ⟨by simp, by simp, by simp, ?_⟩
    rintro r ⟨⟩
    obtain ⟨w, same, concluded⟩ := tallying.answered ticket _ here answered
    cases same
    exact ⟨rfl, w, rfl, concluded⟩
  | stopStats here | skipStats here | leave here =>
    exact tallying.late (by rw [here]; rfl) rfl (by simp) rfl rfl List.prefix_rfl

end Account

end PacedLoad
