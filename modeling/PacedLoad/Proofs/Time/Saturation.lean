import PacedLoad.Proofs.Handler.Waiting
import PacedLoad.Stats.Service

/-!
# Comparisons at the bounds of time

A span is cut to 64 bits of nanoseconds before it is added to an instant or taken away, the sum
stops at the last instant, and a difference stops at the first one or at the empty span.  No
instant lies beyond these bounds, so that a comparison with one never notices them: it says what
the whole numbers say.  Therefore handlers and statistics agree on the starts that are late.
-/

namespace PacedLoad

namespace Instant

variable {t u : Instant} {a b d sum : Span}

/-- What is missing to an instant fits a span exactly if the span reaches that far. -/
theorem since_le_iff : u.since t ≤ d ↔ u.nanos ≤ t.nanos + d.nanos := by
  rw [Span.le_iff, since_nanos]
  omega

theorem lt_since_iff : d < u.since t ↔ t.nanos + d.nanos < u.nanos := by
  rw [Span.lt_iff, since_nanos]
  omega

/-- A sum that was cut twice still reaches every instant that the whole sum reaches. -/
theorem le_plus_iff : u ≤ t.plus d ↔ u.nanos ≤ t.nanos + d.nanos := by
  have bound := u.nanos_lt
  rw [le_iff, plus_nanos]
  omega

theorem plus_lt_iff : t.plus d < u ↔ t.nanos + d.nanos < u.nanos := by
  rw [← not_le, le_plus_iff, Nat.not_le]

/-- A difference that stops at the first instant is not beyond any other one. -/
theorem minus_le_iff : u.minus d ≤ t ↔ u.nanos ≤ t.nanos + d.nanos := by
  rw [le_iff, minus_nanos]
  omega

/-- Two moves forward are one by the sum, wherever the bound is met on the way. -/
theorem plus_plus (whole : sum.nanos = a.nanos + b.nanos) : (t.plus a).plus b = t.plus sum := by
  refine ext ?_
  simp only [plus_nanos, whole]
  omega

/-- Two moves back are one by the sum. -/
theorem minus_minus (whole : sum.nanos = a.nanos + b.nanos) :
    (t.minus a).minus b = t.minus sum := by
  refine ext ?_
  simp only [minus_nanos, whole]
  omega

end Instant

/-! ## Lateness -/

/-- A result tells of a late start if its delay is more than tolerated. -/
theorem OperationResult.startedTooLate_iff (r : OperationResult) {tolerated : Span} :
    r.startedTooLate tolerated = true ↔ tolerated < r.startDelay := by
  rw [startedTooLate, decide_eq_true_eq, Instant.plus_lt_iff, startDelay, Instant.lt_since_iff]

/-- A handler that finds its start at the time of a result takes it for late if the delay of the
result is more than tolerated. -/
theorem OperationResult.due_eq_late_iff (r : OperationResult) {tolerated : Span} :
    Handler.Phase.due r.operation tolerated r.actualStart = .late r.actualStart ↔
      tolerated < r.startDelay := by
  rw [Handler.Phase.due, startDelay, Instant.lt_since_iff, ← Instant.plus_lt_iff]
  split
  next late => exact iff_of_true rfl late
  next punctual => exact iff_of_false nofun punctual

/-- The statistics ask about a late start unless they need not look, or it was accepted before. -/
theorem Stats.Collector.needsJudgement_iff (c : Collector) (r : OperationResult) :
    c.needsJudgement r = true ↔
      c.recordStartDelay = true ∧ r.lateStartAccepted = false ∧
        c.policy.tolerated < r.startDelay := by
  rw [needsJudgement, Bool.and_eq_true, Bool.and_eq_true, Bool.not_eq_true',
    OperationResult.startedTooLate_iff, and_assoc, and_comm (a := _ < _)]

namespace Instant

/-- Comparisons after a move forward or back say what the span between the two instants says, and
that is what the whole numbers say.  So a result, the handler that starts it and the statistics
agree on whether the start is late.  Moves in one direction add up. -/
theorem comparisons_exact (t u : Instant) (d : Span) :
    (u ≤ t.plus d ↔ u.since t ≤ d) ∧
    (u.minus d ≤ t ↔ u.since t ≤ d) ∧
    (u.since t ≤ d ↔ (u.nanos : Int) - t.nanos ≤ d.nanos) ∧
    (∀ r : OperationResult,
      (r.startedTooLate d = true ↔ d < r.startDelay) ∧
      (d < r.startDelay ↔
        (d.nanos : Int) < r.actualStart.nanos - r.operation.scheduledStart.nanos) ∧
      (Handler.Phase.due r.operation d r.actualStart = .late r.actualStart ↔
        d < r.startDelay) ∧
      ∀ c : Stats.Collector, c.needsJudgement r = true ↔
        c.recordStartDelay = true ∧ r.lateStartAccepted = false ∧
          Handler.Phase.due r.operation c.policy.tolerated r.actualStart = .late r.actualStart) ∧
    ∀ a b sum : Span, sum.nanos = a.nanos + b.nanos →
      (t.plus a).plus b = t.plus sum ∧ (t.minus a).minus b = t.minus sum := by
  refine ⟨le_plus_iff.trans since_le_iff.symm, minus_le_iff.trans since_le_iff.symm, ?_,
    fun r => ⟨r.startedTooLate_iff, ?_, r.due_eq_late_iff, fun c => ?_⟩,
    fun a b sum whole => ⟨plus_plus whole, minus_minus whole⟩⟩
  · rw [since_le_iff]
    omega
  · rw [OperationResult.startDelay, lt_since_iff]
    omega
  · rw [c.needsJudgement_iff r, r.due_eq_late_iff]

/-- A span of one nanosecond more than 64 bits can count. -/
def pastWord : Span := ⟨18446744073709551616, by decide⟩

/-- Just below the last instant, and with spans that are cut. -/
theorem comparisons_exact_wide :
    last ≤ (ofMillis 5).plus pastWord ∧ last.minus pastWord ≤ ofMillis 5 ∧
      (last.minus ⟨3, by decide⟩).plus ⟨2, by decide⟩ < last ∧
      ((ofMillis 5).plus pastWord).plus ⟨7, by decide⟩ =
        (ofMillis 5).plus ⟨18446744073709551623, by decide⟩ ∧
      ((ofMillis 5).minus pastWord).minus ⟨7, by decide⟩ =
        (ofMillis 5).minus ⟨18446744073709551623, by decide⟩ := by
  have far : last.since (ofMillis 5) ≤ pastWord := by decide
  obtain ⟨forward, back, -, -, sums⟩ := comparisons_exact (ofMillis 5) last pastWord
  obtain ⟨short, -⟩ := comparisons_exact (last.minus ⟨3, by decide⟩) last ⟨2, by decide⟩
  obtain ⟨later, earlier⟩ := sums pastWord ⟨7, by decide⟩ ⟨18446744073709551623, by decide⟩ rfl
  exact ⟨forward.mpr far, back.mpr far, lt_of_not_ge fun le => absurd (short.mp le) (by decide),
    later, earlier⟩

end Instant

end PacedLoad
