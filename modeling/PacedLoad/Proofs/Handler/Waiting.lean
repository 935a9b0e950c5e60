import Mathlib.Logic.Function.Iterate
import PacedLoad.Delay
import PacedLoad.Handler.Phase
import PacedLoad.Proofs.Time.Order

/-!
# The wait for a start

A handler that waits looks at the clock, and at the global completion time when the start
is due and the operation depends on a time: both looks make up a poll.  The readings may
go up and down.  A poll that does not admit the operation leads to the next poll, and the
first one that admits it ends the wait, after one question to the delay policy if the start
is later than tolerated.
-/

namespace PacedLoad.Handler

/-- What the clock and the global completion time show at each poll. -/
structure Readings where
  clock : Nat → Instant
  watermark : Nat → Option Instant

/-- The `i`th poll admits the operation: its start is due, and the time that it depends on is
reached. -/
structure Readings.Admits (readings : Readings) (op : Operation) (i : Nat) : Prop where
  due : op.scheduledStart ≤ readings.clock i
  reached : ∀ required, op.dependencyTime = some required →
    ∃ known, readings.watermark i = some known ∧ required ≤ known

/-- How the wait has ended, once it has. -/
def Phase.release? (op : Operation) : Phase → Option (Except ExecutionError Release)
  | .released r => some (.ok r)
  | .refused delay => some (.error (.excessiveDelay op.id delay))
  | _ => none

/-- The start at `now` exceeds the tolerated delay, in whole numbers. -/
def Exceeds (policy : DelayPolicy) (op : Operation) (now : Instant) : Prop :=
  (policy.tolerated.nanos : Int) < (now.nanos : Int) - (op.scheduledStart.nanos : Int)

/-- How a wait ends at `now`, and the journal that it leaves: the policy is asked once about a
start that exceeds the tolerated delay, and never otherwise. -/
structure Ends (policy : DelayPolicy) (op : Operation) (journal : Journal) (now : Instant)
    (result : Except ExecutionError Release) (journal' : Journal) : Prop where
  punctual : ¬ Exceeds policy op now → result = .ok ⟨now, false⟩ ∧ journal' = journal
  asked : Exceeds policy op now →
    journal' = (policy.judge op journal).2 ∧ journal'.judged = journal.judged ++ [op]
  accepted : Exceeds policy op now → (policy.judge op journal).1 = true →
    result = .ok ⟨now, true⟩
  refused : Exceeds policy op now → (policy.judge op journal).1 = false →
    ∃ delay : Span, result = .error (.excessiveDelay op.id delay) ∧
      (delay.nanos : Int) = (now.nanos : Int) - (op.scheduledStart.nanos : Int)

/-- A handler that waits: its phase, the number of its looks at the clock, and the journal in
which the policy notes its answers. -/
structure Wait where
  phase : Phase
  polls : Nat
  journal : Journal

namespace Wait

def start (journal : Journal) : Wait := ⟨.waiting, 0, journal⟩

/-- How the wait has ended, once it has. -/
def release? (op : Operation) (s : Wait) : Option (Except ExecutionError Release) :=
  s.phase.release? op

def step (policy : DelayPolicy) (readings : Readings) (op : Operation) (s : Wait) : Wait :=
  match s.phase.need with
  | some .clock =>
    { s with
      phase := s.phase.next op policy.tolerated (.clock (readings.clock s.polls))
      polls := s.polls + 1 }
  | some .watermark =>
    { s with
      phase := s.phase.next op policy.tolerated (.watermark (readings.watermark (s.polls - 1))) }
  | some .verdict =>
    { s with
      phase := s.phase.next op policy.tolerated (.verdict (policy.judge op s.journal).1)
      journal := (policy.judge op s.journal).2 }
  | _ => s

def run (policy : DelayPolicy) (readings : Readings) (op : Operation) (journal : Journal)
    (n : Nat) : Wait :=
  (step policy readings op)^[n] (start journal)

end Wait

/-! ## The lateness test -/

section Lateness

variable {policy : DelayPolicy} {op : Operation} {now : Instant}

/-- The instants stop at the last one, which no reading of the clock exceeds: the test is exact
for all starts and all tolerated delays. -/
theorem plus_tolerated_lt_iff : op.scheduledStart.plus policy.tolerated < now ↔
    Exceeds policy op now := by
  have bound := now.nanos_lt
  simp only [Instant.lt_iff, Instant.plus_nanos, Exceeds]
  omega

theorem since_of_exceeds (exceeds : Exceeds policy op now) :
    ((now.since op.scheduledStart).nanos : Int) =
      (now.nanos : Int) - (op.scheduledStart.nanos : Int) := by
  unfold Exceeds at exceeds
  rw [Instant.since_nanos]
  omega

theorem due_of_exceeds (exceeds : Exceeds policy op now) :
    Phase.due op policy.tolerated now = .late now :=
  if_pos (plus_tolerated_lt_iff.mpr exceeds)

theorem due_of_not_exceeds (punctual : ¬ Exceeds policy op now) :
    Phase.due op policy.tolerated now = .released ⟨now, false⟩ :=
  if_neg (mt plus_tolerated_lt_iff.mp punctual)

end Lateness

/-! ## Admission -/

theorem dependencyMet_iff {op : Operation} {gct : Option Instant} :
    dependencyMet op gct = true ↔
      ∀ required, op.dependencyTime = some required → ∃ known, gct = some known ∧ required ≤ known := by
  unfold dependencyMet
  cases op.dependencyTime with
  | none => simp
  | some required => simp [Option.any_eq_true]

/-- A poll admits a due operation whose dependency is met. -/
theorem Readings.admits_iff {readings : Readings} {op : Operation} {i : Nat} :
    readings.Admits op i ↔ op.scheduledStart ≤ readings.clock i ∧
      dependencyMet op (readings.watermark i) = true :=
  ⟨fun admits => ⟨admits.due, dependencyMet_iff.mpr admits.reached⟩,
    fun ⟨due, met⟩ => ⟨due, dependencyMet_iff.mp met⟩⟩

/-- An operation without a dependency is admitted whatever time is published. -/
theorem dependencyMet_of_independent {op : Operation} (independent : op.dependencyTime.isSome = false)
    (gct : Option Instant) : dependencyMet op gct = true := by
  unfold dependencyMet
  cases declared : op.dependencyTime with
  | none => rfl
  | some required => rw [declared] at independent; cases independent

/-! ## Steps -/

namespace Wait

variable {policy : DelayPolicy} {readings : Readings} {op : Operation} {s s' : Wait} {i : Nat}
  {now : Instant} {journal : Journal}

theorem step_early (early : readings.clock i < op.scheduledStart) :
    step policy readings op ⟨.waiting, i, journal⟩ = ⟨.waiting, i + 1, journal⟩ := by
  simp only [step, Phase.need, Phase.next, if_pos early]

theorem step_dependent (due : op.scheduledStart ≤ readings.clock i)
    (dependent : op.dependencyTime.isSome = true) :
    step policy readings op ⟨.waiting, i, journal⟩ =
      ⟨.dependent (readings.clock i), i + 1, journal⟩ := by
  simp only [step, Phase.need, Phase.next, if_neg (not_lt_of_ge due), if_pos dependent]

theorem step_independent (due : op.scheduledStart ≤ readings.clock i)
    (independent : op.dependencyTime.isSome = false) :
    step policy readings op ⟨.waiting, i, journal⟩ =
      ⟨.due op policy.tolerated (readings.clock i), i + 1, journal⟩ := by
  simp only [step, Phase.need, Phase.next, if_neg (not_lt_of_ge due), independent,
    Bool.false_eq_true, if_false]

theorem step_watermark : step policy readings op ⟨.dependent now, i + 1, journal⟩ =
    ⟨if dependencyMet op (readings.watermark i) then .due op policy.tolerated now else .waiting,
      i + 1, journal⟩ := rfl

theorem step_late : step policy readings op ⟨.late now, i, journal⟩ =
    ⟨(Phase.late now).next op policy.tolerated (.verdict (policy.judge op journal).1), i,
      (policy.judge op journal).2⟩ := rfl

/-- A wait that has ended stays as it is. -/
theorem step_of_release {result : Except ExecutionError Release}
    (ended : s.release? op = some result) : step policy readings op s = s := by
  obtain ⟨phase, polls, journal⟩ := s
  cases phase <;> first | rfl | cases ended

theorem iterate_of_release {result : Except ExecutionError Release}
    (ended : s.release? op = some result) (n : Nat) : (step policy readings op)^[n] s = s :=
  Function.iterate_fixed (step_of_release ended) n

/-! ## From one wait to another -/

/-- The wait comes from `s` to `s'`, and has not ended before. -/
def Leads (policy : DelayPolicy) (readings : Readings) (op : Operation) (s s' : Wait) : Prop :=
  ∃ n, (step policy readings op)^[n] s = s' ∧
    ∀ m < n, ((step policy readings op)^[m] s).release? op = none

theorem Leads.refl (s : Wait) : Leads policy readings op s s :=
  ⟨0, rfl, fun _ below => absurd below (Nat.not_lt_zero _)⟩

theorem Leads.head (pending : s.release? op = none)
    (rest : Leads policy readings op (step policy readings op s) s') :
    Leads policy readings op s s' := by
  obtain ⟨n, arrives, unanswered⟩ := rest
  refine ⟨n + 1, arrives, fun m below => ?_⟩
  cases m with
  | zero => exact pending
  | succ m => exact unanswered m (Nat.lt_of_succ_lt_succ below)

theorem Leads.trans {s'' : Wait} (first : Leads policy readings op s s')
    (second : Leads policy readings op s' s'') : Leads policy readings op s s'' := by
  obtain ⟨n, rfl, unanswered⟩ := first
  obtain ⟨k, rfl, later⟩ := second
  refine ⟨k + n, Function.iterate_add_apply _ k n s, fun m below => ?_⟩
  rcases Nat.lt_or_ge m n with before | after
  · exact unanswered m before
  · obtain ⟨d, rfl⟩ := Nat.exists_eq_add_of_le' after
    rw [Function.iterate_add_apply]
    exact later d (by omega)

/-- A poll that does not admit the operation leads to the next poll. -/
theorem leads_next (held : ¬ readings.Admits op i) :
    Leads policy readings op ⟨.waiting, i, journal⟩ ⟨.waiting, i + 1, journal⟩ := by
  refine Leads.head rfl ?_
  rcases lt_or_ge (readings.clock i) op.scheduledStart with early | due
  · rw [step_early early]
    exact Leads.refl _
  · have unmet : ¬ dependencyMet op (readings.watermark i) = true :=
      fun met => held (Readings.admits_iff.mpr ⟨due, met⟩)
    cases dependent : op.dependencyTime.isSome with
    | false => exact absurd (dependencyMet_of_independent dependent _) unmet
    | true =>
      rw [step_dependent due dependent]
      refine Leads.head rfl ?_
      rw [step_watermark, if_neg unmet]
      exact Leads.refl _

/-- The `i`th poll is reached when none before it admits the operation. -/
theorem leads_poll (held : ∀ j < i, ¬ readings.Admits op j) :
    Leads policy readings op (start journal) ⟨.waiting, i, journal⟩ := by
  induction i with
  | zero => exact Leads.refl _
  | succ i ih =>
    exact (ih fun j below => held j (Nat.lt_succ_of_lt below)).trans
      (leads_next (held i (Nat.lt_succ_self i)))

/-- A poll that admits the operation leads to the lateness test. -/
theorem leads_due (admits : readings.Admits op i) :
    Leads policy readings op ⟨.waiting, i, journal⟩
      ⟨.due op policy.tolerated (readings.clock i), i + 1, journal⟩ := by
  obtain ⟨due, met⟩ := Readings.admits_iff.mp admits
  refine Leads.head rfl ?_
  cases dependent : op.dependencyTime.isSome with
  | false =>
    rw [step_independent due dependent]
    exact Leads.refl _
  | true =>
    rw [step_dependent due dependent]
    refine Leads.head rfl ?_
    rw [step_watermark, if_pos met]
    exact Leads.refl _

/-- The lateness test leads to the end of the wait. -/
theorem due_leads_ends (policy : DelayPolicy) (readings : Readings) (op : Operation) (now : Instant)
    (i : Nat) (journal : Journal) : ∃ s result,
      Leads policy readings op ⟨.due op policy.tolerated now, i, journal⟩ s ∧ s.polls = i ∧
        s.release? op = some result ∧ Ends policy op journal now result s.journal := by
  by_cases exceeds : Exceeds policy op now
  · rw [due_of_exceeds exceeds]
    cases verdict : (policy.judge op journal).1 with
    | true =>
      refine ⟨⟨.released ⟨now, true⟩, i, (policy.judge op journal).2⟩, .ok ⟨now, true⟩,
        Leads.head rfl ?_, rfl, rfl, ?_⟩
      · rw [step_late, verdict]
        exact Leads.refl _
      · exact ⟨absurd exceeds, fun _ => ⟨rfl, rfl⟩, fun _ _ => rfl, fun _ no => by simp_all⟩
    | false =>
      refine ⟨⟨.refused (now.since op.scheduledStart), i, (policy.judge op journal).2⟩,
        .error (.excessiveDelay op.id (now.since op.scheduledStart)), Leads.head rfl ?_, rfl, rfl, ?_⟩
      · rw [step_late, verdict]
        exact Leads.refl _
      · exact ⟨absurd exceeds, fun _ => ⟨rfl, rfl⟩, fun _ yes => by simp_all,
          fun _ _ => ⟨_, rfl, since_of_exceeds exceeds⟩⟩
  · rw [due_of_not_exceeds exceeds]
    exact ⟨⟨.released ⟨now, false⟩, i, journal⟩, .ok ⟨now, false⟩, Leads.refl _, rfl, rfl,
      fun _ => ⟨rfl, rfl⟩, fun e => absurd e exceeds, fun e => absurd e exceeds,
      fun e => absurd e exceeds⟩

/-! ## Waits without an end -/

/-- The wait has not ended and nothing was asked: the handler is between two polls, or in one
that is due.  All polls but the first `lo` are made or still to come. -/
inductive Held (readings : Readings) (op : Operation) (journal : Journal) (lo : Nat) : Wait → Prop
  | waiting (i : Nat) (le : lo ≤ i) : Held readings op journal lo ⟨.waiting, i, journal⟩
  | dependent (i : Nat) (le : lo ≤ i) (due : op.scheduledStart ≤ readings.clock i) :
    Held readings op journal lo ⟨.dependent (readings.clock i), i + 1, journal⟩

namespace Held

variable {lo : Nat}

theorem unanswered (held : Held readings op journal lo s) :
    s.release? op = none ∧ s.journal = journal := by
  cases held <;> exact ⟨rfl, rfl⟩

/-- A look that admits nothing lets the handler wait. -/
theorem step (never : ∀ k ≥ lo, ¬ readings.Admits op k) (held : Held readings op journal lo s) :
    Held readings op journal lo (s.step policy readings op) := by
  cases held with
  | waiting i le =>
    rcases lt_or_ge (readings.clock i) op.scheduledStart with early | due
    · rw [step_early early]
      exact .waiting (i + 1) (Nat.le_succ_of_le le)
    · cases dependent : op.dependencyTime.isSome with
      | false =>
        exact absurd (Readings.admits_iff.mpr ⟨due, dependencyMet_of_independent dependent _⟩)
          (never i le)
      | true =>
        rw [step_dependent due dependent]
        exact .dependent i le due
  | dependent i le due =>
    rw [step_watermark, if_neg fun met => never i le (Readings.admits_iff.mpr ⟨due, met⟩)]
    exact .waiting (i + 1) (Nat.le_succ_of_le le)

theorem iterate (never : ∀ k ≥ lo, ¬ readings.Admits op k) (held : Held readings op journal lo s)
    (n : Nat) : Held readings op journal lo ((Wait.step policy readings op)^[n] s) := by
  induction n with
  | zero => exact held
  | succ n ih =>
    rw [Function.iterate_succ_apply']
    exact ih.step never

end Held

end Wait

end PacedLoad.Handler
