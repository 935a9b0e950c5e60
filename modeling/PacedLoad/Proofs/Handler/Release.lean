import PacedLoad.Handler.Replay
import PacedLoad.Proofs.Handler.Waiting

/-!
# Releases

A handler that runs alone takes its readings from two lists, which it consumes only as far as
it looks.  It gives up as soon as the reading that holds it back can not change any more, and
only then: its answer is the one in which the wait over the same readings settles.
-/

namespace PacedLoad.Handler

/-- Readings of which none is dropped stay as they are. -/
theorem laterReadings_eq {α : Type} {readings : List α}
    (last : ¬ (laterReadings readings).length < readings.length) :
    laterReadings readings = readings := by
  match readings with
  | [] | [_] => rfl
  | _ :: _ :: _ => exact absurd (Nat.lt_succ_self _) last

namespace Replay

/-- What is left after a poll that admits nothing.  The global completion time is only looked
at when the start is due. -/
def poll (op : Operation) (s : Replay) : Replay :=
  if op.scheduledStart ≤ s.clock.headD Instant.first ∧ op.dependencyTime.isSome = true then
    (s.after op .clock).after op .watermark
  else s.after op .clock

/-- What the handler finds at each poll, as long as it waits. -/
def readings (s : Replay) (op : Operation) : Readings where
  clock i := ((poll op)^[i] s).clock.headD Instant.first
  watermark i := ((poll op)^[i] s).watermark.headD none

section After

variable (s : Replay) (op : Operation) (need : Need)

@[simp] theorem after_policy : (s.after op need).policy = s.policy := rfl

@[simp] theorem after_clock_journal : (s.after op .clock).journal = s.journal := rfl

end After

section Poll

variable (op : Operation) (s : Replay) (i : Nat)

theorem poll_policy : (s.poll op).policy = s.policy := by
  unfold poll; split <;> rfl

theorem poll_journal : (s.poll op).journal = s.journal := by
  unfold poll; split <;> rfl

theorem poll_clock : (s.poll op).clock = laterReadings s.clock := by
  unfold poll; split <;> rfl

theorem poll_watermark : (s.poll op).watermark = s.watermark ∨
    (s.poll op).watermark = laterReadings s.watermark := by
  unfold poll
  split
  · exact .inr rfl
  · exact .inl rfl

theorem polls_policy : ((poll op)^[i] s).policy = s.policy := by
  induction i with
  | zero => rfl
  | succ i ih => rw [Function.iterate_succ_apply', poll_policy, ih]

theorem polls_journal : ((poll op)^[i] s).journal = s.journal := by
  induction i with
  | zero => rfl
  | succ i ih => rw [Function.iterate_succ_apply', poll_journal, ih]

variable {op s i}

/-- A clock without another reading shows the same at all later polls. -/
theorem clock_eq_of_last
    (last : laterReadings ((poll op)^[i] s).clock = ((poll op)^[i] s).clock) {k : Nat} (later : i ≤ k) :
    (s.readings op).clock k = (s.readings op).clock i := by
  have same : ((poll op)^[k] s).clock = ((poll op)^[i] s).clock := by
    induction k, later using Nat.le_induction with
    | base => rfl
    | succ k _ ih => rw [Function.iterate_succ_apply', poll_clock, ih, last]
  simp only [readings, same]

/-- So does a global completion time without another reading. -/
theorem watermark_eq_of_last
    (last : laterReadings ((poll op)^[i] s).watermark = ((poll op)^[i] s).watermark)
    {k : Nat} (later : i ≤ k) : (s.readings op).watermark k = (s.readings op).watermark i := by
  have same : ((poll op)^[k] s).watermark = ((poll op)^[i] s).watermark := by
    induction k, later using Nat.le_induction with
    | base => rfl
    | succ k _ ih =>
      rw [Function.iterate_succ_apply']
      rcases poll_watermark op ((poll op)^[k] s) with kept | dropped
      · rw [kept, ih]
      · rw [dropped, ih, last]
  simp only [readings, same]

end Poll

/-! ## Runs up to a decision -/

section Run

variable {op : Operation} {s : Replay} {phase : Phase} {need : Need}

theorem run_of_decided (ended : decided phase = true) : s.run decided op phase = (s, phase) := by
  rw [run, if_pos ended]

theorem run_of_lower (undecided : decided phase = false) (needs : phase.need = some need)
    (lower : (s.after op need).weight (phase.next op s.policy.tolerated (s.answer op need)) <
      s.weight phase) :
    s.run decided op phase = (s.after op need).run decided op
      (phase.next op s.policy.tolerated (s.answer op need)) := by
  rw [run, undecided, needs]
  simp only [Bool.false_eq_true, if_false, if_pos lower]

/-- The handler gives up. -/
theorem run_of_not_lower (undecided : decided phase = false) (needs : phase.need = some need)
    (same : ¬ (s.after op need).weight (phase.next op s.policy.tolerated (s.answer op need)) <
      s.weight phase) :
    s.run decided op phase = (s, phase) := by
  rw [run, undecided, needs]
  simp only [Bool.false_eq_true, if_false, if_neg same]

/-- Later phases weigh less, whatever the handler looks at. -/
theorem weight_after_lt {following : Phase} (fewer : following.stepsLeft < phase.stepsLeft) :
    (s.after op need).weight following < s.weight phase := by
  have clock := length_laterReadings s.clock
  have watermark := length_laterReadings s.watermark
  cases need <;> simp only [weight, after, reduceCtorEq, if_true, if_false] <;> omega

end Run

/-- The wait settles in what a handler that runs alone ends with. -/
def Settles (policy : DelayPolicy) (readings : Readings) (op : Operation) (ending : Replay × Phase)
    (s : Wait) : Prop :=
  ∃ n, ∀ m ≥ n, ((Wait.step policy readings op)^[m] s).release? op = ending.2.release? op ∧
    ((Wait.step policy readings op)^[m] s).journal = ending.1.journal

section Settles

variable {policy : DelayPolicy} {readings : Readings} {op : Operation} {ending : Replay × Phase}
  {w w' : Wait}

theorem Settles.of_leads (leads : Wait.Leads policy readings op w w')
    (settles : Settles policy readings op ending w') : Settles policy readings op ending w := by
  obtain ⟨n, rfl, -⟩ := leads
  obtain ⟨k, settled⟩ := settles
  refine ⟨k + n, fun m late => ?_⟩
  obtain ⟨d, rfl⟩ := Nat.exists_eq_add_of_le' (Nat.le_trans (Nat.le_add_left n k) late)
  rw [Function.iterate_add_apply]
  exact settled d (by omega)

theorem Settles.of_release {result : Except ExecutionError Release}
    (ended : w.release? op = some result) (same : ending.2.release? op = some result)
    (journal : ending.1.journal = w.journal) : Settles policy readings op ending w := by
  refine ⟨0, fun m _ => ?_⟩
  rw [Wait.iterate_of_release ended, ended, same, journal]
  exact ⟨rfl, rfl⟩

theorem Settles.of_held {lo : Nat} (never : ∀ k ≥ lo, ¬ readings.Admits op k)
    (held : Wait.Held readings op ending.1.journal lo w) (undecided : ending.2.release? op = none) :
    Settles policy readings op ending w :=
  ⟨0, fun m _ => undecided ▸ (held.iterate never m).unanswered⟩

/-- The lateness test and the question to the policy. -/
theorem settles_due (s : Replay) (readings : Readings) (op : Operation) (now : Instant) (i : Nat) :
    Settles s.policy readings op (s.run decided op (.due op s.policy.tolerated now))
      ⟨.due op s.policy.tolerated now, i, s.journal⟩ := by
  by_cases exceeds : Exceeds s.policy op now
  · rw [due_of_exceeds exceeds]
    refine .of_leads (.head rfl (.refl _)) ?_
    rw [Wait.step_late]
    have fewer : ((Phase.late now).next op s.policy.tolerated (s.answer op .verdict)).stepsLeft <
        (Phase.late now).stepsLeft := by
      simp only [answer, Phase.next]
      split <;> simp [Phase.stepsLeft]
    rw [run_of_lower rfl rfl (weight_after_lt fewer)]
    simp only [answer, Phase.next]
    split <;> (rw [run_of_decided rfl]; exact .of_release rfl rfl rfl)
  · rw [due_of_not_exceeds exceeds, run_of_decided rfl]
    exact .of_release rfl rfl rfl

end Settles

/-- After `i` polls that admitted nothing, the handler that runs on ends as the wait does. -/
def SettlesAfter (s : Replay) (op : Operation) (i : Nat) : Prop :=
  Settles s.policy (s.readings op) op (((poll op)^[i] s).run decided op .waiting)
    ⟨.waiting, i, s.journal⟩

section SettlesAfter

variable {op : Operation} {s : Replay} {i : Nat}

theorem stepsLeft_due_lt (op : Operation) (tolerated : Span) (now : Instant) :
    (Phase.due op tolerated now).stepsLeft < (Phase.dependent now).stepsLeft := by
  unfold Phase.due
  split <;> simp [Phase.stepsLeft]

/-- A clock that stops before the start admits nothing any more. -/
theorem not_admits_of_early (early : (s.readings op).clock i < op.scheduledStart)
    (last : ¬ (laterReadings ((poll op)^[i] s).clock).length < ((poll op)^[i] s).clock.length) :
    ∀ k ≥ i, ¬ (s.readings op).Admits op k := fun _ later admits =>
  absurd (clock_eq_of_last (laterReadings_eq last) later ▸ admits.due) (not_le_of_gt early)

/-- A global completion time that stops before the time that the operation depends on admits
nothing any more, however the clock goes on. -/
theorem not_admits_of_unmet (unmet : ¬ dependencyMet op ((s.readings op).watermark i) = true)
    (last : ¬ (laterReadings ((poll op)^[i] s).watermark).length <
      ((poll op)^[i] s).watermark.length) :
    ∀ k ≥ i, ¬ (s.readings op).Admits op k := fun _ later admits =>
  absurd (watermark_eq_of_last (laterReadings_eq last) later ▸ (Readings.admits_iff.mp admits).2) unmet

/-- A poll at which the start is not due. -/
theorem settlesAfter_early (early : (s.readings op).clock i < op.scheduledStart)
    (rest : ((poll op)^[i + 1] s).weight .waiting < ((poll op)^[i] s).weight .waiting →
      s.SettlesAfter op (i + 1)) : s.SettlesAfter op i := by
  have polled : (poll op)^[i + 1] s = ((poll op)^[i] s).after op .clock := by
    rw [Function.iterate_succ_apply', poll, if_neg fun due => absurd due.1 (not_le_of_gt early)]
  have waits : Phase.waiting.next op ((poll op)^[i] s).policy.tolerated
      (((poll op)^[i] s).answer op .clock) = .waiting := if_pos early
  by_cases lower : ((poll op)^[i + 1] s).weight .waiting < ((poll op)^[i] s).weight .waiting
  · have settled := rest lower
    rw [SettlesAfter, polled] at settled
    rw [polled] at lower
    rw [SettlesAfter, run_of_lower rfl rfl (waits.symm ▸ lower), waits]
    exact settled.of_leads (Wait.leads_next fun admits => absurd admits.due (not_le_of_gt early))
  · rw [polled] at lower
    rw [SettlesAfter, run_of_not_lower rfl rfl (waits.symm ▸ lower), ← polls_journal op s i]
    refine .of_held (not_admits_of_early early ?_) (.waiting i le_rfl) rfl
    simpa [weight, after] using lower

/-- A poll that looks at the clock only, and finds the start due. -/
theorem settlesAfter_independent (due : op.scheduledStart ≤ (s.readings op).clock i)
    (independent : op.dependencyTime.isSome = false) : s.SettlesAfter op i := by
  have goesOn : Phase.waiting.next op ((poll op)^[i] s).policy.tolerated
      (((poll op)^[i] s).answer op .clock) =
        .due op s.policy.tolerated ((s.readings op).clock i) := by
    rw [polls_policy]
    exact (if_neg (not_lt_of_ge due)).trans (if_neg (by rw [independent]; exact Bool.false_ne_true))
  have fewer := Nat.lt_succ_of_lt
    (stepsLeft_due_lt op s.policy.tolerated ((s.readings op).clock i))
  rw [SettlesAfter, run_of_lower rfl rfl (weight_after_lt (goesOn.symm ▸ fewer)), goesOn]
  refine .of_leads (Wait.leads_due (Readings.admits_iff.mpr
    ⟨due, dependencyMet_of_independent independent _⟩)) ?_
  have settled := settles_due (((poll op)^[i] s).after op .clock) (s.readings op) op
    ((s.readings op).clock i) (i + 1)
  simp only [after_policy, after_clock_journal, polls_policy, polls_journal] at settled
  exact settled

/-! ### Polls that look at both -/

theorem weight_dependent_lt (now : Instant) :
    (((poll op)^[i] s).after op .clock).weight (.dependent now) <
      ((poll op)^[i] s).weight .waiting :=
  weight_after_lt (by simp [Phase.stepsLeft])

theorem run_dependent (due : op.scheduledStart ≤ (s.readings op).clock i)
    (dependent : op.dependencyTime.isSome = true) :
    ((poll op)^[i] s).run decided op .waiting =
      (((poll op)^[i] s).after op .clock).run decided op
        (.dependent ((s.readings op).clock i)) := by
  have goesOn : Phase.waiting.next op ((poll op)^[i] s).policy.tolerated
      (((poll op)^[i] s).answer op .clock) = .dependent ((s.readings op).clock i) :=
    (if_neg (not_lt_of_ge due)).trans (if_pos dependent)
  rw [run_of_lower rfl rfl (goesOn.symm ▸ weight_dependent_lt _), goesOn]

theorem polled_dependent (due : op.scheduledStart ≤ (s.readings op).clock i)
    (dependent : op.dependencyTime.isSome = true) :
    (poll op)^[i + 1] s = (((poll op)^[i] s).after op .clock).after op .watermark := by
  rw [Function.iterate_succ_apply', poll, if_pos ⟨due, dependent⟩]

/-- The global completion time lets the operation go to the lateness test or back. -/
theorem next_dependent (now : Instant) : (Phase.dependent now).next op
    (((poll op)^[i] s).after op .clock).policy.tolerated
    ((((poll op)^[i] s).after op .clock).answer op .watermark) =
      if dependencyMet op ((s.readings op).watermark i) = true
        then .due op s.policy.tolerated now else .waiting := by
  rw [← polls_policy op s i]
  rfl

theorem settlesAfter_met (due : op.scheduledStart ≤ (s.readings op).clock i)
    (dependent : op.dependencyTime.isSome = true)
    (met : dependencyMet op ((s.readings op).watermark i) = true) : s.SettlesAfter op i := by
  have answered := (next_dependent ((s.readings op).clock i)).trans (if_pos met)
  have fewer := stepsLeft_due_lt op s.policy.tolerated ((s.readings op).clock i)
  rw [SettlesAfter, run_dependent due dependent,
    run_of_lower rfl rfl (weight_after_lt (answered.symm ▸ fewer)), answered]
  refine .of_leads (Wait.leads_due (Readings.admits_iff.mpr ⟨due, met⟩)) ?_
  have settled := settles_due ((poll op)^[i + 1] s) (s.readings op) op
    ((s.readings op).clock i) (i + 1)
  rw [polls_policy, polls_journal, polled_dependent due dependent] at settled
  exact settled

theorem settlesAfter_unmet (due : op.scheduledStart ≤ (s.readings op).clock i)
    (dependent : op.dependencyTime.isSome = true)
    (unmet : ¬ dependencyMet op ((s.readings op).watermark i) = true)
    (rest : ((poll op)^[i + 1] s).weight .waiting < ((poll op)^[i] s).weight .waiting →
      s.SettlesAfter op (i + 1)) : s.SettlesAfter op i := by
  have polled := polled_dependent due dependent
  have answered := (next_dependent ((s.readings op).clock i)).trans (if_neg unmet)
  have held : ¬ (s.readings op).Admits op i := fun admits =>
    unmet (Readings.admits_iff.mp admits).2
  rw [SettlesAfter, run_dependent due dependent]
  by_cases lower : ((((poll op)^[i] s).after op .clock).after op .watermark).weight .waiting <
      (((poll op)^[i] s).after op .clock).weight (.dependent ((s.readings op).clock i))
  · have settled := rest (polled.symm ▸ lower.trans (weight_dependent_lt _))
    rw [run_of_lower rfl rfl (answered.symm ▸ lower), answered, ← polled]
    exact settled.of_leads (Wait.leads_next held)
  · rw [run_of_not_lower rfl rfl (answered.symm ▸ lower), ← polls_journal op s i]
    refine .of_held (not_admits_of_unmet unmet ?_) (.waiting i le_rfl) rfl
    simp only [weight, after, Phase.stepsLeft, reduceCtorEq, if_true, if_false] at lower
    omega

end SettlesAfter

/-- Induction on the weight: a poll that admits nothing leaves less to read, or nothing that can
change, and then no later poll admits the operation either. -/
theorem settlesAfter (s : Replay) (op : Operation) (i : Nat) : s.SettlesAfter op i := by
  induction left : ((poll op)^[i] s).weight .waiting using Nat.strong_induction_on
    generalizing i with
  | _ w ih =>
    have rest (lower : ((poll op)^[i + 1] s).weight .waiting < ((poll op)^[i] s).weight .waiting) :=
      ih _ (left ▸ lower) (i + 1) rfl
    rcases lt_or_ge ((s.readings op).clock i) op.scheduledStart with early | due
    · exact settlesAfter_early early rest
    · cases dependent : op.dependencyTime.isSome with
      | false => exact settlesAfter_independent due dependent
      | true =>
        by_cases met : dependencyMet op ((s.readings op).watermark i) = true
        · exact settlesAfter_met due dependent met
        · exact settlesAfter_unmet due dependent met rest

theorem release_eq (s : Replay) (op : Operation) : s.release op =
    ((s.run decided op .waiting).1, (s.run decided op .waiting).2.release? op) := by
  unfold release
  generalize s.run decided op .waiting = ending
  obtain ⟨s, phase⟩ := ending
  cases phase <;> rfl

end Replay

/-- The wait ends at the first poll that admits the operation, and at no earlier one, and never
when no poll admits it.  A handler that runs alone answers as the wait over its readings does. -/
theorem released_at_first_admitting_poll (op : Operation) :
    (∀ (policy : DelayPolicy) (readings : Readings) (journal : Journal),
      (∀ i, readings.Admits op i → (∀ j < i, ¬ readings.Admits op j) →
        ∃ n result journal', Ends policy op journal (readings.clock i) result journal' ∧
          (∀ m < n, (Wait.run policy readings op journal m).release? op = none) ∧
          ∀ m ≥ n, (Wait.run policy readings op journal m).release? op = some result ∧
            (Wait.run policy readings op journal m).polls = i + 1 ∧
            (Wait.run policy readings op journal m).journal = journal') ∧
      ((∀ i, ¬ readings.Admits op i) →
        ∀ m, (Wait.run policy readings op journal m).release? op = none ∧
          (Wait.run policy readings op journal m).journal = journal)) ∧
    ∀ s : Replay, ∃ n, ∀ m ≥ n,
      (s.release op).2 = (Wait.run s.policy (s.readings op) op s.journal m).release? op ∧
        (s.release op).1.journal = (Wait.run s.policy (s.readings op) op s.journal m).journal := by
  refine ⟨fun policy readings journal => ⟨fun i admits first => ?_, fun never m => ?_⟩, fun s => ?_⟩
  · obtain ⟨w, result, ending, polls, ended, ends⟩ :=
      Wait.due_leads_ends policy readings op (readings.clock i) (i + 1) journal
    obtain ⟨n, rfl, unanswered⟩ :=
      (Wait.leads_poll first).trans ((Wait.leads_due admits).trans ending)
    refine ⟨n, result, _, ends, unanswered, fun m late => ?_⟩
    obtain ⟨d, rfl⟩ := Nat.exists_eq_add_of_le' late
    rw [Wait.run, Function.iterate_add_apply, Wait.iterate_of_release ended]
    exact ⟨ended, polls, rfl⟩
  · have held : Wait.Held readings op journal 0 (.start journal) := .waiting 0 le_rfl
    exact (held.iterate (fun k _ => never k) m).unanswered
  · obtain ⟨n, settled⟩ := Replay.settlesAfter s op 0
    refine ⟨n, fun m late => ?_⟩
    obtain ⟨answer, journal⟩ := settled m late
    rw [Replay.release_eq]
    exact ⟨answer.symm, journal.symm⟩

end PacedLoad.Handler
