import Mathlib.Data.Multiset.Sort
import PacedLoad.Proofs.Watermark.Board

/-!
# Which calls are accepted, and what they add up to

The accepted calls decide which call is accepted next, and what the completion time of
each writer is: it follows from the multiset of the times that the writer initiated and
did not complete.
-/

namespace PacedLoad.Watermark

/-- What may be called after the accepted calls `h`. -/
def Legal (peers : List String) (h : List Call) : Call → Prop
  | .register => True
  | .announce (.initiated w t) =>
    w < writerCount h ∧ ∀ last, (initiatedTimes h w).getLast? = some last → last ≤ t
  | .announce (.completed w t) =>
    w < writerCount h ∧ (completedTimes h w).count t < (initiatedTimes h w).count t
  | .announce (.external p t) =>
    p ∈ peers ∧ ∀ r, (reportedTimes h p).getLast? = some r → r ≤ t

/-- The times that a writer initiated and did not complete. -/
def unfinished (h : List Call) (w : Nat) : Multiset Instant :=
  (initiatedTimes h w : Multiset Instant) - (completedTimes h w : Multiset Instant)

/-- One nanosecond before the least time that is not completed, which is unknown for the first
instant, or the last initiated time when all are completed: unknown before the first. -/
def completionTimeOf (h : List Call) (w : Nat) : Option Instant :=
  match (unfinished h w).sort (· ≤ ·) with
  | [] => (initiatedTimes h w).getLast?
  | least :: _ => if least.nanos = 0 then none else Instant.ofNanos? (least.nanos - 1)

namespace Writer.Recorded

variable {h : List Call} {w : Nat} {writer : Writer}

theorem unfinished (recorded : writer.Recorded h w) :
    Watermark.unfinished h w = (writer.outstanding : Multiset Instant) := by
  ext t
  have balance := recorded.balance t
  rw [Watermark.unfinished, Multiset.count_sub, Multiset.coe_count, Multiset.coe_count,
    Multiset.coe_count]
  omega

theorem completionTime (recorded : writer.Recorded h w) :
    writer.completionTime = completionTimeOf h w := by
  have sorted : (writer.outstanding : Multiset Instant).sort (· ≤ ·) = writer.outstanding := by
    rw [Multiset.coe_sort]
    exact List.mergeSort_of_pairwise
      (recorded.ordered.ascending.imp fun le => decide_eq_true le)
  rw [completionTimeOf, recorded.unfinished, sorted, ← recorded.last, Writer.completionTime]
  cases writer.outstanding with
  | nil => rfl
  | cons least later => exact least.stepBack_eq

end Writer.Recorded

namespace Board

variable {peers : List String} {h calls : List Call} {b after : Board} {c : Call} {w : Nat}
  {t : Instant}

/-- A board holds what the accepted calls `h` have left of a writer. -/
structure Holds (b : Board) (h : List Call) (w : Nat) : Prop where
  registered : b.writers.length = writerCount h
  writer : ∀ tracker, b.writers[w]? = some tracker →
    tracker.outstanding.Positive ∧ tracker.plain.Recorded h w
  absent : b.writers.length ≤ w → initiatedTimes h w = [] ∧ completedTimes h w = []

theorem Holds.of_recorded (recorded : Recorded peers h b.plain) (positive : b.Positive) (w : Nat) :
    b.Holds h w where
  registered := by rw [← recorded.registered, plain, List.length_map]
  writer tracker found :=
    ⟨positive tracker (List.mem_of_getElem? found), recorded.writer w _ (plain_writer found)⟩
  absent beyond := recorded.absent w (by rwa [plain, List.length_map])

theorem Holds.registered_iff (holds : b.Holds h w) :
    w < writerCount h ↔ ∃ tracker, b.writers[w]? = some tracker := by
  rw [← holds.registered]
  exact ⟨fun inside => ⟨_, List.getElem?_eq_getElem inside⟩,
    fun ⟨tracker, found⟩ => (List.getElem?_eq_some_iff.mp found).1⟩

/-- What is left of a writer decides which of its announcements are accepted. -/
theorem Holds.initiated_iff (holds : b.Holds h w) (peers : List String) :
    (∃ after, b.Step (.announce (.initiated w t)) after) ↔
      Legal peers h (.announce (.initiated w t)) := by
  constructor
  · rintro ⟨after, step⟩
    cases step with
    | @initiated _ _ tracker found late =>
      refine ⟨holds.registered_iff.mpr ⟨tracker, found⟩, ?_⟩
      rw [← (holds.writer tracker found).2.last]
      exact late
  · intro legal
    obtain ⟨tracker, found⟩ := holds.registered_iff.mp legal.1
    have late := legal.2
    rw [← (holds.writer tracker found).2.last] at late
    exact ⟨_, .initiated found late⟩

@[inherit_doc Holds.initiated_iff]
theorem Holds.completed_iff (holds : b.Holds h w) (peers : List String) :
    (∃ after, b.Step (.announce (.completed w t)) after) ↔
      Legal peers h (.announce (.completed w t)) := by
  constructor
  · rintro ⟨after, step⟩
    cases step with
    | @completed _ _ tracker n found there =>
      refine ⟨holds.registered_iff.mpr ⟨tracker, found⟩, ?_⟩
      obtain ⟨positive, recorded⟩ := holds.writer tracker found
      have balance := recorded.balance t
      have left := List.count_pos_iff.mpr ((Copies.mem_expand positive).mpr ⟨n, there⟩)
      change 0 < tracker.plain.outstanding.count t at left
      omega
  · intro legal
    obtain ⟨tracker, found⟩ := holds.registered_iff.mp legal.1
    obtain ⟨positive, recorded⟩ := holds.writer tracker found
    have balance := recorded.balance t
    have fewer := legal.2
    have member : t ∈ tracker.plain.outstanding := List.count_pos_iff.mp (by omega)
    obtain ⟨n, there⟩ := (Copies.mem_expand positive).mp member
    exact ⟨_, .completed found there⟩

/-- A call of another writer, or of a peer. -/
theorem Holds.other (holds : b.Holds h w) (same : after.writers[w]? = b.writers[w]?)
    (length : after.writers.length = b.writers.length)
    (registered : writerCount (h ++ [c]) = writerCount h)
    (initiated : initiatedTimes (h ++ [c]) w = initiatedTimes h w)
    (completed : completedTimes (h ++ [c]) w = completedTimes h w) : after.Holds (h ++ [c]) w where
  registered := by rw [length, holds.registered, registered]
  writer tracker found := by
    rw [same] at found
    obtain ⟨positive, recorded⟩ := holds.writer tracker found
    exact ⟨positive, recorded.congr initiated completed⟩
  absent beyond := by
    rw [initiated, completed]
    exact holds.absent (length ▸ beyond)

/-- An accepted call of the writer itself. -/
theorem Holds.own {tracker changed : Tracker} (holds : b.Holds h w)
    (found : b.writers[w]? = some tracker) (positive : changed.outstanding.Positive)
    (recorded : changed.plain.Recorded (h ++ [c]) w)
    (registered : writerCount (h ++ [c]) = writerCount h) :
    ({ b with writers := b.writers.set w changed } : Board).Holds (h ++ [c]) w := by
  have inside := (List.getElem?_eq_some_iff.mp found).1
  refine ⟨?_, fun tracker' found' => ?_, fun beyond => ?_⟩
  · rw [List.length_set, holds.registered, registered]
  · rw [List.getElem?_set_self inside, Option.some.injEq] at found'
    exact found' ▸ ⟨positive, recorded⟩
  · rw [List.length_set] at beyond
    omega

/-- An accepted call keeps what is left of a writer, where one copy more of a time still fits. -/
theorem Holds.step (holds : b.Holds h w) (ordered : b.Ordered)
    (room : ∀ t tracker, c = .announce (.initiated w t) → b.writers[w]? = some tracker →
      tracker.plain.outstanding.count t + 1 < 4294967296)
    (step : b.Step c after) : after.Holds (h ++ [c]) w := by
  cases step with
  | register =>
    have initiated : initiatedTimes (h ++ [.register]) w = initiatedTimes h w := by
      simp [initiatedTimes]
    have completed : completedTimes (h ++ [.register]) w = completedTimes h w := by
      simp [completedTimes]
    refine ⟨by simp [register, holds.registered, writerCount], fun tracker found => ?_,
      fun beyond => ?_⟩
    · rcases getElem?_concat_some found with old | ⟨rfl, rfl⟩
      · obtain ⟨positive, recorded⟩ := holds.writer tracker old
        exact ⟨positive, recorded.congr initiated completed⟩
      · obtain ⟨noneInitiated, noneCompleted⟩ := holds.absent le_rfl
        refine ⟨fun _ none => absurd none List.not_mem_nil, .fresh, ?_, fun u => ?_⟩
        · rw [initiated, noneInitiated]
          rfl
        · rw [initiated, completed, noneInitiated, noneCompleted]
          rfl
    · rw [initiated, completed]
      exact holds.absent (by simp [register] at beyond; omega)
  | @initiated w' t tracker found late =>
    by_cases same : w' = w
    · subst same
      obtain ⟨positive, recorded⟩ := holds.writer tracker found
      have fits := room t tracker rfl found
      refine holds.own found (positive.add fits) ?_ (by simp [writerCount])
      rw [Tracker.plain_add (ordered tracker (List.mem_of_getElem? found)) late fits]
      exact recorded.initiated (Writer.initiated_ok.mpr ⟨late, rfl⟩)
    · refine holds.other (List.getElem?_set_ne same) List.length_set ?_ ?_ ?_ <;>
        simp [writerCount, initiatedTimes, completedTimes, same]
  | @completed w' t tracker n found there =>
    by_cases same : w' = w
    · subst same
      obtain ⟨positive, recorded⟩ := holds.writer tracker found
      refine holds.own found (positive.remove t) (recorded.completed ?_) (by simp [writerCount])
      rw [Tracker.plain_completed positive, Tracker.completed_ok.mpr ⟨⟨n, there⟩, rfl⟩]
      rfl
    · refine holds.other (List.getElem?_set_ne same) List.length_set ?_ ?_ ?_ <;>
        simp [writerCount, initiatedTimes, completedTimes, same]
  | external =>
    refine holds.other rfl rfl ?_ ?_ ?_ <;> simp [writerCount, initiatedTimes, completedTimes]

/-- As long as the copies of a writer's times fit, the board holds what the accepted calls have left
of it. -/
theorem holds_of_few {mine : Nat → Bool} (few : FewCopiesAt mine peers calls)
    (own : mine w = true) :
    ((start peers).replay calls).Holds ((start peers).accepted calls) w := by
  induction calls using List.reverseRecOn with
  | nil => exact .of_recorded (recorded_start peers) (fun _ none => absurd none List.not_mem_nil) w
  | append_singleton calls c ih =>
    have before := ih (few.of_prefix (List.prefix_append calls [c]))
    have taken := accepted_append (start peers) calls [c]
    rw [replay_append, replay, List.foldl_cons, List.foldl_nil]
    cases made : ((start peers).replay calls).call c with
    | mk next answer =>
      simp only [accepted, made] at taken
      cases answer with
      | error v =>
        rw [taken, call_refused made, List.append_nil]
        exact before
      | ok done =>
        rw [taken]
        refine before.step (ordered_replay peers calls) ?_ (step_of_ok made)
        rintro t tracker rfl found
        have copies := few _ (List.prefix_refl _) w own t
        rw [taken, (before.writer tracker found).2.copiesLeft_initiated] at copies
        exact copies

/-- The accepted calls decide what is accepted next. -/
theorem step_iff (recorded : Recorded peers h b.plain) (positive : b.Positive) (c : Call) :
    (∃ after, b.Step c after) ↔ Legal peers h c := by
  have holds := Holds.of_recorded recorded positive
  cases c with
  | register => exact ⟨fun _ => trivial, fun _ => ⟨_, .register⟩⟩
  | announce e =>
    cases e with
    | initiated w t => exact (holds w).initiated_iff peers
    | completed w t => exact (holds w).completed_iff peers
    | external p t =>
      constructor
      · rintro ⟨after, step⟩
        cases step with
        | @external _ _ previous found late =>
          have report := (recorded.peer p).symm.trans found
          split at report
          next declared => exact ⟨declared, (Option.some.inj report) ▸ late⟩
          next => cases report
      · intro legal
        have found : Keyed.find? p b.peers = some (reportedTimes h p).getLast? :=
          (recorded.peer p).trans (if_pos legal.1)
        exact ⟨_, .external found legal.2⟩

/-- As long as the copies of a time fit, exactly the legal calls are accepted. -/
theorem accepted_iff_legal {calls : List Call} (few : FewCopies peers calls) (c : Call) :
    (((start peers).replay calls).call c).2 = .ok () ↔
      Legal peers ((start peers).accepted calls) c :=
  accepted_iff.trans (step_iff (recorded_of_few few) (plain_replay few).1 c)

end Board

/-- After any calls, exactly the legal ones are accepted, a refused one changes nothing, and each
writer's completion time and number of outstanding copies are those of the times that it
initiated and did not complete.  The board then stands for the state that keeps every copy in a
place of its own. -/
theorem bookkeeping_of_few {peers : List String} {calls : List Call}
    (few : FewCopies peers calls) :
    let b := (Board.start peers).replay calls
    let h := (Board.start peers).accepted calls
    (∀ c, (b.call c).2 = .ok () ↔ Legal peers h c) ∧
      (∀ c, (b.call c).2 ≠ .ok () → (b.call c).1 = b) ∧
      b.writers.length = writerCount h ∧
      (∀ w tracker, b.writers[w]? = some tracker →
        tracker.completionTime = completionTimeOf h w ∧
          tracker.outstandingCount = (unfinished h w).card) ∧
      b.plain = (State.start peers).replay calls ∧ h = (State.start peers).accepted calls := by
  intro b h
  obtain ⟨positive, same, alike⟩ := Board.plain_replay few
  have recorded : Recorded peers h b.plain := Board.recorded_of_few few
  refine ⟨Board.accepted_iff_legal few, fun c refused => ?_, ?_, fun w tracker found => ?_, same,
    alike⟩
  · cases made : b.call c with
    | mk next answer =>
      rw [made] at refused
      cases answer with
      | ok done => exact absurd rfl refused
      | error v => exact Board.call_refused made
  · rw [← recorded.registered, Board.plain, List.length_map]
  · have here := recorded.writer w _ (Board.plain_writer found)
    have counted := positive tracker (List.mem_of_getElem? found)
    constructor
    · rw [← here.completionTime, Tracker.plain_completionTime counted]
    · rw [here.unfinished, Multiset.coe_card, Tracker.outstandingCount, Copies.size_eq]
      rfl

/-- A tie that opens a finished time again, three calls that are refused, and a report. -/
def reopeningCalls : List Call :=
  [.register, .announce (.initiated 0 (Instant.ofMillis 20)),
    .announce (.completed 0 (Instant.ofMillis 20)), .announce (.initiated 0 (Instant.ofMillis 20)),
    .announce (.initiated 0 (Instant.ofMillis 10)), .announce (.completed 0 (Instant.ofMillis 10)),
    .announce (.external "q" (Instant.ofMillis 5)), .announce (.external "p" (Instant.ofMillis 5))]

theorem bookkeeping_of_few_reopening :
    FewCopies ["p"] reopeningCalls ∧
      (((Board.start ["p"]).replay reopeningCalls).call
        (.announce (.completed 0 (Instant.ofMillis 20)))).2 = .ok () ∧
      ∀ tracker, ((Board.start ["p"]).replay reopeningCalls).writers[0]? = some tracker →
        tracker.completionTime = Instant.ofNanos? 19999999 ∧ tracker.outstandingCount = 1 := by
  have few : FewCopies ["p"] reopeningCalls := fewCopies_of_length (by decide)
  obtain ⟨legal, -, -, times, -⟩ := bookkeeping_of_few few
  have accepted : (Board.start ["p"]).accepted reopeningCalls =
      [.register, .announce (.initiated 0 (Instant.ofMillis 20)),
        .announce (.completed 0 (Instant.ofMillis 20)),
        .announce (.initiated 0 (Instant.ofMillis 20)),
        .announce (.external "p" (Instant.ofMillis 5))] := by decide
  refine ⟨few, (legal _).mpr ?_, fun tracker found => ?_⟩
  · rw [accepted]
    exact ⟨by decide, by decide⟩
  · obtain ⟨time, count⟩ := times 0 tracker found
    have left : unfinished ((Board.start ["p"]).accepted reopeningCalls) 0 =
        {Instant.ofMillis 20} := by
      rw [accepted]
      decide
    rw [time, count, completionTimeOf, left, Multiset.sort_singleton]
    exact ⟨rfl, rfl⟩

end PacedLoad.Watermark
