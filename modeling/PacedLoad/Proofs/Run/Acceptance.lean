import PacedLoad.Proofs.Run.Crowd
import PacedLoad.Proofs.Run.Visits

/-!
# The completion time service accepts what a run sends

The driver announces starts in order with writers that take turns, and a handler
completes its start once, after it was announced.  So the service accepts all of
these events, whenever it takes them, as long as nobody else uses the writers of the
driver and the copies of a time can be counted.  Only one last message is sent.  Then
only an event of a peer or of a visitor is ever refused.
-/

namespace PacedLoad

open Handler Watermark

namespace Watermark

/-- A worker fails only over an event that the state refuses or over a second last message. -/
theorem receive_failed {σ : Type} [Bookkeeping σ] {now : Instant} {w : Worker (Coordinator σ)}
    {j : Journal} {m : Letter} (running : w.phase = .running)
    (failed : (w.receive duty now j m).1.phase = .failed) :
    (∃ e v, m = .event e ∧ Bookkeeping.apply w.state.state e = .error v) ∨
      ∃ first second, w.expected = some first ∧ m = .terminate second := by
  have settled : ∀ v : Worker (Coordinator σ), v.phase = .running → v.settle.phase ≠ .failed := by
    intro v before failed
    rcases v.settle_phase with ⟨same, -⟩ | ⟨complete, -⟩
    · cases before.symm.trans (same.symm.trans failed)
    · cases complete.symm.trans failed
  cases m with
  | event e =>
    cases applied : Bookkeeping.apply w.state.state e with
    | error v => exact .inl ⟨e, v, rfl, applied⟩
    | ok after =>
      simp only [Worker.receive, duty, applied] at failed
      exact absurd failed (settled _ running)
  | request r ticket => exact absurd failed (settled _ running)
  | terminate n =>
    cases told : w.expected with
    | none =>
      simp only [Worker.receive, told] at failed
      exact absurd failed (settled _ running)
    | some first => exact .inr ⟨first, n, rfl, rfl⟩

end Watermark

namespace Run

variable {β : Type} {config : Config} {now : Instant}
  {createLog : String → Except FileError Stats.Sink} {work : Work β} {shared : β}
  {operations : List (Except Rows.DecodingError Operation)} {peers : List String}
  {mine : Nat → Bool} {posted : List (Move × Letter)} {took : List Letter} {told : List Sent}
  {s₀ s t : Run β Board} {m : Move} {moves : List Move}

/-- The oldest letter of a queue is the one that was sent after all that were taken. -/
theorem Attended.oldest (attended : Attended operations peers mine posted took told s)
    (running : s.floor.watermark.core.isOpen = true) (k : Nat) :
    (posted[took.length + k]?).map Prod.snd = s.floor.watermark.core.queue[k]? := by
  rw [← List.getElem?_map, attended.ordered running, List.getElem?_append_right (by omega),
    Nat.add_sub_cancel_left]

/-- The worker accepts the oldest event if the driver or one of its handlers has sent it. -/
theorem Attended.accepts (attended : Attended operations peers mine posted took told s)
    (own : ∀ w ∈ s.writers, mine w = true) (few : FewCopiesAt mine peers (callsOf took))
    (running : s.floor.watermark.core.isOpen = true) {e : Watermark.Event}
    (sent : posted[took.length]? = some (m, .event e)) (serves : m.foreign = false) :
    ∃ rest after, s.floor.watermark.core.queue = .event e :: rest ∧
      Bookkeeping.apply s.floor.watermark.core.worker.state.state e = .ok after := by
  have first := attended.oldest running 0
  rw [Nat.add_zero, sent] at first
  obtain ⟨letter, rest, queue⟩ := List.exists_cons_of_ne_nil
    (l := s.floor.watermark.core.queue) (fun empty => by simp [empty] at first)
  obtain rfl : .event e = letter := by simpa [queue] using first
  obtain ⟨w, used, t, known⟩ :=
    attended.own _ (List.mem_of_getElem? sent) serves e rfl
  obtain ⟨after, accepted⟩ := Board.apply_ok.mpr (attended.kept.counted.accepts attended.kept.fed few
    (Service.isOpen_iff.mp running) queue (own w used) known)
  exact ⟨rest, after, queue, accepted⟩

/-- Only a move of the worker makes it fail, over an event that it refuses. -/
theorem Attended.refused (attended : Attended operations peers mine posted took told s)
    (moved : s.act m = some t) (fine : s.floor.watermark.core.worker.phase ≠ .failed)
    (failed : t.floor.watermark.core.worker.phase = .failed) :
    m = .own .watermark ∧ s.floor.watermark.core.isOpen = true ∧ ∃ e rest v,
      s.floor.watermark.core.queue = .event e :: rest ∧
      Bookkeeping.apply s.floor.watermark.core.worker.state.state e = .error v := by
  have still (same : t.floor.watermark.core.worker = s.floor.watermark.core.worker) : False :=
    fine (same ▸ failed)
  cases m with
  | visit v =>
    cases moved
    rcases s.visited_outline told v with same | ⟨m, -, posts, -⟩
    · exact (still (congrArg Outline.worker same)).elim
    · exact (still (congrArg Outline.worker posts)).elim
  | own c =>
    by_cases worker : c = .watermark
    · subst worker
      cases running : s.floor.watermark.core.isOpen with
      | false =>
        obtain ⟨-, core⟩ := step_watermark moved
        rw [Service.deliver_closed running] at core
        exact (still (congrArg PacedLoad.Service.worker core)).elim
      | true =>
        obtain ⟨m, rest, -, delivery⟩ := delivery_of_step told moved running
        have stopped := failed
        rw [show t.floor.watermark.core.worker = _ from delivery.worker] at stopped
        have queue : s.floor.watermark.core.queue = m :: rest := delivery.oldest
        rcases receive_failed delivery.running stopped with
          ⟨e, v, rfl, refused⟩ | ⟨first, second, expected, rfl⟩
        · exact ⟨rfl, rfl, e, rest, v, queue, refused⟩
        · -- only one last message is sent
          have single := attended.sealed
          have expected' : s.floor.watermark.core.worker.expected = some first := expected
          have two : 2 ≤ s.floor.watermark.core.lasts.length := by
            simp [Service.lasts, queue, expected', Message.expected?]
          unfold Service.Sealed at single
          split at single <;> omega
    · exact (still (step_sends told moved worker).2.2).elim

/-- As long as no visitor uses a writer of the driver, and fewer than 2^32 copies of one time are
outstanding at each of these writers, the service accepts every announcement and completion of the
driver and its handlers that it takes.  If it fails, it has refused an event of a peer or of a
visitor. -/
theorem accepted_of_acts
    (started : Run.start config now createLog work shared operations = .ok s₀)
    (ran : s₀.acts moves = some s) (apart : Apart moves s.writers)
    (few : FewCopiesAt (fun w => decide (w ∈ s.writers)) config.peerIds
      (callsOf (s₀.taken moves))) :
    (∀ m e, s.floor.watermark.core.isOpen = true →
      (s₀.sent moves)[(s₀.taken moves).length]? = some (m, .event e) → m.foreign = false →
        ∃ rest after, s.floor.watermark.core.queue = .event e :: rest ∧
          Board.apply s.floor.watermark.core.worker.state.state e = .ok after) ∧
      (s.floor.watermark.core.worker.phase = .failed →
        ∃ earlier later u v m e rest violation, moves = earlier ++ .own .watermark :: later ∧
          s₀.acts earlier = some u ∧ u.floor.watermark.core.isOpen = true ∧
          u.step .watermark = some v ∧ v.floor.watermark.core.worker.phase = .failed ∧
          (s₀.sent earlier)[(s₀.taken earlier).length]? = some (m, .event e) ∧
          m.foreign = true ∧ u.floor.watermark.core.queue = .event e :: rest ∧
          Board.apply u.floor.watermark.core.worker.state.state e = .error violation) := by
  have own : ∀ w ∈ s.writers, decide (w ∈ s.writers) = true := fun w used => decide_eq_true used
  have foreign : ∀ v w, .visit v ∈ moves → v.writer? = some w →
      decide (w ∈ s.writers) = false := fun v w member writer =>
    decide_eq_false fun used => apart _ member w used writer
  obtain ⟨told, attended⟩ := attended_of_run started ran own foreign few
  refine ⟨fun m e running sent serves => attended.accepts own few running sent serves,
    fun failed => ?_⟩
  have fresh : ¬ s₀.floor.watermark.core.worker.phase = .failed := by
    obtain ⟨-, log, rfl⟩ := start_ok started
    nofun
  obtain ⟨earlier, m, later, u, v, split, led, fine, moved, stopped⟩ :=
    exists_move_of_foldlM (P := fun r : Run β Board => r.floor.watermark.core.worker.phase = .failed)
      (acts_eq s₀ moves ▸ ran) fresh failed
  rw [← acts_eq] at led
  have used : ∀ w ∈ u.writers, decide (w ∈ s.writers) = true := fun w before => by
    rw [split, acts_append, led] at ran
    exact decide_eq_true (writers_of_acts ran before)
  have less : FewCopiesAt (fun w => decide (w ∈ s.writers)) config.peerIds
      (callsOf (s₀.taken earlier)) := few.of_prefix (by
    rw [split]
    exact (taken_append s₀ earlier _).filterMap called)
  obtain ⟨told', before⟩ := attended_of_run started led used
    (fun v w member => foreign v w (split ▸ List.mem_append_left _ member)) less
  obtain ⟨rfl, running, e, rest, violation, queue, refused⟩ := before.refused moved fine stopped
  have first := before.oldest running 0
  rw [Nat.add_zero, queue] at first
  obtain ⟨⟨m, letter⟩, sent, same⟩ := Option.map_eq_some_iff.mp first
  cases same
  refine ⟨earlier, later, u, v, m, e, rest, violation, split, led, running, moved, stopped, sent, ?_,
    queue, refused⟩
  cases serves : m.foreign with
  | true => rfl
  | false =>
    obtain ⟨-, after, -, accepted⟩ := before.accepts used less running sent serves
    cases accepted.symm.trans refused

/-- An operation that nothing has to wait for. -/
def solo : List (Except Rows.DecodingError Operation) :=
  [.ok ⟨0, "write", .saturate 10, none, .null⟩]

/-- A visitor with a writer of its own announces a later start than the driver after it. -/
def guestMoves : List Move :=
  [.visit .register, .own .watermark, .visit (.registered false 0),
    .visit (.initiated 0 (.saturate 30)), .own .watermark, .own (.driver false), .own (.driver false),
    .own .watermark, .own (.driver false), .own (.driver false)]

/-- A peer that was not declared reports its completion time. -/
def intruderMoves : List Move := [.own (.peer "intruder" .first), .own .watermark]

theorem accepted_of_acts_guest :
    (∃ (s₀ s : Run Unit Board),
      Run.start single .first (fun _ => .error (.other "")) prompt () solo = .ok s₀ ∧
        s₀.acts guestMoves = some s ∧ Apart guestMoves s.writers ∧
        FewCopiesAt (fun w => decide (w ∈ s.writers)) single.peerIds (callsOf (s₀.taken guestMoves)) ∧
        s.floor.watermark.core.isOpen = true ∧
        (s₀.sent guestMoves)[(s₀.taken guestMoves).length]? =
          some (.own (.driver false), .event (.initiated 1 (.saturate 10))) ∧
        ∃ rest after, s.floor.watermark.core.queue = .event (.initiated 1 (.saturate 10)) :: rest ∧
          Board.apply s.floor.watermark.core.worker.state.state (.initiated 1 (.saturate 10)) =
            .ok after) ∧
      ∃ (s₀ s : Run Unit Board),
        Run.start single .first (fun _ => .error (.other "")) prompt () solo = .ok s₀ ∧
          s₀.acts intruderMoves = some s ∧ Apart intruderMoves s.writers ∧
          FewCopiesAt (fun w => decide (w ∈ s.writers)) single.peerIds
            (callsOf (s₀.taken intruderMoves)) ∧
          s.floor.watermark.core.worker.phase = .failed ∧
          ∃ earlier m e, earlier <+: intruderMoves ∧
            (s₀.sent earlier)[(s₀.taken earlier).length]? = some (m, .event e) ∧
            m.foreign = true := by
  constructor
  · obtain ⟨s₀, s, started, ran, writers, length, running, sent⟩ : ∃ (s₀ s : Run Unit Board),
        Run.start single .first (fun _ => .error (.other "")) prompt () solo = .ok s₀ ∧
          s₀.acts guestMoves = some s ∧ s.writers = [1] ∧
          (callsOf (s₀.taken guestMoves)).length = 3 ∧ s.floor.watermark.core.isOpen = true ∧
          (s₀.sent guestMoves)[(s₀.taken guestMoves).length]? =
            some (.own (.driver false), .event (.initiated 1 (.saturate 10))) :=
      ⟨_, _, rfl, rfl, rfl, rfl, rfl, rfl⟩
    have apart : Apart guestMoves s.writers := by
      rw [writers]
      unfold Apart
      decide
    have few : FewCopiesAt (fun w => decide (w ∈ s.writers)) single.peerIds
        (callsOf (s₀.taken guestMoves)) := (fewCopies_of_length (by rw [length]; decide)).at _
    exact ⟨s₀, s, started, ran, apart, few, running, sent,
      (accepted_of_acts started ran apart few).1 _ _ running sent rfl⟩
  · obtain ⟨s₀, s, started, ran, writers, length, failed⟩ : ∃ (s₀ s : Run Unit Board),
        Run.start single .first (fun _ => .error (.other "")) prompt () solo = .ok s₀ ∧
          s₀.acts intruderMoves = some s ∧ s.writers = [] ∧
          (callsOf (s₀.taken intruderMoves)).length = 1 ∧
          s.floor.watermark.core.worker.phase = .failed := ⟨_, _, rfl, rfl, rfl, rfl, rfl⟩
    have apart : Apart intruderMoves s.writers := by
      rw [writers]
      exact fun _ _ _ none => absurd none List.not_mem_nil
    have few : FewCopiesAt (fun w => decide (w ∈ s.writers)) single.peerIds
        (callsOf (s₀.taken intruderMoves)) := (fewCopies_of_length (by rw [length]; decide)).at _
    obtain ⟨earlier, later, -, -, m, e, -, -, split, -, -, -, -, sent, foreign, -⟩ :=
      (accepted_of_acts started ran apart few).2 failed
    exact ⟨s₀, s, started, ran, apart, few, failed, earlier, m, e, ⟨_, split.symm⟩, sent, foreign⟩

/-- A visitor announces a later start through the writer of the driver, just before the driver. -/
def meddlerMoves : List Move :=
  [.own (.driver false), .own (.driver false), .own .watermark, .own (.driver false),
    .visit (.initiated 0 (.saturate 30)), .own (.driver false), .own .watermark]

/-- The driver's announcement is refused after a visitor has used the driver's writer.  Where nobody
but the driver, its handlers and the worker moves, a handler's completion is refused after the copies
of its start have become more than 32 bits can count. -/
theorem refused_of_meddler_or_crowd :
    (∃ (s₀ s : Run Unit Board),
      Run.start single .first (fun _ => .error (.other "")) prompt () solo = .ok s₀ ∧
        s₀.acts meddlerMoves = some s ∧ s.floor.watermark.core.isOpen = true ∧
        (s₀.sent meddlerMoves)[(s₀.taken meddlerMoves).length]? =
          some (.own (.driver false), .event (.initiated 0 (.saturate 10))) ∧
        s.floor.watermark.core.queue = [.event (.initiated 0 (.saturate 10))] ∧
        Board.apply s.floor.watermark.core.worker.state.state (.initiated 0 (.saturate 10)) =
          .error (.initiatedTooEarly (.saturate 10) (.saturate 30))) ∧
      ∃ (operations : List (Except Rows.DecodingError Operation)) (choices : List Choice)
        (s₀ s : Run Unit Board),
        Run.start wide .first (fun _ => .error (.other "")) prompt () operations = .ok s₀ ∧
          (∀ c ∈ choices, c.talks = false) ∧ s₀.steps choices = some s ∧
          s.floor.watermark.core.isOpen = true ∧
          s.floor.watermark.core.queue = [.event (.completed 0 noon)] ∧
          Board.apply s.floor.watermark.core.worker.state.state (.completed 0 noon) =
            .error (.notOutstanding noon) := by
  refine ⟨⟨_, _, rfl, rfl, rfl, rfl, rfl, rfl⟩, ?_⟩
  obtain ⟨s₀, started, gathered⟩ := crowd_wrapped (n := 4294967293) rfl
  obtain ⟨s, left, running, queue, refused⟩ := crowd_leave (4294967293 + 4) 2 3
    (guest (atNoon 0 "write" none)) (guest (atNoon 1 "read" (some noon)))
    ((ties (List.range' 4 4294967293)).map guest)
  refine ⟨_, crowdChoices (4294967293 + 2) ++ leaveChoices, s₀, s, started, fun c member => ?_, ?_,
    running, queue, refused⟩
  · rcases List.mem_append.mp member with gathers | leaves
    · rcases mem_crowdChoices gathers with rfl | rfl <;> rfl
    · have silent : ∀ c ∈ leaveChoices, c.talks = false := by decide
      exact silent c leaves
  · rw [steps_append, gathered]
    exact left

end Run

end PacedLoad
