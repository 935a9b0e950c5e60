import PacedLoad.Proofs.Run.Counting
import PacedLoad.Proofs.Run.Crowd

/-!
# Operations wait for what they depend on

An operation that depends on a time is let go when the published slot has reached
that time.  The slot may lag behind; still, all earlier operations that start
before that time have completed by then.  One that starts exactly at that time may
not have, if its writer had reached the time before and the service has not yet
processed its own announcement.
-/

namespace PacedLoad

open Handler Watermark

variable {β : Type}

namespace Outline

variable {operations : List (Except Rows.DecodingError Operation)} {o : Outline β Board}
  {peers : List String} {taken : List Letter}

theorem initiatedBy_all (letters : List Letter) :
    initiatedBy (fun _ => true) letters = initiations letters := List.filter_true _

/-- What the worker has been told of starts is the beginning of what was initiated. -/
theorem Counted.initiations_prefix (counted : Counted peers (fun _ => true) taken o) :
    initiations taken <+: o.initiated := by
  obtain ⟨rest, -, tells⟩ := counted.corresponds.tells
  rw [initiated, ← tells.begun, initiatedBy_all, initiations_append]
  exact List.prefix_append _ _

/-- The start of a job that the worker has been told of, and that is not complete, is outstanding. -/
theorem Counted.open_of_heard (counted : Counted peers (fun _ => true) taken o) {i : Nat}
    {x : Task β} (job : o.jobs[i]? = some x) (open_ : x.phase.completed = false)
    (heard : i < (initiations taken).length) :
    (completions taken).count (x.writer, start x) <
      (initiations taken).count (x.writer, start x) := by
  obtain ⟨rest, -, tells⟩ := counted.corresponds.tells
  have balance := tells.count_le (w := x.writer) (t := start x) (List.prefix_append taken rest) rfl
  rw [initiatedBy_all] at balance
  have listed : (o.entries.take (initiations taken).length)[i]? = some ⟨x.writer, start x, false⟩ := by
    rw [List.getElem?_take_of_lt heard]
    exact entries_open job open_
  have positive := List.count_pos_iff.mpr (List.mem_of_getElem? listed)
  omega

/-- No writer has been told of a start that is later than that of a job that it has not been told
of. -/
theorem Counted.heard_le (counted : Counted peers (fun _ => true) taken o)
    (fed : Fed operations o) {i : Nat} {x : Task β} (job : o.jobs[i]? = some x)
    (unheard : (initiations taken).length ≤ i) {w : Nat} {t : Instant}
    (heard : (w, t) ∈ initiations taken) : t ≤ start x := by
  obtain ⟨k, place⟩ := List.getElem?_of_mem heard
  have before := (List.getElem?_eq_some_iff.mp place).1
  obtain ⟨later, whole⟩ := counted.initiations_prefix
  have entry : o.initiated[k]? = some (w, t) := by
    rw [← whole, List.getElem?_append_left before]
    exact place
  obtain ⟨e, listed, same⟩ := Option.map_eq_some_iff.mp (List.getElem?_map.symm.trans entry)
  cases same
  have here : o.entries[i]? = some (Outline.entry x) := by
    rw [entries, List.getElem?_append_left (by
      rw [List.length_map]
      exact (List.getElem?_eq_some_iff.mp job).1), List.getElem?_map, job]
    rfl
  obtain ⟨inside, rfl⟩ := List.getElem?_eq_some_iff.mp listed
  obtain ⟨inside', same⟩ := List.getElem?_eq_some_iff.mp here
  have ascending := List.pairwise_iff_getElem.mp (List.pairwise_map.mp fed.entries_ascending) k i
    inside inside' (by omega)
  rw [same] at ascending
  exact ascending

/-- Where the slot has reached a time, all jobs up to it have completed, but for those that start
exactly then, with a writer that had reached this time before, and that the worker has not been
told of. -/
theorem Kept.complete_of_shown (kept : Kept operations peers (fun _ => true) taken o)
    (few : FewCopies peers (callsOf taken)) {gct required : Instant}
    (shown : o.worker.state.published = some gct) (met : required ≤ gct) {i : Nat} {x : Task β}
    (job : o.jobs[i]? = some x) (due : start x ≤ required) :
    x.phase.completed = true ∨ (start x = required ∧
      (∃ tracker, o.worker.state.state.writers[x.writer]? = some tracker ∧
        tracker.lastInitiated = some required) ∧ (initiations taken).length ≤ i) := by
  cases open_ : x.phase.completed with
  | true => exact .inl rfl
  | false =>
    refine .inr ?_
    have counted := kept.counted
    have listed := entries_open job open_
    have known : Known o x.writer :=
      counted.placed (x.writer, start x) (List.mem_map_of_mem (List.mem_of_getElem? listed))
    -- the slot shows no more than the worker knows, and that no more than the writer has reached
    have reached := counted.shown.reached ⟨gct, shown, met⟩
    have inside := known
    rw [Known, counted.board] at inside
    rw [counted.board] at reached
    obtain ⟨⟨last, initiated, below⟩, above⟩ := Board.reached_of_few few reached inside
    have recorded := Board.recorded_of_few few
    obtain ⟨tracker, found⟩ : ∃ tracker, o.worker.state.state.writers[x.writer]? = some tracker :=
      ⟨_, List.getElem?_eq_getElem known⟩
    have announced : tracker.lastInitiated = some last := by
      have place := found
      rw [counted.board] at place
      exact (recorded.writer _ _ (Board.plain_writer place)).last.trans initiated
    obtain ⟨heard, completed⟩ := counted.heard x.writer rfl
    rw [heard, initiatedTimes_callsOf] at initiated
    have unheard : (initiations taken).length ≤ i := by
      by_contra told
      have open_' := counted.open_of_heard job open_ (by omega)
      refine absurd (above (start x) ?_) (not_lt_of_ge due)
      rw [heard, completed, initiatedTimes_callsOf, completedTimes_callsOf, count_times, count_times]
      exact open_'
    obtain ⟨⟨w, t⟩, member, same⟩ := List.mem_map.mp (List.mem_of_getLast? initiated)
    cases same
    have tie := counted.heard_le kept.fed job unheard (List.mem_filter.mp member).1
    obtain rfl : start x = required := le_antisymm due (le_trans below tie)
    exact ⟨rfl, ⟨tracker, found, announced.trans (congrArg some (le_antisymm tie below))⟩, unheard⟩

end Outline

namespace Run

variable {config : Config} {now : Instant} {createLog : String → Except FileError Stats.Sink}
  {work : Work β} {shared : β} {operations : List (Except Rows.DecodingError Operation)}
  {s₀ s t : Run β Board} {choices : List Choice}

/-- The `i`-th operation starts when its writer had been told of a start at the same time, and its own
announcement, which is the `i`-th of the run, has not been processed. -/
structure TiedUnheard (s₀ s : Run β Board) (choices : List Choice) (i writer : Nat) (t : Instant) :
    Prop where
  tied : ∃ tracker, s.floor.watermark.core.worker.state.state.writers[writer]? = some tracker ∧
    tracker.lastInitiated = some t
  own : (s₀.initiated choices)[i]? = some (writer, t)
  /-- Announcements are processed in the order in which they were made. -/
  ordered : initiations (s₀.delivered choices) <+: s₀.initiated choices
  unheard : (initiations (s₀.delivered choices)).length ≤ i

/-- When an operation is let go, every earlier operation that starts no later than the time it
depends on has told its completion, unless it starts exactly at that time, its writer had reached
that time before, and the service has not processed its own announcement.  Fewer than 2^32 copies of
one time must be outstanding at once. -/
theorem completed_of_released
    (started : Run.start config now createLog work shared operations = .ok s₀)
    (ran : s₀.steps choices = some s)
    (few : FewCopies config.peerIds (callsOf (s₀.delivered choices))) {ticket : Nat}
    {clock : Instant} (moved : s.step (.task ticket clock) = some t) {before after : Task β}
    (waiting : s.floor.pool.tasks[ticket]? = some before) (held : before.phase.held = true)
    (gone : t.floor.pool.tasks[ticket]? = some after) (released : after.phase.held = false)
    {required : Instant} (depends : before.operation.dependencyTime = some required)
    {i : Nat} {x : Operation} (earlier : i < ticket) (item : operations[i]? = some (.ok x))
    (due : x.scheduledStart ≤ required) :
    ∃ job, s.floor.pool.tasks[i]? = some job ∧ job.operation = x ∧
      (.completed job.writer x.scheduledStart ∈ eventsOf (s₀.told choices) (some i) ∨
        x.scheduledStart = required ∧ TiedUnheard s₀ s choices i job.writer required) := by
  have kept := kept_of_run started ran few
  obtain ⟨floor, stepped, rfl⟩ := Option.map_eq_some_iff.mp moved
  obtain ⟨task, need, e, found, needs, answers, -, -, pool⟩ := Floor.stepTask_some stepped
  cases waiting.symm.trans found
  have next : (before.phase.next before.operation s.floor.policy.tolerated e).held = false := by
    rw [show ({ s with floor } : Run β Board).floor.pool = floor.pool from rfl, pool,
      Pool.tasks_move, List.getElem?_modify, found] at gone
    simp only [if_true] at gone
    cases gone
    exact released
  obtain ⟨gct, rfl, met⟩ := Phase.met_of_released held next depends
  have shown : s.floor.watermark.gct = some gct := by
    cases need <;> simp [Floor.Answers, Task.Answers] at answers
    exact answers.symm
  have inside := (List.getElem?_eq_some_iff.mp waiting).1
  obtain ⟨job, here⟩ : ∃ job, s.floor.pool.tasks[i]? = some job :=
    ⟨_, List.getElem?_eq_getElem (by omega)⟩
  have listed : (s.outline (s₀.told choices)).jobs[i]? = some job.untaken := jobs_some here
  obtain rfl : job.untaken.operation = x := kept.fed.item_eq listed item
  refine ⟨job, here, rfl, ?_⟩
  rcases kept.complete_of_shown few shown met listed due with complete | ⟨same, tied, unheard⟩
  · exact .inl (kept.reported.told i job.untaken listed complete)
  · have initiated := initiated_of_run started ran
    have ordered := kept.counted.initiations_prefix
    rw [initiated] at ordered
    refine .inr ⟨same, tied, ?_, ordered, unheard⟩
    rw [← initiated, Outline.initiated, List.getElem?_map, Outline.entries,
      List.getElem?_append_left (by
        rw [List.length_map]
        exact (List.getElem?_eq_some_iff.mp listed).1), List.getElem?_map, listed, ← same]
    rfl

def tie : List (Except Rows.DecodingError Operation) :=
  [.ok ⟨0, "write", .saturate 10, none, .null⟩, .ok ⟨1, "write", .saturate 10, none, .null⟩,
    .ok ⟨2, "read", .saturate 20, some (.saturate 10), .null⟩]

/-- The first operation completes and the service hears of it; the others are submitted while the
service rests; the last one finds its start due. -/
def tieChoices : List Choice :=
  [.driver false, .driver false, .watermark] ++ List.replicate 6 (.driver false) ++
    List.replicate 6 (.task 0 (.saturate 10)) ++ [.watermark, .watermark] ++
    List.replicate 12 (.driver false) ++ [.task 2 (.saturate 20)]

/-- The last operation is let go although the second one has told nothing. -/
theorem tie_run : ∃ (s₀ s t : Run Unit Board) (before after : Task Unit),
    Run.start single .first (fun _ => .error (.other "")) prompt () tie = .ok s₀ ∧
      s₀.steps tieChoices = some s ∧ (callsOf (s₀.delivered tieChoices)).length = 3 ∧
      s.step (.task 2 (.saturate 20)) = some t ∧
      s.floor.pool.tasks[2]? = some before ∧ before.phase.held = true ∧
      t.floor.pool.tasks[2]? = some after ∧ after.phase.held = false ∧
      before.operation.dependencyTime = some (.saturate 10) ∧
      eventsOf (s₀.told tieChoices) (some 1) = [] :=
  ⟨_, _, _, _, _, rfl, rfl, rfl, rfl, rfl, rfl, rfl, rfl, rfl, rfl⟩

theorem completed_of_released_tie : ∃ (s₀ s t : Run Unit Board) (before after : Task Unit),
    Run.start single .first (fun _ => .error (.other "")) prompt () tie = .ok s₀ ∧
      s₀.steps tieChoices = some s ∧
      FewCopies single.peerIds (callsOf (s₀.delivered tieChoices)) ∧
      s.step (.task 2 (.saturate 20)) = some t ∧
      s.floor.pool.tasks[2]? = some before ∧ before.phase.held = true ∧
      t.floor.pool.tasks[2]? = some after ∧ after.phase.held = false ∧
      before.operation.dependencyTime = some (.saturate 10) ∧
      tie[0]? = some (.ok ⟨0, "write", .saturate 10, none, .null⟩) ∧
      ∃ job, s.floor.pool.tasks[0]? = some job ∧
        job.operation = ⟨0, "write", .saturate 10, none, .null⟩ ∧
        (.completed job.writer (.saturate 10) ∈ eventsOf (s₀.told tieChoices) (some 0) ∨
          Instant.saturate 10 = .saturate 10 ∧
            TiedUnheard s₀ s tieChoices 0 job.writer (.saturate 10)) := by
  obtain ⟨s₀, s, t, before, after, started, ran, length, moved, waiting, held, gone, released,
    depends, -⟩ := tie_run
  have few : FewCopies single.peerIds (callsOf (s₀.delivered tieChoices)) :=
    fewCopies_of_length (by rw [length]; decide)
  exact ⟨s₀, s, t, before, after, started, ran, few, moved, waiting, held, gone, released, depends,
    rfl, completed_of_released started ran few moved waiting held gone released depends (by decide)
      rfl (by decide)⟩

/-- An earlier operation that starts at the time itself need not have completed: its announcement may
not have been processed, or the copies of its start may have become more than 32 bits can count. -/
theorem released_before_tie :
    (∃ (s₀ s t : Run Unit Board) (before after : Task Unit) (x : Operation),
      Run.start single .first (fun _ => .error (.other "")) prompt () tie = .ok s₀ ∧
        s₀.steps tieChoices = some s ∧ s.step (.task 2 (.saturate 20)) = some t ∧
        s.floor.pool.tasks[2]? = some before ∧ before.phase.held = true ∧
        t.floor.pool.tasks[2]? = some after ∧ after.phase.held = false ∧
        before.operation.dependencyTime = some (.saturate 10) ∧
        tie[1]? = some (.ok x) ∧ x.scheduledStart ≤ .saturate 10 ∧
        ∀ w, .completed w x.scheduledStart ∉ eventsOf (s₀.told tieChoices) (some 1)) ∧
      ∃ (operations : List (Except Rows.DecodingError Operation)) (choices : List Choice)
        (s₀ s t : Run Unit Board) (before after : Task Unit) (x : Operation),
        Run.start wide .first (fun _ => .error (.other "")) prompt () operations = .ok s₀ ∧
          s₀.steps choices = some s ∧ s.floor.watermark.core.queue = [] ∧
          s.step (.task 1 noon) = some t ∧
          s.floor.pool.tasks[1]? = some before ∧ before.phase.held = true ∧
          t.floor.pool.tasks[1]? = some after ∧ after.phase.held = false ∧
          before.operation.dependencyTime = some noon ∧
          operations[0]? = some (.ok x) ∧ x.scheduledStart ≤ noon ∧
          ∀ w, .completed w x.scheduledStart ∉ eventsOf (s₀.told choices) (some 0) := by
  constructor
  · obtain ⟨s₀, s, t, before, after, started, ran, -, moved, waiting, held, gone, released, depends,
      silent⟩ := tie_run
    refine ⟨s₀, s, t, before, after, _, started, ran, moved, waiting, held, gone, released, depends,
      rfl, by decide, fun w => ?_⟩
    rw [silent]
    exact List.not_mem_nil
  · obtain ⟨s₀, started, gathered⟩ := crowd_wrapped (n := 4294967293) rfl
    obtain ⟨s, t, before, after, ran, moved, waiting, held, gone, released, depends, empty⟩ :=
      crowd_release (4294967293 + 4) 2 (guest (atNoon 0 "write" none))
        (guest (atNoon 3 "write" none) :: (ties (List.range' 4 4294967293)).map guest)
    refine ⟨_, crowdChoices (4294967293 + 2) ++ releaseChoices, s₀, s, t, before, after, _, started,
      ?_, empty, moved, waiting, held, gone, released, depends, rfl, le_rfl, fun w => ?_⟩
    · rw [steps_append, gathered]
      exact ran
    · rw [eventsOf_told_nil fun now member => ?_]
      · exact List.not_mem_nil
      · rcases List.mem_append.mp member with gathers | releases
        · rcases mem_crowdChoices gathers with other | other <;> cases other
        · simp [releaseChoices] at releases

end Run

end PacedLoad
