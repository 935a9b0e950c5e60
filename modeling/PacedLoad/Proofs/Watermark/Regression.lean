import PacedLoad.Proofs.Watermark.Board

/-!
# When the global completion time goes back

An unknown time stands below every known one.  The global completion time goes back in two
cases only: a writer that has nothing outstanding initiates its last time once more, or a
new writer is registered.  Nothing here depends on how many copies of a time there are.
-/

namespace PacedLoad.Watermark

namespace Board

variable {b after : Board} {w : Nat} {tracker : Tracker} {v : Instant}

/-- What all but one writer and all peers have reached. -/
def OthersReached (b : Board) (w : Nat) (v : Instant) : Prop :=
  (∀ i other, i ≠ w → b.writers[i]? = some other → some v ≤ other.completionTime) ∧
    ∀ e ∈ b.peers, some v ≤ e.2

/-- One writer and all others. -/
theorem reached_set (found : b.writers[w]? = some tracker) (changed : Tracker) :
    some v ≤ globalCompletionTime { b with writers := b.writers.set w changed } ↔
      some v ≤ changed.completionTime ∧ b.OthersReached w v := by
  have inside : w < b.writers.length := (List.getElem?_eq_some_iff.mp found).1
  have here : (b.writers.set w changed)[w]? = some changed := List.getElem?_set_self inside
  rw [globalCompletionTime, some_le_lowest]
  constructor
  · rintro ⟨-, all⟩
    refine ⟨all _ (List.mem_append_left _ (List.mem_map_of_mem (List.mem_of_getElem? here))), ?_, ?_⟩
    · intro i other different old
      rw [← List.getElem?_set_ne (Ne.symm different) (a := changed)] at old
      exact all _ (List.mem_append_left _ (List.mem_map_of_mem (List.mem_of_getElem? old)))
    · exact fun e member => all _ (List.mem_append_right _ (List.mem_map_of_mem member))
  · rintro ⟨reached, writers, peers⟩
    refine ⟨List.append_ne_nil_of_left_ne_nil ?_ _, fun s member => ?_⟩
    · exact List.ne_nil_of_mem (List.mem_map_of_mem (List.mem_of_getElem? here))
    · rcases List.mem_append.mp member with writer | peer
      · obtain ⟨other, inside, rfl⟩ := List.mem_map.mp writer
        obtain ⟨i, place⟩ := List.mem_iff_getElem?.mp inside
        rcases getElem?_set_some place with ⟨-, rfl⟩ | ⟨different, old⟩
        · exact reached
        · exact writers i other different old
      · obtain ⟨e, declared, rfl⟩ := List.mem_map.mp peer
        exact peers e declared

/-- The same of the board before the change. -/
theorem reached_iff (found : b.writers[w]? = some tracker) :
    some v ≤ b.globalCompletionTime ↔ some v ≤ tracker.completionTime ∧ b.OthersReached w v := by
  rw [← reached_set found tracker, set_of_getElem? found]

/-- A writer that does not go back does not take the board back. -/
theorem globalCompletionTime_le_set (found : b.writers[w]? = some tracker) {changed : Tracker}
    (le : tracker.completionTime ≤ changed.completionTime) :
    b.globalCompletionTime ≤
      globalCompletionTime { b with writers := b.writers.set w changed } := by
  refine Instant.le_of_reached fun v reached => ?_
  obtain ⟨here, others⟩ := (reached_iff found).mp reached
  exact (reached_set found changed).mpr ⟨Instant.reached_trans here le, others⟩

/-- Initiating a time opens it again for a writer that has closed it. -/
def Reopens (b : Board) (w : Nat) (t : Instant) : Prop :=
  ∃ tracker, b.writers[w]? = some tracker ∧ tracker.ClosedAt t

/-- A report of a peer does not take the board back. -/
theorem globalCompletionTime_le_insert {p : String} {t : Instant} {previous : Option Instant}
    (found : Keyed.find? p b.peers = some previous) (late : ∀ r, previous = some r → r ≤ t) :
    b.globalCompletionTime ≤
      globalCompletionTime { b with peers := Keyed.insert p (some t) b.peers } := by
  refine Instant.le_of_reached fun v reached => ?_
  rw [globalCompletionTime, some_le_lowest] at reached ⊢
  obtain ⟨-, all⟩ := reached
  have report : (p, some t) ∈ Keyed.insert p (some t) b.peers :=
    Keyed.mem_of_find? (Keyed.find?_insert_self p (some t) b.peers)
  refine ⟨List.append_ne_nil_of_right_ne_nil _ (List.ne_nil_of_mem (List.mem_map_of_mem report)),
    fun s member => ?_⟩
  rcases List.mem_append.mp member with writer | peer
  · exact all s (List.mem_append_left _ writer)
  · obtain ⟨e, inside, rfl⟩ := List.mem_map.mp peer
    rcases Keyed.mem_insert inside with rfl | old
    · have before : some v ≤ previous :=
        all _ (List.mem_append_right _ (List.mem_map_of_mem (Keyed.mem_of_find? found)))
      cases previous with
      | none => exact absurd before Option.not_some_le_none
      | some r =>
        exact Option.some_le_some.mpr (le_trans (Option.some_le_some.mp before) (late r rfl))
    · exact all _ (List.mem_append_right _ (List.mem_map_of_mem old))

/-- An opened time takes the board back from `t` to just before it, and from nowhere else. -/
theorem globalCompletionTime_reopened {t : Instant} (ordered : tracker.Ordered)
    (found : b.writers[w]? = some tracker) (closed : tracker.ClosedAt t) :
    globalCompletionTime { b with writers := b.writers.set w (tracker.add t) } =
      if b.globalCompletionTime = some t then t.stepBack else b.globalCompletionTime := by
  obtain ⟨last, empty⟩ := closed
  have before : tracker.completionTime = some t := by rw [Tracker.completionTime, empty, last]
  have after : (tracker.add t).completionTime = t.stepBack := by
    rw [Tracker.completionTime_add ordered fun u known => ?_, if_pos empty]
    exact le_of_eq (Option.some.inj (known.symm.trans last))
  refine Instant.eq_of_reached fun v => ?_
  rw [reached_set found, after]
  by_cases top : b.globalCompletionTime = some t
  · rw [if_pos top]
    refine ⟨And.left, fun below => ⟨below, ?_⟩⟩
    have reached : some v ≤ b.globalCompletionTime := by
      rw [top]
      exact Option.some_le_some.mpr (le_of_lt (Instant.some_le_stepBack.mp below))
    exact ((reached_iff found).mp reached).2
  · rw [if_neg top, reached_iff found, before, Instant.some_le_stepBack, Option.some_le_some]
    refine and_congr_left fun others => ⟨le_of_lt, fun le => lt_of_le_of_ne le ?_⟩
    -- otherwise all others have reached `t` too, and `t` were the global completion time
    rintro rfl
    refine top (Instant.eq_of_reached fun u => ?_)
    rw [reached_iff found, before]
    refine ⟨And.left, fun reached => ⟨reached, ?_, ?_⟩⟩
    · exact fun i other different there =>
        Instant.reached_trans reached (others.1 i other different there)
    · exact fun e declared => Instant.reached_trans reached (others.2 e declared)

/-- A writer that has initiated nothing hides the global completion time. -/
theorem globalCompletionTime_fresh (idle : b.writers[w]? = some Tracker.fresh) :
    b.globalCompletionTime = none := by
  rw [globalCompletionTime, lowest_eq_none]
  exact .inr (List.mem_append_left _ (List.mem_map.mpr ⟨_, List.mem_of_getElem? idle, rfl⟩))

/-- A writer stays as it is registered until it initiates a time. -/
theorem fresh_replay (idle : b.writers[w]? = some Tracker.fresh) {calls : List Call}
    (silent : initiatedTimes (b.accepted calls) w = []) :
    (b.replay calls).writers[w]? = some Tracker.fresh := by
  induction calls generalizing b with
  | nil => exact idle
  | cons c rest ih =>
    rw [accepted] at silent
    rw [replay, List.foldl_cons]
    cases made : b.call c with
    | mk next answer =>
      rw [made] at silent
      cases answer with
      | error v =>
        obtain rfl := call_refused made
        exact ih idle silent
      | ok done =>
        have inside : w < b.writers.length := (List.getElem?_eq_some_iff.mp idle).1
        cases step_of_ok made with
        | register =>
          refine ih ?_ silent
          rw [register, List.getElem?_append_left inside, idle]
        | @initiated w' t tracker found late =>
          have other : w' ≠ w := by
            rintro rfl
            simp [initiatedTimes] at silent
          refine ih ?_ ?_
          · rw [List.getElem?_set_ne other, idle]
          · simpa [initiatedTimes, other] using silent
        | @completed w' t tracker n found there =>
          have other : w' ≠ w := by
            rintro rfl
            rw [idle] at found
            cases found
            cases there
          refine ih ?_ ?_
          · rw [List.getElem?_set_ne other, idle]
          · simpa [initiatedTimes] using silent
        | external found late => exact ih idle (by simpa [initiatedTimes] using silent)

end Board

/-- After any calls, an accepted one takes the global completion time back only if it opens a
closed time `t` again, and then from `t` to just before it.  A new writer makes it unknown until
that writer has initiated a time. -/
theorem globalCompletionTime_regression (peers : List String) (calls : List Call) :
    let b := (Board.start peers).replay calls
    (∀ w t after, b.initiated w t = (after, .ok ()) →
        (¬ b.Reopens w t → b.globalCompletionTime ≤ after.globalCompletionTime) ∧
          (b.Reopens w t → after.globalCompletionTime =
            if b.globalCompletionTime = some t then t.stepBack else b.globalCompletionTime)) ∧
      (∀ w t after, b.completed w t = (after, .ok ()) →
        b.globalCompletionTime ≤ after.globalCompletionTime) ∧
      (∀ p t after, b.external p t = (after, .ok ()) →
        b.globalCompletionTime ≤ after.globalCompletionTime) ∧
      ∀ later, initiatedTimes (b.register.1.accepted later) b.register.2 = [] →
        (b.register.1.replay later).globalCompletionTime = none := by
  intro b
  have ordered : b.Ordered := Board.ordered_replay peers calls
  refine ⟨fun w t after accepted => ?_, fun w t after accepted => ?_, fun p t after accepted => ?_,
    fun later silent => ?_⟩
  · cases Board.step_of_ok (c := .announce (.initiated w t)) accepted with
    | @initiated _ _ tracker found late =>
      have here := ordered tracker (List.mem_of_getElem? found)
      constructor
      · intro notClosed
        exact Board.globalCompletionTime_le_set found
          (Tracker.completionTime_le_add here late fun closed => notClosed ⟨tracker, found, closed⟩)
      · rintro ⟨same, there, closed⟩
        obtain rfl := Option.some.inj (found.symm.trans there)
        exact Board.globalCompletionTime_reopened here found closed
  · cases Board.step_of_ok (c := .announce (.completed w t)) accepted with
    | @completed _ _ tracker n found there =>
      exact Board.globalCompletionTime_le_set found
        (Tracker.completionTime_le_remove (ordered tracker (List.mem_of_getElem? found)) t)
  · cases Board.step_of_ok (c := .announce (.external p t)) accepted with
    | external found late => exact Board.globalCompletionTime_le_insert found late
  · have idle : b.register.1.writers[b.register.2]? = some Tracker.fresh := by
      rw [Board.register, List.getElem?_append_right le_rfl, Nat.sub_self]
      rfl
    exact Board.globalCompletionTime_fresh (Board.fresh_replay idle silent)

example :
    let b := (Board.start []).replay [.register, .announce (.initiated 0 (Instant.ofMillis 20)),
      .announce (.completed 0 (Instant.ofMillis 20))]
    b.globalCompletionTime = some (Instant.ofMillis 20) ∧
      (b.initiated 0 (Instant.ofMillis 20)).1.globalCompletionTime =
        (Instant.ofMillis 20).stepBack := by decide

end PacedLoad.Watermark
