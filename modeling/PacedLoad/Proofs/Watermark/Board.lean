import Mathlib.Data.List.Induction
import PacedLoad.Proofs.Watermark.LowWatermark
import PacedLoad.Proofs.Watermark.Tracker
import PacedLoad.Watermark.Board

/-!
# Calls on a board

What an accepted call does to a board, and that a refused one does nothing.  As long as
fewer than 2^32 copies of one time are outstanding, a board stands for the state that has
every copy in a place of its own: both accept the same calls.
-/

namespace PacedLoad.Watermark

namespace Board

/-- A call changes the board in place and answers whether it is accepted. -/
def call (b : Board) : Call → Board × Except Violation Unit
  | .register => (b.register.1, .ok ())
  | .announce (.initiated w t) => b.initiated w t
  | .announce (.completed w t) => b.completed w t
  | .announce (.external p t) => b.external p t

def replay (b : Board) (calls : List Call) : Board := calls.foldl (fun b c => (b.call c).1) b

def accepted (b : Board) : List Call → List Call
  | [] => []
  | c :: rest =>
    match b.call c with
    | (next, .ok ()) => c :: next.accepted rest
    | (next, .error _) => next.accepted rest

variable {b after : Board} {c : Call}

theorem replay_append (b : Board) (first later : List Call) :
    b.replay (first ++ later) = (b.replay first).replay later :=
  List.foldl_append

theorem accepted_append (b : Board) (first later : List Call) :
    b.accepted (first ++ later) = b.accepted first ++ (b.replay first).accepted later := by
  induction first generalizing b with
  | nil => rfl
  | cons c rest ih =>
    have further := ih (b.call c).1
    rw [List.cons_append, accepted, accepted, replay, List.foldl_cons]
    rw [replay] at further
    cases made : b.call c with
    | mk next answer =>
      rw [made] at further
      cases answer <;> simp only [further, List.cons_append]

/-! ## One call -/

inductive Step (b : Board) : Call → Board → Prop
  | register : Step b .register b.register.1
  | initiated {w : Nat} {t : Instant} {tracker : Tracker} (found : b.writers[w]? = some tracker)
      (late : ∀ last, tracker.lastInitiated = some last → last ≤ t) :
      Step b (.announce (.initiated w t)) { b with writers := b.writers.set w (tracker.add t) }
  | completed {w : Nat} {t : Instant} {tracker : Tracker} {n : UInt32}
      (found : b.writers[w]? = some tracker) (there : tracker.outstanding.find? t = some n) :
      Step b (.announce (.completed w t))
        { b with writers :=
          b.writers.set w { tracker with outstanding := tracker.outstanding.remove t } }
  | external {p : String} {t : Instant} {previous : Option Instant}
      (found : Keyed.find? p b.peers = some previous) (late : ∀ r, previous = some r → r ≤ t) :
      Step b (.announce (.external p t))
        { b with peers := Keyed.insert p (some t) b.peers }

/-- A writer's call is accepted only by a registered writer, whose tracker it changes. -/
theorem withWriter_ok {w : Nat} {f : Tracker → Tracker × Except Violation Unit}
    (accepted : b.withWriter w f = (after, .ok ())) :
    ∃ tracker changed, b.writers[w]? = some tracker ∧ f tracker = (changed, .ok ()) ∧
      after = { b with writers := b.writers.set w changed } := by
  unfold withWriter at accepted
  cases found : b.writers[w]? with
  | none =>
    rw [found] at accepted
    cases accepted
  | some tracker =>
    rw [found] at accepted
    obtain ⟨rfl, answer⟩ := Prod.mk.inj accepted
    exact ⟨tracker, (f tracker).1, rfl, Prod.ext rfl answer, rfl⟩

/-- A refused call of one writer leaves its tracker where it was. -/
theorem withWriter_refused {w : Nat} {f : Tracker → Tracker × Except Violation Unit} {v : Violation}
    (keeps : ∀ tracker changed, f tracker = (changed, .error v) → changed = tracker)
    (refused : b.withWriter w f = (after, .error v)) : after = b := by
  unfold withWriter at refused
  cases found : b.writers[w]? with
  | none =>
    rw [found] at refused
    exact (Prod.mk.inj refused).1.symm
  | some tracker =>
    rw [found] at refused
    obtain ⟨rfl, answer⟩ := Prod.mk.inj refused
    have same := keeps tracker (f tracker).1 (Prod.ext rfl answer)
    change { b with writers := b.writers.set w (f tracker).1 } = b
    rw [same, set_of_getElem? found]

/-- An accepted call is one of the steps. -/
theorem step_of_ok (accepted : b.call c = (after, .ok ())) : b.Step c after := by
  cases c with
  | register =>
    cases accepted
    exact .register
  | announce e =>
    cases e with
    | initiated w t =>
      obtain ⟨tracker, changed, found, taken, rfl⟩ := withWriter_ok accepted
      obtain ⟨late, rfl⟩ := Tracker.initiated_ok.mp taken
      exact .initiated found late
    | completed w t =>
      obtain ⟨tracker, changed, found, taken, rfl⟩ := withWriter_ok accepted
      obtain ⟨⟨n, there⟩, rfl⟩ := Tracker.completed_ok.mp taken
      exact .completed found there
    | external p t =>
      simp only [call, external] at accepted
      split at accepted
      next => cases accepted
      next previous found =>
        split at accepted
        next => cases accepted
        next forward =>
          cases accepted
          refine .external found fun r reported => le_of_not_gt fun early => forward ?_
          rw [reported, Option.any_some]
          exact decide_eq_true early

/-- Each of the steps is an accepted call. -/
theorem ok_of_step (step : b.Step c after) : b.call c = (after, .ok ()) := by
  cases step with
  | register => rfl
  | initiated found late =>
    simp only [call, initiated, withWriter, found, Tracker.initiated_ok.mpr ⟨late, rfl⟩]
  | completed found there =>
    simp only [call, completed, withWriter, found, Tracker.completed_ok.mpr ⟨⟨_, there⟩, rfl⟩]
  | @external p t previous found late =>
    have forward : previous.any (t < ·) = false := by
      cases previous with
      | none => rfl
      | some r => exact decide_eq_false (not_lt_of_ge (late r rfl))
    simp only [call, external, found, forward, Bool.false_eq_true, if_false]

/-- A call is accepted exactly if there is a step for it. -/
theorem accepted_iff : (b.call c).2 = .ok () ↔ ∃ after, b.Step c after :=
  ⟨fun answer => ⟨_, step_of_ok (Prod.ext rfl answer)⟩,
    fun ⟨_, step⟩ => congrArg Prod.snd (ok_of_step step)⟩

/-- A refused call leaves the board as it is. -/
theorem call_refused {v : Violation} (refused : b.call c = (after, .error v)) : after = b := by
  cases c with
  | register => cases refused
  | announce e =>
    cases e with
    | initiated w t => exact withWriter_refused (fun _ _ => Tracker.initiated_refused) refused
    | completed w t => exact withWriter_refused (fun _ _ => Tracker.completed_refused) refused
    | external p t =>
      simp only [call, external] at refused
      split at refused
      next => cases refused; rfl
      next =>
        split at refused <;> cases refused
        rfl

/-! ## The order of the times -/

/-- The trackers of all writers keep their times in order. -/
def Ordered (b : Board) : Prop := ∀ tracker ∈ b.writers, tracker.Ordered

theorem Ordered.step (ordered : b.Ordered) (step : b.Step c after) : after.Ordered := by
  cases step with
  | register =>
    intro tracker member
    rcases List.mem_append.mp member with old | new
    · exact ordered tracker old
    · exact List.mem_singleton.mp new ▸ .fresh
  | initiated found late =>
    intro tracker member
    rcases List.mem_or_eq_of_mem_set member with old | rfl
    · exact ordered tracker old
    · exact (ordered _ (List.mem_of_getElem? found)).add late
  | completed found there =>
    intro tracker member
    rcases List.mem_or_eq_of_mem_set member with old | rfl
    · exact ordered tracker old
    · exact (ordered _ (List.mem_of_getElem? found)).remove _
  | external found late => exact ordered

/-- What accepted calls keep is true after any calls. -/
theorem replay_induct {P : Board → Prop} (step : ∀ b c after, P b → b.Step c after → P after)
    (holds : P b) (calls : List Call) : P (b.replay calls) := by
  induction calls generalizing b with
  | nil => exact holds
  | cons c rest ih =>
    rw [replay, List.foldl_cons]
    refine ih ?_
    cases made : b.call c with
    | mk next answer =>
      cases answer with
      | ok done => exact step b c next holds (step_of_ok made)
      | error v => exact call_refused made ▸ holds

/-- No call takes a writer away. -/
theorem length_le_replay (b : Board) (calls : List Call) :
    b.writers.length ≤ (b.replay calls).writers.length := by
  refine replay_induct (P := fun after => b.writers.length ≤ after.writers.length) ?_
    (Nat.le_refl _) calls
  intro before c after le step
  cases step with
  | register => exact Nat.le_trans le (by simp [register])
  | initiated | completed => simpa using le
  | external => exact le

theorem ordered_replay (peers : List String) (calls : List Call) :
    ((start peers).replay calls).Ordered :=
  replay_induct (fun _ _ _ ordered step => ordered.step step) (fun _ member => nomatch member) calls

/-! ## The state that a board stands for -/

/-- No tracker keeps a time without copies. -/
def Positive (b : Board) : Prop := ∀ tracker ∈ b.writers, tracker.outstanding.Positive

/-- The state with every copy in a place of its own. -/
def plain (b : Board) : State := ⟨b.writers.map Tracker.plain, b.peers⟩

@[simp] theorem plain_peers : b.plain.peers = b.peers := rfl

theorem plain_writer {w : Nat} {tracker : Tracker} (found : b.writers[w]? = some tracker) :
    b.plain.writers[w]? = some tracker.plain := by
  rw [plain, List.getElem?_map, found]
  rfl

/-- One copy more of a time that a call initiates still fits. -/
def Room (b : Board) (c : Call) : Prop :=
  ∀ w t tracker, c = .announce (.initiated w t) → b.writers[w]? = some tracker →
    (∀ last, tracker.lastInitiated = some last → last ≤ t) →
      tracker.plain.outstanding.count t + 1 < 4294967296

theorem room_register (b : Board) : b.Room .register := by
  intro w t tracker same
  cases same

theorem Positive.step (positive : b.Positive) (room : b.Room c) (step : b.Step c after) :
    after.Positive := by
  cases step with
  | register =>
    intro tracker member
    rcases List.mem_append.mp member with old | new
    · exact positive tracker old
    · rw [List.mem_singleton.mp new]
      exact nofun
  | initiated found late =>
    intro tracker member
    rcases List.mem_or_eq_of_mem_set member with old | rfl
    · exact positive tracker old
    · exact (positive _ (List.mem_of_getElem? found)).add (room _ _ _ rfl found late)
  | completed found there =>
    intro tracker member
    rcases List.mem_or_eq_of_mem_set member with old | rfl
    · exact positive tracker old
    · exact (positive _ (List.mem_of_getElem? found)).remove _
  | external found late => exact positive

/-- A writer's call does the same to a tracker and to the writer that it stands for. -/
theorem plain_withWriter {w : Nat} {f : Tracker → Tracker × Except Violation Unit}
    {f' : Writer → Except Violation Writer}
    (same : ∀ tracker, b.writers[w]? = some tracker →
      f' tracker.plain = (f tracker).2.map fun _ => (f tracker).1.plain) :
    b.plain.withWriter w f' =
      (b.withWriter w f).2.map fun _ => (b.withWriter w f).1.plain := by
  unfold State.withWriter withWriter
  have looked : b.plain.writers[w]? = b.writers[w]?.map Tracker.plain := List.getElem?_map
  rw [looked]
  cases found : b.writers[w]? with
  | none => rfl
  | some tracker =>
    simp only [Option.map_some, same tracker found]
    cases (f tracker).2 with
    | error v => rfl
    | ok done =>
      refine congrArg Except.ok ?_
      simp only [plain, List.map_set]

/-- Board and state accept the same calls and stay together, and refuse for the same reasons. -/
theorem plain_call (ordered : b.Ordered) (positive : b.Positive) (room : b.Room c) :
    b.plain.accept c = (b.call c).2.map fun _ => (b.call c).1.plain := by
  cases c with
  | register =>
    refine congrArg Except.ok ?_
    simp only [State.register, plain, call, register, List.map_append, List.map_singleton]
    rfl
  | announce e =>
    cases e with
    | initiated w t =>
      refine plain_withWriter fun tracker found => ?_
      exact Tracker.plain_initiated (ordered tracker (List.mem_of_getElem? found))
        (room w t tracker rfl found)
    | completed w t =>
      refine plain_withWriter fun tracker found => ?_
      exact Tracker.plain_completed (positive tracker (List.mem_of_getElem? found)) t
    | external p t =>
      change b.plain.external p t = (b.external p t).2.map fun _ => (b.external p t).1.plain
      unfold State.external external
      rw [plain_peers]
      cases Keyed.find? p b.peers with
      | none => rfl
      | some previous =>
        simp only
        split <;> rfl

end Board

namespace State

theorem replay_append (s : State) (first later : List Call) :
    s.replay (first ++ later) = (s.replay first).replay later := by
  induction first generalizing s with
  | nil => rfl
  | cons c rest ih =>
    rw [List.cons_append, replay, replay]
    cases s.accept c with
    | error v => exact ih s
    | ok next => exact ih next

theorem accepted_append (s : State) (first later : List Call) :
    s.accepted (first ++ later) = s.accepted first ++ (s.replay first).accepted later := by
  induction first generalizing s with
  | nil => rfl
  | cons c rest ih =>
    rw [List.cons_append, accepted, accepted, replay]
    cases s.accept c with
    | error v => exact ih s
    | ok next => exact congrArg (c :: ·) (ih next)

end State

/-- After each of several calls fewer than 2^32 copies of one time are outstanding. -/
def FewCopies (peers : List String) (calls : List Call) : Prop :=
  ∀ before, before <+: calls → ∀ w t,
    copiesLeft ((Board.start peers).accepted before) w t < 4294967296

/-- Fewer calls than 2^32 leave fewer copies. -/
theorem fewCopies_of_length {peers : List String} {calls : List Call}
    (short : calls.length < 4294967296) : FewCopies peers calls := by
  have fewer : ∀ (calls : List Call) (b : Board), (b.accepted calls).length ≤ calls.length := by
    intro calls
    induction calls with
    | nil => exact fun _ => Nat.le_refl 0
    | cons c rest ih =>
      intro b
      rw [Board.accepted]
      split
      · exact Nat.succ_le_succ (ih _)
      · exact Nat.le_succ_of_le (ih _)
  intro before earlier w t
  have counted : copiesLeft ((Board.start peers).accepted before) w t ≤ before.length :=
    calc copiesLeft ((Board.start peers).accepted before) w t
        ≤ (initiatedTimes ((Board.start peers).accepted before) w).count t := Nat.sub_le _ _
      _ ≤ (initiatedTimes ((Board.start peers).accepted before) w).length := List.count_le_length
      _ ≤ ((Board.start peers).accepted before).length := List.length_filterMap_le _ _
      _ ≤ before.length := fewer before _
  exact Nat.lt_of_le_of_lt (Nat.le_trans counted earlier.length_le) short

theorem FewCopies.of_prefix {peers : List String} {calls earlier : List Call}
    (few : FewCopies peers calls) (first : earlier <+: calls) : FewCopies peers earlier :=
  fun before part => few before (part.trans first)

/-- After each of several calls fewer than 2^32 copies of one time are outstanding at each of those
writers that are `mine`. -/
def FewCopiesAt (mine : Nat → Bool) (peers : List String) (calls : List Call) : Prop :=
  ∀ before, before <+: calls → ∀ w, mine w = true → ∀ t,
    copiesLeft ((Board.start peers).accepted before) w t < 4294967296

theorem FewCopies.at {peers : List String} {calls : List Call} (few : FewCopies peers calls)
    (mine : Nat → Bool) : FewCopiesAt mine peers calls := fun before part w _ => few before part w

theorem FewCopiesAt.of_prefix {mine : Nat → Bool} {peers : List String} {calls earlier : List Call}
    (few : FewCopiesAt mine peers calls) (first : earlier <+: calls) :
    FewCopiesAt mine peers earlier := fun before part => few before (part.trans first)

/-- An initiated time is one copy more than the writer has outstanding. -/
theorem Writer.Recorded.copiesLeft_initiated {h : List Call} {w : Nat} {writer : Writer}
    (recorded : writer.Recorded h w) (t : Instant) :
    Watermark.copiesLeft (h ++ [.announce (.initiated w t)]) w t =
      writer.outstanding.count t + 1 := by
  have balance := recorded.balance t
  unfold Watermark.copiesLeft
  simp only [initiatedTimes, completedTimes, List.filterMap_append, List.count_append] at balance ⊢
  simp only [List.filterMap_cons, List.filterMap_nil, if_true, List.count_nil,
    List.count_singleton_self]
  omega

namespace Board

variable {b : Board} {c : Call} {peers : List String} {calls : List Call}

/-- One call on both. -/
theorem plain_single (ordered : b.Ordered) (positive : b.Positive) (room : b.Room c) :
    (b.replay [c]).Positive ∧ (b.replay [c]).plain = b.plain.replay [c] ∧
      b.accepted [c] = b.plain.accepted [c] := by
  have together := plain_call ordered positive room
  simp only [replay, List.foldl_cons, List.foldl_nil, accepted, State.replay, State.accepted,
    together]
  cases made : b.call c with
  | mk next answer =>
    cases answer with
    | error v =>
      obtain rfl := call_refused made
      exact ⟨positive, rfl, rfl⟩
    | ok done => exact ⟨positive.step room (step_of_ok made), rfl, rfl⟩

/-- Few copies leave room for the next call. -/
theorem room_of_few (few : FewCopies peers (calls ++ [c]))
    (recorded : Recorded peers ((start peers).accepted calls)
      ((start peers).replay calls).plain) : ((start peers).replay calls).Room c := by
  rintro w t tracker rfl found late
  have taken : ((start peers).replay calls).accepted [.announce (.initiated w t)] =
      [.announce (.initiated w t)] := by
    rw [accepted, ok_of_step (.initiated found late)]
    rfl
  have copies := few _ (List.prefix_refl _) w t
  rw [accepted_append, taken,
    (recorded.writer w _ (plain_writer found)).copiesLeft_initiated] at copies
  exact copies

/-- As long as the copies of a time fit, a board stands for the state after the same calls, and
the same of them are accepted. -/
theorem plain_replay (few : FewCopies peers calls) :
    ((start peers).replay calls).Positive ∧
      ((start peers).replay calls).plain = (State.start peers).replay calls ∧
      (start peers).accepted calls = (State.start peers).accepted calls := by
  induction calls using List.reverseRecOn with
  | nil => exact ⟨nofun, rfl, rfl⟩
  | append_singleton calls c ih =>
    obtain ⟨positive, same, alike⟩ :=
      ih (few.of_prefix (List.prefix_append calls [c]))
    have recorded : Recorded peers ((start peers).accepted calls)
        ((start peers).replay calls).plain := by
      rw [same, alike]
      simpa using (recorded_start peers).replay calls
    have next := plain_single (ordered_replay peers calls) positive (room_of_few few recorded)
    rwa [replay_append, accepted_append, State.replay_append, State.accepted_append, ← same,
      alike, List.append_cancel_left_eq]

/-- As long as the copies of a time fit, a board holds what the accepted calls have left. -/
theorem recorded_of_few (few : FewCopies peers calls) :
    Recorded peers ((start peers).accepted calls) ((start peers).replay calls).plain := by
  obtain ⟨-, same, alike⟩ := plain_replay few
  rw [same, alike]
  simpa using (recorded_start peers).replay calls

/-- A board and the state that it stands for show the same time. -/
theorem plain_globalCompletionTime (positive : b.Positive) :
    b.plain.globalCompletionTime = b.globalCompletionTime := by
  have times : b.plain.writers.map Writer.completionTime =
      b.writers.map Tracker.completionTime := by
    rw [plain, List.map_map]
    exact List.map_congr_left fun tracker member =>
      Tracker.plain_completionTime (positive tracker member)
  rw [State.globalCompletionTime, State.sources, times]
  rfl

/-- Nothing is known before the first call. -/
theorem globalCompletionTime_start (peers : List String) :
    (start peers).globalCompletionTime = none :=
  (plain_globalCompletionTime (b := start peers) nofun).symm.trans
    (State.globalCompletionTime_start peers)

/-! ## Events -/

/-- An announcement is a call on the board. -/
theorem apply_eq (b : Board) (e : Event) :
    Bookkeeping.apply b e = (b.call (.announce e)).2.map fun _ => (b.call (.announce e)).1 := by
  have kept (r : Board × Except Violation Unit) : Board.apply.kept r = r.2.map fun _ => r.1 := by
    rcases r with ⟨after, _ | ⟨⟨⟩⟩⟩ <;> rfl
  cases e <;> exact kept _

/-- The worker takes an event exactly if the call is accepted. -/
theorem apply_ok {b : Board} {e : Event} :
    (∃ after, Bookkeeping.apply b e = .ok after) ↔ (b.call (.announce e)).2 = .ok () := by
  rw [apply_eq]
  rcases b.call (.announce e) with ⟨after, _ | ⟨⟨⟩⟩⟩ <;> simp [Except.map]

theorem step_of_apply {e : Event} (applied : Bookkeeping.apply b e = .ok after) :
    b.Step (.announce e) after := by
  rw [apply_eq] at applied
  cases made : b.call (.announce e) with
  | mk next answer =>
    rw [made] at applied
    cases answer with
    | error v => cases applied
    | ok done =>
      cases applied
      exact step_of_ok made

/-- An event registers nobody. -/
theorem apply_writers {e : Event} (applied : Bookkeeping.apply b e = .ok after) :
    after.writers.length = b.writers.length := by
  cases step_of_apply applied with
  | initiated | completed => exact List.length_set
  | external => rfl

/-- The state that a board stands for accepts the same events. -/
theorem apply_plain {e : Event} (ordered : b.Ordered) (positive : b.Positive)
    (room : b.Room (.announce e)) :
    Bookkeeping.apply b.plain e = (Bookkeeping.apply b e).map plain := by
  rw [apply_eq]
  refine (plain_call ordered positive room).trans ?_
  cases (b.call (.announce e)).2 <;> rfl

end Board

instance : LawfulBookkeeping Board where
  writers b := b.writers.length
  writers_start _ := rfl
  writers_register _ := List.length_append
  writers_apply := Board.apply_writers
  number_register _ := rfl
  unknown_start := Board.globalCompletionTime_start

end PacedLoad.Watermark
