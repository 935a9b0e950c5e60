import PacedLoad.Proofs.Watermark.History

/-!
# The order of independent events

Writers and peers do not wait for each other, so that their events reach the
coordinator in any order that keeps the order of each of them.  An event reads and
changes only the part of the state that belongs to its source.  Whether some event is
refused, and what the state is in the end, therefore depends on the events of each
source and not on the order in which they arrive.
-/

namespace PacedLoad.Watermark

inductive Source
  | writer (w : Nat)
  | peer (p : String)
deriving DecidableEq, Repr

def Event.source : Event → Source
  | .initiated w _ => .writer w
  | .completed w _ => .writer w
  | .external p _ => .peer p

def ofSource (source : Source) (events : List Event) : List Event :=
  events.filter fun e => e.source = source

/-- The events are those that each source sends, each source's in its own order. -/
def Interleaves (sent : Source → List Event) (events : List Event) : Prop :=
  ∀ source, ofSource source events = sent source

/-- What a state holds of one source: a writer, or the last report of a peer; nothing when the
source is unknown. -/
inductive Part
  | writer (w : Option Writer)
  | peer (report : Option (Option Instant))
deriving DecidableEq, Repr

namespace State

def part (s : State) : Source → Part
  | .writer w => .writer s.writers[w]?
  | .peer p => .peer (Keyed.find? p s.peers)

/-- The state after several events, of which refused ones change nothing. -/
def announced (s : State) (events : List Event) : State := s.replay (events.map .announce)

/-- One of several events is refused when it arrives. -/
def Refuses (s : State) (events : List Event) : Prop :=
  ∃ before e rest v, events = before ++ e :: rest ∧
    Coordinator.apply (s.announced before) e = .error v

/-- Events of which none is refused, with the state after them. -/
inductive Accepts : State → List Event → State → Prop
  | nil (s : State) : Accepts s [] s
  | cons {s next after : State} {e : Event} {rest : List Event}
      (here : Coordinator.apply s e = .ok next) (later : Accepts next rest after) :
      Accepts s (e :: rest) after

variable {s next after : State} {e : Event} {events : List Event}

theorem announced_cons_ok (accepted : Coordinator.apply s e = .ok next) (events : List Event) :
    s.announced (e :: events) = next.announced events := by
  simp [announced, replay, accept, accepted]

theorem Accepts.announced (accepts : Accepts s events after) : s.announced events = after := by
  induction accepts with
  | nil s => rfl
  | cons here later ih => rw [announced_cons_ok here, ih]

theorem Accepts.not_refuses (accepts : Accepts s events after) : ¬ s.Refuses events := by
  rintro ⟨before, e, rest, v, rfl, refused⟩
  induction before generalizing s with
  | nil =>
    cases accepts with
    | cons here later => cases here.symm.trans refused
  | cons first before ih =>
    cases accepts with
    | cons here later =>
      rw [announced_cons_ok here] at refused
      exact ih refused later

/-- Events of which none is refused are all accepted. -/
theorem accepts_of_not_refuses (fine : ¬ s.Refuses events) :
    Accepts s events (s.announced events) := by
  induction events generalizing s with
  | nil => exact .nil s
  | cons e rest ih =>
    cases applied : Coordinator.apply s e with
    | error v => exact absurd ⟨[], e, rest, v, rfl, applied⟩ fine
    | ok next =>
      rw [announced_cons_ok applied]
      refine .cons applied (ih ?_)
      rintro ⟨before, e', rest', v, rfl, refused⟩
      exact fine ⟨e :: before, e', rest', v, rfl, by rwa [announced_cons_ok applied]⟩

/-! ## What one event reads and changes -/

/-- An event leaves the parts of all other sources alone. -/
theorem part_of_other (accepted : Coordinator.apply s e = .ok next) {source : Source}
    (other : e.source ≠ source) : next.part source = s.part source := by
  cases e with
  | initiated w t | completed w t =>
    obtain ⟨writer, changed, -, -, rfl⟩ := withWriter_ok.mp accepted
    cases source with
    | writer w' =>
      have different : w ≠ w' := fun same => other (congrArg Source.writer same)
      simp [part, different]
    | peer p => rfl
  | external p t =>
    obtain ⟨previous, -, -, rfl⟩ := external_ok.mp accepted
    cases source with
    | writer w => rfl
    | peer p' =>
      have different : p' ≠ p := fun same => other (congrArg Source.peer same.symm)
      simp [part, Keyed.find?_insert_of_ne different]

/-- States that agree about the source of an event accept it alike, and agree about that source
afterwards. -/
theorem apply_congr {s' : State} (same : s.part e.source = s'.part e.source)
    (accepted : Coordinator.apply s e = .ok next) :
    ∃ next', Coordinator.apply s' e = .ok next' ∧
      next.part e.source = next'.part e.source := by
  cases e with
  | initiated w t | completed w t =>
    obtain ⟨writer, changed, found, taken, rfl⟩ := withWriter_ok.mp accepted
    have found' : s'.writers[w]? = some writer := (Part.writer.inj same).symm.trans found
    refine ⟨_, withWriter_ok.mpr ⟨writer, changed, found', taken, rfl⟩, ?_⟩
    have inside := (List.getElem?_eq_some_iff.mp found).1
    have inside' := (List.getElem?_eq_some_iff.mp found').1
    simp [part, Event.source, inside, inside']
  | external p t =>
    obtain ⟨previous, found, late, rfl⟩ := external_ok.mp accepted
    have found' : Keyed.find? p s'.peers = some previous := (Part.peer.inj same).symm.trans found
    refine ⟨_, external_ok.mpr ⟨previous, found', late, rfl⟩, ?_⟩
    simp [part, Event.source, Keyed.find?_insert_self]

/-- An accepted event keeps the peers in order. -/
theorem sorted_of_apply (accepted : Coordinator.apply s e = .ok next)
    (sorted : Keyed.Sorted s.peers) : Keyed.Sorted next.peers := by
  cases e with
  | initiated w t | completed w t =>
    obtain ⟨writer, changed, -, -, rfl⟩ := withWriter_ok.mp accepted
    exact sorted
  | external p t =>
    obtain ⟨previous, -, -, rfl⟩ := external_ok.mp accepted
    exact Keyed.sorted_insert sorted p (some t)

/-- A state is determined by its parts. -/
theorem eq_of_parts {s' : State} (sorted : Keyed.Sorted s.peers) (sorted' : Keyed.Sorted s'.peers)
    (same : ∀ source, s.part source = s'.part source) : s = s' := by
  have writers : s.writers = s'.writers :=
    List.ext_getElem? fun w => Part.writer.inj (same (.writer w))
  have peers : s.peers = s'.peers :=
    Keyed.eq_of_find? sorted sorted' fun p => Part.peer.inj (same (.peer p))
  cases s
  cases s'
  cases writers
  cases peers
  rfl

/-! ## What several events read and change -/

theorem Accepts.sorted (accepts : Accepts s events after) (sorted : Keyed.Sorted s.peers) :
    Keyed.Sorted after.peers := by
  induction accepts with
  | nil s => exact sorted
  | cons here later ih => exact ih (sorted_of_apply here sorted)

/-- What becomes of one source is decided by its own events, in any state that agrees about it. -/
theorem Accepts.alone (accepts : Accepts s events after) {s' : State} {source : Source}
    (same : s.part source = s'.part source) :
    ∃ after', Accepts s' (ofSource source events) after' ∧
      after.part source = after'.part source := by
  induction accepts generalizing s' with
  | nil s => exact ⟨s', .nil s', same⟩
  | @cons s next after e rest here later ih =>
    by_cases own : e.source = source
    · subst own
      obtain ⟨next', here', same'⟩ := apply_congr same here
      obtain ⟨after', later', ended⟩ := ih same'
      refine ⟨after', ?_, ended⟩
      simpa [ofSource] using Accepts.cons here' later'
    · have unread : ofSource source (e :: rest) = ofSource source rest := by
        simp [ofSource, own]
      rw [unread]
      exact ih ((part_of_other here own).trans same)

/-- If each source's own events are accepted, all events are. -/
theorem accepts_of_alone (alone : ∀ source, ∃ after, Accepts s (ofSource source events) after) :
    ∃ after, Accepts s events after := by
  induction events generalizing s with
  | nil => exact ⟨s, .nil s⟩
  | cons e rest ih =>
    have own : ofSource e.source (e :: rest) = e :: ofSource e.source rest := by simp [ofSource]
    obtain ⟨last, accepts⟩ := alone e.source
    rw [own] at accepts
    cases accepts with
    | @cons _ next _ _ _ here later =>
      -- after the first event its source goes on from the new state, all others from the old one
      obtain ⟨after, accepts⟩ : ∃ after, Accepts next rest after := by
        refine ih fun source => ?_
        by_cases same : e.source = source
        · exact same ▸ ⟨last, later⟩
        · obtain ⟨after, accepts⟩ := alone source
          have unread : ofSource source (e :: rest) = ofSource source rest := by
            simp [ofSource, same]
          obtain ⟨after', accepts', -⟩ := accepts.alone (part_of_other here same).symm
          rw [unread] at accepts'
          exact ⟨after', by simpa [ofSource, List.filter_filter] using accepts'⟩
      exact ⟨after, .cons here accepts⟩

/-- Of two orders of the same events, one is accepted if the other is, and both lead to the same
state. -/
theorem Accepts.reorder {sent : Source → List Event} {first second : List Event}
    (sorted : Keyed.Sorted s.peers) (one : Interleaves sent first) (other : Interleaves sent second)
    (accepts : Accepts s first after) : Accepts s second after := by
  have alike : ∀ source, ofSource source second = ofSource source first := fun source =>
    (other source).trans (one source).symm
  obtain ⟨after', accepts'⟩ : ∃ after', Accepts s second after' := by
    refine accepts_of_alone fun source => ?_
    obtain ⟨last, own, -⟩ := accepts.alone (rfl : s.part source = s.part source)
    rw [alike]
    exact ⟨last, own⟩
  have ended : after' = after := by
    refine eq_of_parts (accepts'.sorted sorted) (accepts.sorted sorted) fun source => ?_
    obtain ⟨last, own, same⟩ := accepts.alone (rfl : s.part source = s.part source)
    obtain ⟨last', own', same'⟩ := accepts'.alone (rfl : s.part source = s.part source)
    rw [alike] at own'
    rw [same, same', ← own.announced, ← own'.announced]
  exact ended ▸ accepts'

end State

/-- Any two orders in which the events of some writers and peers can arrive, each source's own in
its order: either some event is refused in both, or none is in either and both leave every writer
with the same completion time, and the same global completion time. -/
theorem globalCompletionTime_interleaved (peers : List String) (calls : List Call)
    (sent : Source → List Event) (first second : List Event) (one : Interleaves sent first)
    (other : Interleaves sent second) :
    let s := (State.start peers).replay calls
    (s.Refuses first ∧ s.Refuses second) ∨
      (¬ s.Refuses first ∧ ¬ s.Refuses second ∧
        (∀ w : Nat, (s.announced first).writers[w]?.map Writer.completionTime =
          (s.announced second).writers[w]?.map Writer.completionTime) ∧
        (s.announced first).globalCompletionTime = (s.announced second).globalCompletionTime) := by
  intro s
  have sorted : Keyed.Sorted s.peers := ((recorded_start peers).replay calls).sorted
  by_cases refused : s.Refuses first
  · refine .inl ⟨refused, ?_⟩
    by_contra fine
    exact ((State.accepts_of_not_refuses fine).reorder sorted other one).not_refuses refused
  · have reordered := (State.accepts_of_not_refuses refused).reorder sorted one other
    have same : s.announced second = s.announced first := reordered.announced
    refine .inr ⟨refused, reordered.not_refuses, fun w => ?_, ?_⟩
    · rw [same]
    · rw [same]

/-- One writer completes a start time and takes it up again, while a second writer and a peer go
on. -/
def reopening : List Event :=
  [.initiated 0 (.ofMillis 5), .initiated 1 (.ofMillis 7), .completed 0 (.ofMillis 5),
    .external "p" (.ofMillis 9), .initiated 0 (.ofMillis 5), .completed 1 (.ofMillis 7)]

/-- The same events with those of the first writer behind all others. -/
def reopeningLate : List Event :=
  [.external "p" (.ofMillis 9), .initiated 1 (.ofMillis 7), .completed 1 (.ofMillis 7),
    .initiated 0 (.ofMillis 5), .completed 0 (.ofMillis 5), .initiated 0 (.ofMillis 5)]

theorem interleaves_reopeningLate :
    Interleaves (fun source => ofSource source reopening) reopeningLate := by
  rintro (w | p)
  · match w with
    | 0 => decide
    | 1 => decide
    | w + 2 => simp [ofSource, reopening, reopeningLate, Event.source]
  · by_cases own : "p" = p <;> simp [ofSource, reopening, reopeningLate, Event.source, own]

theorem globalCompletionTime_interleaved_reopening :
    let s := (State.start ["p"]).replay [.register, .register]
    let sent := fun source => ofSource source reopening
    Interleaves sent reopening ∧ Interleaves sent reopeningLate ∧
      ((s.Refuses reopening ∧ s.Refuses reopeningLate) ∨
        (¬ s.Refuses reopening ∧ ¬ s.Refuses reopeningLate ∧
          (∀ w : Nat, (s.announced reopening).writers[w]?.map Writer.completionTime =
            (s.announced reopeningLate).writers[w]?.map Writer.completionTime) ∧
          (s.announced reopening).globalCompletionTime =
            (s.announced reopeningLate).globalCompletionTime)) ∧
      (s.announced reopening).globalCompletionTime = (Instant.ofMillis 5).stepBack := by
  intro s sent
  have here : Interleaves sent reopening := fun _ => rfl
  exact ⟨here, interleaves_reopeningLate,
    globalCompletionTime_interleaved ["p"] [.register, .register] sent reopening reopeningLate here
      interleaves_reopeningLate, by decide⟩

end PacedLoad.Watermark
