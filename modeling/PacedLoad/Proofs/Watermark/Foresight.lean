import PacedLoad.Proofs.Watermark.Service

/-!
# What a queue will make of the writers

The writers that the worker will own once it has taken all messages of a queue.
Reports of peers do not touch them.  What is outstanding then is outstanding now
or still has to be announced, and what has to be announced is not below what was
announced before.
-/

namespace PacedLoad.Watermark

/-- The writers after a message; nothing when a writer refuses it. -/
def attend (ws : List Writer) : Letter → Option (List Writer)
  | .event (.external ..) => some ws
  | m => (Bookkeeping.heed (⟨ws, []⟩ : State) m).map State.writers

/-- The writers after all messages of a queue. -/
def foresee (ws : List Writer) : List Letter → Option (List Writer)
  | [] => some ws
  | m :: rest => (attend ws m).bind fun vs => foresee vs rest

theorem foresee_append (ws : List Writer) (first second : List Letter) :
    foresee ws (first ++ second) = (foresee ws first).bind fun vs => foresee vs second := by
  induction first generalizing ws with
  | nil => rfl
  | cons m rest ih =>
    simp only [List.cons_append, foresee]
    cases attend ws m with
    | none => rfl
    | some vs => exact ih vs

theorem foresee_single (ws : List Writer) (m : Letter) : foresee ws [m] = attend ws m := by
  simp only [foresee]
  cases attend ws m <;> rfl

theorem attend_initiated {ws vs : List Writer} {w : Nat} {t : Instant} :
    attend ws (.event (.initiated w t)) = some vs ↔
      ∃ writer, ws[w]? = some writer ∧ (∀ last, writer.lastInitiated = some last → last ≤ t) ∧
        vs = ws.set w (writer.add t) := by
  simp only [attend, Option.map_eq_some_iff, State.heed_event, Coordinator.apply, State.initiated,
    State.withWriter_ok, Writer.initiated_ok]
  constructor
  · rintro ⟨s, ⟨writer, changed, found, ⟨late, rfl⟩, rfl⟩, rfl⟩
    exact ⟨writer, found, late, rfl⟩
  · rintro ⟨writer, found, late, rfl⟩
    exact ⟨_, ⟨writer, _, found, ⟨late, rfl⟩, rfl⟩, rfl⟩

theorem attend_completed {ws vs : List Writer} {w : Nat} {t : Instant} :
    attend ws (.event (.completed w t)) = some vs ↔
      ∃ writer, ws[w]? = some writer ∧ t ∈ writer.outstanding ∧
        vs = ws.set w { writer with outstanding := writer.outstanding.erase t } := by
  simp only [attend, Option.map_eq_some_iff, State.heed_event, Coordinator.apply, State.completed,
    State.withWriter_ok, Writer.completed_ok]
  constructor
  · rintro ⟨s, ⟨writer, changed, found, ⟨member, rfl⟩, rfl⟩, rfl⟩
    exact ⟨writer, found, member, rfl⟩
  · rintro ⟨writer, found, member, rfl⟩
    exact ⟨_, ⟨writer, _, found, ⟨member, rfl⟩, rfl⟩, rfl⟩

theorem attend_register (ws : List Writer) (ticket : Nat) :
    attend ws (.request .register ticket) = some (ws ++ [Writer.fresh]) := rfl

/-- The state makes of its writers what is attended to. -/
theorem attend_of_heed {s after : State} {m : Letter}
    (heeded : Bookkeeping.heed s m = some after) : attend s.writers m = some after.writers := by
  cases m with
  | event e =>
    rw [State.heed_event] at heeded
    cases e with
    | initiated w t =>
      obtain ⟨writer, changed, found, taken, rfl⟩ := State.withWriter_ok.mp heeded
      obtain ⟨late, rfl⟩ := Writer.initiated_ok.mp taken
      exact attend_initiated.mpr ⟨writer, found, late, rfl⟩
    | completed w t =>
      obtain ⟨writer, changed, found, taken, rfl⟩ := State.withWriter_ok.mp heeded
      obtain ⟨member, rfl⟩ := Writer.completed_ok.mp taken
      exact attend_completed.mpr ⟨writer, found, member, rfl⟩
    | external p t =>
      obtain ⟨previous, -, -, rfl⟩ := State.external_ok.mp heeded
      rfl
  | request r ticket =>
    cases r <;> cases heeded <;> rfl
  | terminate n =>
    cases heeded
    rfl

/-- Only a report of a peer can be refused although the writers do not mind. -/
theorem heed_of_attend {s : State} {m : Letter} {vs : List Writer}
    (attended : attend s.writers m = some vs) :
    (∃ after, Bookkeeping.heed s m = some after) ∨ ∃ p t, m = .event (.external p t) := by
  cases m with
  | event e =>
    cases e with
    | initiated w t =>
      obtain ⟨writer, found, late, -⟩ := attend_initiated.mp attended
      exact .inl ⟨_, State.heed_event.mpr (State.withWriter_ok.mpr
        ⟨writer, _, found, Writer.initiated_ok.mpr ⟨late, rfl⟩, rfl⟩)⟩
    | completed w t =>
      obtain ⟨writer, found, member, -⟩ := attend_completed.mp attended
      exact .inl ⟨_, State.heed_event.mpr (State.withWriter_ok.mpr
        ⟨writer, _, found, Writer.completed_ok.mpr ⟨member, rfl⟩, rfl⟩)⟩
    | external p t => exact .inr ⟨p, t, rfl⟩
  | request r ticket => cases r <;> exact .inl ⟨_, rfl⟩
  | terminate n => exact .inl ⟨_, rfl⟩

/-- The order of what writers have outstanding is kept. -/
theorem attend_ordered {ws vs : List Writer} {m : Letter} (attended : attend ws m = some vs)
    (ordered : ∀ writer ∈ ws, writer.Ordered) : ∀ writer ∈ vs, writer.Ordered := by
  have replaced : ∀ {w : Nat} {changed : Writer}, changed.Ordered →
      ∀ writer ∈ ws.set w changed, writer.Ordered := by
    intro w changed here writer member
    rcases List.mem_or_eq_of_mem_set member with before | new
    · exact ordered writer before
    · rw [new]
      exact here
  cases m with
  | event e =>
    cases e with
    | initiated w t =>
      obtain ⟨writer, found, late, rfl⟩ := attend_initiated.mp attended
      exact replaced ((ordered writer (List.mem_of_getElem? found)).initiated
        (Writer.initiated_ok.mpr ⟨late, rfl⟩))
    | completed w t =>
      obtain ⟨writer, found, member, rfl⟩ := attend_completed.mp attended
      exact replaced ((ordered writer (List.mem_of_getElem? found)).completed
        (Writer.completed_ok.mpr ⟨member, rfl⟩))
    | external p t =>
      cases attended
      exact ordered
  | request r ticket =>
    cases r with
    | register =>
      cases attended
      intro writer member
      rcases List.mem_append.mp member with before | new
      · exact ordered writer before
      · rw [List.mem_singleton.mp new]
        exact .fresh
    | read =>
      cases attended
      exact ordered
  | terminate n =>
    cases attended
    exact ordered

/-- The worker makes of its writers what is attended to, whether it goes on or not. -/
theorem receive_writers {now : Instant} {w : Worker Coordinator} {j : Journal} {m : Letter}
    {vs : List Writer} (attended : attend w.state.state.writers m = some vs) :
    (w.receive duty now j m).1.state.state.writers = vs := by
  rw [(receive_state m).1]
  rcases heed_of_attend attended with ⟨after, heeded⟩ | ⟨p, t, rfl⟩
  · rw [heeded]
    exact Option.some.inj ((attend_of_heed heeded).symm.trans attended)
  · cases heeded : Bookkeeping.heed w.state.state (.event (.external p t)) with
    | none => exact Option.some.inj attended
    | some after => exact Option.some.inj ((attend_of_heed heeded).symm.trans attended)

theorem receive_ordered {now : Instant} {w : Worker Coordinator} {j : Journal} (m : Letter)
    (ordered : ∀ writer ∈ w.state.state.writers, writer.Ordered) :
    ∀ writer ∈ (w.receive duty now j m).1.state.state.writers, writer.Ordered := by
  rw [(receive_state m).1]
  cases heeded : Bookkeeping.heed w.state.state m with
  | none => exact ordered
  | some after => exact attend_ordered (attend_of_heed heeded) ordered

/-- What a message can do to one writer. -/
structure Writer.After (m : Letter) (w : Nat) (before after : Writer) : Prop where
  outstanding : ∀ t ∈ after.outstanding, t ∈ before.outstanding ∨ m = .event (.initiated w t)
  last : ∀ u, before.lastInitiated = some u → ∃ v, after.lastInitiated = some v ∧ u ≤ v
  late : ∀ t, m = .event (.initiated w t) → ∀ u, before.lastInitiated = some u → u ≤ t

theorem Writer.After.same {m : Letter} {w : Nat} (writer : Writer)
    (other : ∀ t, m ≠ .event (.initiated w t)) : Writer.After m w writer writer where
  outstanding := fun _ member => .inl member
  last := fun u known => ⟨u, known, le_rfl⟩
  late := fun t same => absurd same (other t)

/-- Every writer is still there after a message. -/
theorem attend_writer {ws vs : List Writer} {m : Letter} (attended : attend ws m = some vs)
    {w : Nat} {before : Writer} (found : ws[w]? = some before) :
    ∃ after, vs[w]? = some after ∧ Writer.After m w before after := by
  have inside := (List.getElem?_eq_some_iff.mp found).1
  cases m with
  | event e =>
    cases e with
    | initiated w' t =>
      obtain ⟨writer, found', late, rfl⟩ := attend_initiated.mp attended
      by_cases same : w' = w
      · subst same
        cases found.symm.trans found'
        refine ⟨before.add t, List.getElem?_set_self inside, ?_, ?_, ?_⟩
        · intro u member
          rcases List.mem_append.mp member with earlier | single
          · exact .inl earlier
          · exact .inr (by rw [List.mem_singleton.mp single])
        · exact fun u known => ⟨t, rfl, late u known⟩
        · intro u announced
          cases announced
          exact late
      · refine ⟨before, by rw [List.getElem?_set_ne same, found], .same before ?_⟩
        intro u announced
        cases announced
        exact same rfl
    | completed w' t =>
      obtain ⟨writer, found', -, rfl⟩ := attend_completed.mp attended
      by_cases same : w' = w
      · subst same
        cases found.symm.trans found'
        refine ⟨_, List.getElem?_set_self inside, ?_, ?_, nofun⟩
        · exact fun u member => .inl (List.mem_of_mem_erase member)
        · exact fun u known => ⟨u, known, le_rfl⟩
      · exact ⟨before, by rw [List.getElem?_set_ne same, found], .same before nofun⟩
    | external p t =>
      cases attended
      exact ⟨before, found, .same before nofun⟩
  | request r ticket =>
    cases r with
    | register =>
      cases attended
      exact ⟨before, (List.getElem?_append_left inside).trans found, .same before nofun⟩
    | read =>
      cases attended
      exact ⟨before, found, .same before nofun⟩
  | terminate n =>
    cases attended
    exact ⟨before, found, .same before nofun⟩

/-- What a queue can do to one writer. -/
theorem foresee_writer {queue : List Letter} {ws vs : List Writer}
    (seen : foresee ws queue = some vs) {w : Nat} {before : Writer}
    (found : ws[w]? = some before) :
    ∃ after, vs[w]? = some after ∧
      (∀ t ∈ after.outstanding, t ∈ before.outstanding ∨ .event (.initiated w t) ∈ queue) ∧
      ∀ u, before.lastInitiated = some u → ∀ t, .event (.initiated w t) ∈ queue → u ≤ t := by
  induction queue generalizing ws before with
  | nil =>
    cases seen
    exact ⟨before, found, fun _ member => .inl member, nofun⟩
  | cons m rest ih =>
    obtain ⟨us, attended, seen⟩ := Option.bind_eq_some_iff.mp seen
    obtain ⟨middle, found', first⟩ := attend_writer attended found
    obtain ⟨after, found'', outstanding, late⟩ := ih seen found'
    refine ⟨after, found'', ?_, ?_⟩
    · intro t member
      rcases outstanding t member with held | announced
      · exact (first.outstanding t held).imp_right fun same => by simp [same]
      · exact .inr (List.mem_cons_of_mem _ announced)
    · intro u known t announced
      rcases List.mem_cons.mp announced with here | later
      · exact first.late t here.symm u known
      · obtain ⟨v, known', le⟩ := first.last u known
        exact le_trans le (late v known' t later)

theorem attend_length {ws vs : List Writer} {m : Letter} (attended : attend ws m = some vs) :
    ws.length ≤ vs.length := by
  by_contra fewer
  obtain ⟨after, found, -⟩ := attend_writer (w := vs.length) attended
    (List.getElem?_eq_getElem (by omega))
  simp at found

theorem foresee_length {queue : List Letter} {ws vs : List Writer}
    (seen : foresee ws queue = some vs) : ws.length ≤ vs.length := by
  by_contra fewer
  obtain ⟨after, found, -⟩ := foresee_writer (w := vs.length) seen
    (List.getElem?_eq_getElem (by omega))
  simp at found

/-- A registration that is still queued adds a writer. -/
theorem foresee_register {queue : List Letter} {ws vs : List Writer} {ticket : Nat}
    (seen : foresee ws queue = some vs) (queued : .request .register ticket ∈ queue) :
    ws.length < vs.length := by
  obtain ⟨first, later, rfl⟩ := List.append_of_mem queued
  rw [foresee_append] at seen
  obtain ⟨us, seen, rest⟩ := Option.bind_eq_some_iff.mp seen
  obtain ⟨more, attended, rest⟩ := Option.bind_eq_some_iff.mp rest
  rw [attend_register] at attended
  cases attended
  have before := foresee_length seen
  have after := foresee_length rest
  rw [List.length_append, List.length_singleton] at after
  omega

end PacedLoad.Watermark
