import PacedLoad.Proofs.Watermark.Registration

/-!
# Writers without a handle

The writers of a service and the handles that its clients hold agree except for the
calls that gave up too early.  A call that is still waiting when its registration is
processed returns the writer.  A call that has failed leaves its writer behind: the
service lists no handle of it, and no later move gets it to announce anything, so
that the global completion time is unknown for good.
-/

namespace PacedLoad.Watermark.Registry

variable {r after : Registry}

/-- A writer was registered for a call that has failed. -/
def Orphan (r : Registry) (w : Nat) : Prop :=
  ∃ c ∈ r.calls, ∃ e, c.outcome = some (.error e) ∧ r.processed[w]? = some c.ticket

/-- How the writers, the calls for them and the handles belong together. -/
structure Accounted (r : Registry) : Prop where
  /-- Writers are numbered in the order in which their registrations are processed. -/
  numbered : r.state.writers.length = r.processed.length
  once : r.processed.Nodup
  ours : ∀ t ∈ r.processed, ∃ c ∈ r.calls, c.ticket = t
  /-- A call that succeeds returns the place of its registration in that order. -/
  returned : ∀ c ∈ r.calls, ∀ id, c.outcome = some (.ok id) → r.processed[id]? = some c.ticket
  distinct : ∀ i j id, r.handle? i = some id → r.handle? j = some id → i = j
  /-- A call that waits until its registration is processed succeeds. -/
  patient : ∀ i ticket id, r.calls[i]? = some ⟨ticket, none⟩ → r.processed[id]? = some ticket →
    ∀ expired, ∃ after, r.move (.poll i expired) = some after ∧ after.handle? i = some id
  /-- Once all calls have returned, every writer is an orphan or has one handle. -/
  handles : (∀ c ∈ r.calls, c.outcome ≠ none) → ∀ w < r.state.writers.length,
    (r.Orphan w ∧ r.service.writers.count w = 0) ∨ (¬ r.Orphan w ∧ r.service.writers.count w = 1)
  registered : ∀ w ∈ r.service.writers, w < r.state.writers.length
  /-- An orphan stays one, and keeps the global completion time unknown. -/
  orphans : ∀ w, r.Orphan w → ∀ ms after, r.moves ms = some after →
    after.Orphan w ∧ after.state.writers[w]? = some .fresh ∧
      after.state.globalCompletionTime = none ∧ after.service.gct = none

/-- No step takes back a registration that was processed, or the outcome of a call. -/
theorem Step.keeps (step : Step r after) :
    (∃ more, after.processed = r.processed ++ more) ∧
      ∀ c ∈ r.calls, c.outcome ≠ none → c ∈ after.calls := by
  cases step with
  | sends | asks => exact ⟨⟨[], (List.append_nil _).symm⟩, fun c call _ => call⟩
  | calls | fails =>
    exact ⟨⟨[], (List.append_nil _).symm⟩, fun c call _ => List.mem_append_left _ call⟩
  | returns found polled =>
    exact ⟨⟨[], (List.append_nil _).symm⟩, fun c call closed => mem_set_of_closed found call closed _⟩
  | delivers => exact ⟨⟨_, rfl⟩, fun c call _ => call⟩

theorem Orphan.step {w : Nat} (orphan : r.Orphan w) (step : Step r after) : after.Orphan w := by
  obtain ⟨c, call, e, failed, place⟩ := orphan
  obtain ⟨⟨more, processed⟩, outcomes⟩ := step.keeps
  refine ⟨c, outcomes c call (by simp [failed]), e, failed, ?_⟩
  rw [processed]
  exact getElem?_append_some place

/-- What holds is kept by all moves, and an orphan stays one. -/
theorem Kept.moves {ms : List Move} (kept : Kept r) (ran : r.moves ms = some after) :
    Kept after ∧ ∀ w, r.Orphan w → after.Orphan w := by
  induction ms generalizing r with
  | nil =>
    cases ran
    exact ⟨kept, fun _ orphan => orphan⟩
  | cons m rest ih =>
    obtain ⟨next, moved, later⟩ := Option.bind_eq_some_iff.mp ran
    have step := move_step moved
    obtain ⟨ended, orphans⟩ := ih (kept.step step) later
    exact ⟨ended, fun w orphan => orphans w (orphan.step step)⟩

/-- The service lists no handle of an orphan. -/
theorem Kept.unlisted (kept : Kept r) {w : Nat} (orphan : r.Orphan w) :
    w ∉ r.service.writers := by
  obtain ⟨c, call, e, failed, place⟩ := orphan
  intro listed
  obtain ⟨c', call', ok⟩ := (kept.owners w).mp listed
  have same : c' = c := List.inj_on_of_nodup_map kept.distinct call' call
    (Option.some.inj ((kept.returned c' call' w ok).symm.trans place))
  subst same
  cases ok.symm.trans failed

/-- An orphan has announced nothing, so that nothing is known to be complete. -/
theorem Kept.unknown (kept : Kept r) {w : Nat} (orphan : r.Orphan w) :
    r.state.writers[w]? = some .fresh ∧ r.state.globalCompletionTime = none ∧
      r.service.gct = none := by
  have inside : w < r.state.writers.length := by
    obtain ⟨c, -, e, -, place⟩ := orphan
    rw [kept.numbered]
    exact (List.getElem?_eq_some_iff.mp place).1
  have found := List.getElem?_eq_getElem inside
  rw [kept.untouched w _ (kept.unlisted orphan) found] at found
  have unknown : r.state.globalCompletionTime = none :=
    State.globalCompletionTime_eq_none.mpr
      (.inr (.inl ⟨.fresh, List.mem_of_getElem? found, rfl⟩))
  refine ⟨found, unknown, ?_⟩
  have shown := kept.shown
  rw [Coordinator.Shown, Bookkeeping.globalCompletionTime_state, unknown] at shown
  exact shown

/-- Two calls do not return the same writer. -/
theorem Kept.handle_inj (kept : Kept r) {i j id : Nat} (first : r.handle? i = some id)
    (second : r.handle? j = some id) : i = j := by
  have place : ∀ {k}, r.handle? k = some id → ∃ c, r.calls[k]? = some c ∧
      r.processed[id]? = some c.ticket := by
    intro k held
    obtain ⟨outcome, returned, ok⟩ := Option.bind_eq_some_iff.mp held
    obtain ⟨c, found, known⟩ := Option.bind_eq_some_iff.mp returned
    cases outcome with
    | error e => cases ok
    | ok id' =>
      cases ok
      exact ⟨c, found, kept.returned c (List.mem_of_getElem? found) id known⟩
  obtain ⟨c, found, ticket⟩ := place first
  obtain ⟨c', found', ticket'⟩ := place second
  have tickets : (r.calls.map Registration.ticket)[i]? = (r.calls.map Registration.ticket)[j]? := by
    simp only [List.getElem?_map, found, found', Option.map_some]
    exact ticket.symm.trans ticket'
  have inside := (List.getElem?_eq_some_iff.mp found).1
  exact (List.getElem?_inj (by simpa using inside) kept.distinct).mp tickets

/-- A call that waits until its registration is processed succeeds, whatever else has happened. -/
theorem Kept.patient (kept : Kept r) {i ticket id : Nat}
    (found : r.calls[i]? = some ⟨ticket, none⟩) (place : r.processed[id]? = some ticket)
    (expired : Bool) :
    ∃ after, r.move (.poll i expired) = some after ∧ after.handle? i = some id := by
  have value := (kept.waiting ⟨ticket, none⟩ (List.mem_of_getElem? found) rfl).answered id place
  have answered := PacedLoad.Service.answer_of_value value r.journal Service.registering
    r.service.patience.registration expired
  have inside := (List.getElem?_eq_some_iff.mp found).1
  simp only [move, found, Service.pollRegistration, answered, Option.map_some, Service.registered]
  exact ⟨_, rfl, by simp [handle?, inside, Except.toOption]⟩

/-- A writer that is no orphan is listed once all calls have returned. -/
theorem Kept.listed (kept : Kept r) (closed : ∀ c ∈ r.calls, c.outcome ≠ none) {w : Nat}
    (inside : w < r.state.writers.length) (owned : ¬ r.Orphan w) : w ∈ r.service.writers := by
  rw [kept.numbered] at inside
  have place := List.getElem?_eq_getElem inside
  obtain ⟨c, call, ticket⟩ := kept.ours _ (List.mem_append_left _ (List.getElem_mem inside))
  rw [← ticket] at place
  cases outcome : c.outcome with
  | none => exact absurd outcome (closed c call)
  | some result =>
    cases result with
    | error e => exact absurd ⟨c, call, e, outcome, place⟩ owned
    | ok id =>
      have processed := (List.nodup_append.mp kept.lined).1
      have same := kept.returned c call id outcome
      have here : w = id :=
        (List.getElem?_inj inside processed).mp (place.trans same.symm)
      exact (kept.owners w).mpr ⟨c, call, here ▸ outcome⟩

theorem Kept.accounted (kept : Kept r) : r.Accounted where
  numbered := kept.numbered
  once := (List.nodup_append.mp kept.lined).1
  ours t processed := kept.ours t (List.mem_append_left _ processed)
  returned := kept.returned
  distinct _ _ _ := kept.handle_inj
  patient _ _ _ found place := kept.patient found place
  handles closed w inside := by
    by_cases orphan : r.Orphan w
    · exact .inl ⟨orphan, List.count_eq_zero.mpr (kept.unlisted orphan)⟩
    · exact .inr ⟨orphan, List.count_eq_one_of_mem kept.handles (kept.listed closed inside orphan)⟩
  registered w listed := by
    obtain ⟨c, call, ok⟩ := (kept.owners w).mp listed
    rw [kept.numbered]
    exact (List.getElem?_eq_some_iff.mp (kept.returned c call w ok)).1
  orphans w orphan ms after ran := by
    obtain ⟨later, orphans⟩ := kept.moves ran
    exact ⟨orphans w orphan, later.unknown (orphans w orphan)⟩

end PacedLoad.Watermark.Registry
