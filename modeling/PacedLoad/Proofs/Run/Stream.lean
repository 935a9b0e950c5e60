import PacedLoad.Proofs.Run.Simulation
import PacedLoad.Proofs.Time.Order

/-!
# How far the stream of operations has come

The jobs, the operation at hand and what is upcoming are the stream, and all that
was submitted starts in ascending order.
-/

namespace PacedLoad

open Handler Watermark

variable {β σ : Type}

namespace Outline

def start (t : Task β) : Instant := t.operation.scheduledStart

def item (t : Task β) : Except Rows.DecodingError Operation := .ok t.operation

structure Fed (operations : List (Except Rows.DecodingError Operation)) (o : Outline β σ) :
    Prop where
  begun : o.jobs.map item <+: operations
  whole : o.station ≠ .ending →
    o.jobs.map item ++ o.station.pending.map .ok ++ o.upcoming = operations
  submitted : o.submitted = o.jobs.length
  ascending : (o.jobs.map start).Pairwise (· ≤ ·)
  previous : o.station ≠ .ending → ∀ s ∈ o.jobs.map start, ∃ p, o.previous = some p ∧ s ≤ p
  pending : ∀ op ∈ o.station.pending, o.previous = some op.scheduledStart
  work : ∀ w ∈ o.jobs.map Task.work, w = o.work

variable {operations : List (Except Rows.DecodingError Operation)} {o after : Outline β σ}

/-- A step to another station with the same operation at hand. -/
theorem Fed.congr (fed : Fed operations o)
    (jobs : after.jobs = o.jobs) (upcoming : after.upcoming = o.upcoming)
    (submitted : after.submitted = o.submitted) (previous : after.previous = o.previous)
    (work : after.work = o.work) (pending : after.station.pending = o.station.pending)
    (going : after.station ≠ .ending → o.station ≠ .ending) : Fed operations after where
  begun := by rw [jobs]; exact fed.begun
  whole := fun on => by rw [jobs, pending, upcoming]; exact fed.whole (going on)
  submitted := by rw [submitted, jobs]; exact fed.submitted
  ascending := by rw [jobs]; exact fed.ascending
  previous := fun on => by rw [jobs, previous]; exact fed.previous (going on)
  pending := by rw [pending, previous]; exact fed.pending
  work := by rw [jobs, work]; exact fed.work

/-- A change of a job's phase does not touch the stream. -/
theorem Fed.advance (fed : Fed operations o) (k : Nat) (phase : Phase) :
    Fed operations (o.advance k phase) where
  begun := by rw [advance_map fun _ _ => rfl]; exact fed.begun
  whole := fun on => by rw [advance_map fun _ _ => rfl]; exact fed.whole on
  submitted := by simp only [Outline.advance, List.length_modify]; exact fed.submitted
  ascending := by rw [advance_map fun _ _ => rfl]; exact fed.ascending
  previous := fun on => by rw [advance_map fun _ _ => rfl]; exact fed.previous on
  pending := fed.pending
  work := by rw [advance_map fun _ _ => rfl]; exact fed.work

theorem on_of_pending {station : Station} {op : Operation} (mine : op ∈ station.pending) :
    station ≠ .ending := by
  rintro rfl
  cases mine

/-- All jobs start no later than the operation at hand. -/
theorem Fed.latest (fed : Fed operations o) {op : Operation} (mine : op ∈ o.station.pending)
    {s : Instant} (member : s ∈ o.jobs.map start) : s ≤ op.scheduledStart := by
  obtain ⟨p, known, le⟩ := fed.previous (on_of_pending mine) s member
  cases known.symm.trans (fed.pending op mine)
  exact le

/-- A job carries out the item of the stream at its place. -/
theorem Fed.item_at (fed : Fed operations o) {i : Nat} {t : Task β}
    (job : o.jobs[i]? = some t) : operations[i]? = some (.ok t.operation) := by
  obtain ⟨rest, whole⟩ := fed.begun
  have inside := (List.getElem?_eq_some_iff.mp job).1
  rw [← whole, List.getElem?_append_left (by rw [List.length_map]; exact inside),
    List.getElem?_map, job]
  rfl

theorem Fed.item_eq (fed : Fed operations o) {i : Nat} {t : Task β} {op : Operation}
    (job : o.jobs[i]? = some t) (there : operations[i]? = some (.ok op)) : t.operation = op :=
  Except.ok.inj (Option.some.inj ((fed.item_at job).symm.trans there))

/-- The operations of the stream before the last job have jobs. -/
theorem Fed.exists_job (fed : Fed operations o) {i : Nat} {x : Operation}
    (earlier : i < o.jobs.length) (item : operations[i]? = some (.ok x)) :
    ∃ t, o.jobs[i]? = some t ∧ t.operation = x :=
  ⟨o.jobs[i], List.getElem?_eq_getElem earlier,
    fed.item_eq (List.getElem?_eq_getElem earlier) item⟩

/-- The operation at hand is the next one of the stream. -/
theorem Fed.pending_item (fed : Fed operations o) {op : Operation}
    (mine : op ∈ o.station.pending) : operations[o.submitted]? = some (.ok op) := by
  have alone : o.station.pending = [op] := by
    cases here : o.station <;> simp_all [Station.pending]
  rw [← fed.whole (on_of_pending mine), alone, fed.submitted, List.append_assoc,
    List.getElem?_append_right (by simp)]
  simp

/-- What has not been taken follows what was submitted. -/
theorem Fed.upcoming (fed : Fed operations o) (free : o.station = .between) :
    o.upcoming = operations.drop o.submitted := by
  have whole := fed.whole (by simp [free])
  rw [free] at whole
  rw [← whole, fed.submitted]
  simp [Station.pending]

/-- Jobs start in the order in which they were submitted. -/
theorem Fed.start_le (fed : Fed operations o) {i j : Nat} {x y : Task β} (le : i ≤ j)
    (first : o.jobs[i]? = some x) (second : o.jobs[j]? = some y) : start x ≤ start y := by
  rcases Nat.eq_or_lt_of_le le with rfl | lt
  · cases first.symm.trans second
    exact le_rfl
  · obtain ⟨inside, rfl⟩ := List.getElem?_eq_some_iff.mp first
    obtain ⟨inside', rfl⟩ := List.getElem?_eq_some_iff.mp second
    exact List.pairwise_iff_getElem.mp (List.pairwise_map.mp fed.ascending) i j inside inside' lt

theorem Fed.pull (fed : Fed operations o) {op : Operation}
    {rest : List (Except Rows.DecodingError Operation)} (free : o.station = .between)
    (next : o.upcoming = .ok op :: rest)
    (late : ∀ p, o.previous = some p → p ≤ op.scheduledStart) :
    Fed operations
      { o with upcoming := rest, previous := some op.scheduledStart, station := .enrol op } where
  begun := fed.begun
  whole := fun _ => by
    have whole := fed.whole (by simp [free])
    rw [free, next] at whole
    simpa [Station.pending] using whole
  submitted := fed.submitted
  ascending := fed.ascending
  previous := fun _ s member => by
    obtain ⟨p, known, le⟩ := fed.previous (by simp [free]) s member
    exact ⟨_, rfl, le_trans le (late p known)⟩
  pending := by simp [Station.pending]
  work := fed.work

theorem Fed.submit (fed : Fed operations o) {op : Operation} {writer : Nat}
    (here : o.station = .submit op writer) :
    Fed operations { o with
      jobs := o.jobs ++ [⟨op, writer, o.work, .waiting, false⟩]
      submitted := o.submitted + 1
      station := .between } := by
  have mine : op ∈ o.station.pending := by simp [here, Station.pending]
  have whole := fed.whole (by simp [here])
  rw [here] at whole
  simp only [Station.pending, List.map_cons, List.map_nil] at whole
  refine ⟨?_, ?_, ?_, ?_, ?_, ?_, ?_⟩
  · refine ⟨o.upcoming, ?_⟩
    simpa [item] using whole
  · intro _
    simpa [item, Station.pending] using whole
  · simp [fed.submitted]
  · rw [List.map_append, List.pairwise_append]
    refine ⟨fed.ascending, List.pairwise_singleton _ _, fun s member t last => ?_⟩
    have same : t = op.scheduledStart := by simpa [start] using last
    rw [same]
    exact fed.latest mine member
  · intro _ s member
    refine ⟨op.scheduledStart, fed.pending op mine, ?_⟩
    rw [List.map_append, List.mem_append] at member
    rcases member with earlier | last
    · exact fed.latest mine earlier
    · have same : s = op.scheduledStart := by simpa [start] using last
      rw [same]
  · simp [Station.pending]
  · intro w member
    rw [List.map_append, List.mem_append] at member
    rcases member with earlier | last
    · exact fed.work w earlier
    · simpa using last

/-- Every step keeps the jobs the beginning of the stream. -/
theorem Fed.step [Bookkeeping σ] {talk : Bool} (fed : Fed operations o) (step : Step talk o after) :
    Fed operations after := by
  cases step with
  | still => exact fed
  | pull free next late => exact fed.pull free next late
  | ask here | known here | enrolled here =>
    exact fed.congr rfl rfl rfl rfl rfl (by rw [here]; rfl) (fun _ => by simp [here])
  | announce here =>
    exact fed.congr rfl rfl rfl rfl rfl (by rw [here]; rfl) (fun _ => by simp [here])
  | submit here => exact fed.submit here
  | ends => exact ⟨fed.begun, nofun, fed.submitted, fed.ascending, nofun, nofun, fed.work⟩
  | close | wind | deliver | peer =>
    exact fed.congr rfl rfl rfl rfl rfl rfl id
  | answer | refused | interruption => exact fed.advance _ _
  | complete => exact (fed.advance _ _).congr rfl rfl rfl rfl rfl rfl id

end Outline

end PacedLoad
