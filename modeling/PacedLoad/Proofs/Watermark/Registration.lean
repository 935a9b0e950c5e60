import Mathlib.Data.List.Nodup
import PacedLoad.Proofs.Watermark.Course
import PacedLoad.Proofs.Watermark.Registry

/-!
# What becomes of registrations

Writers are numbered in the order in which the worker processes their registrations.
A call that is still waiting then returns the number.  But a call may have given up
while its registration was queued: its writer is registered all the same, and nobody
holds a handle of it.  Such a writer never announces anything, so that the global
completion time stays unknown from then on.
-/

namespace PacedLoad.Watermark

open Message

theorem ticket?_of_enrols? {m : Letter} {ticket : Nat} (enrols : enrols? m = some ticket) :
    m.ticket? = some ticket := by
  match m, enrols with
  | .request .register _, same => exact same

/-- The registrations among several messages are requests. -/
theorem mem_ticket?_of_enrols? {queue : List Letter} {ticket : Nat}
    (member : ticket ∈ queue.filterMap enrols?) : ticket ∈ queue.filterMap ticket? := by
  obtain ⟨m, inside, enrols⟩ := List.mem_filterMap.mp member
  exact List.mem_filterMap.mpr ⟨m, inside, ticket?_of_enrols? enrols⟩

/-- Every registration adds a writer, and no other message does, be it refused or not. -/
theorem State.heed_length (s : State) (m : Letter) :
    ((Bookkeeping.heed s m).getD s).writers.length =
      s.writers.length + (enrols? m).toList.length := by
  have enrolled : (enrols? m).toList.length = if registers m then 1 else 0 := by
    cases m with
    | request r ticket => cases r <;> rfl
    | event e => rfl
    | terminate n => rfl
  cases heeded : Bookkeeping.heed s m with
  | none =>
    cases m with
    | event e => rfl
    | request r ticket => cases r <;> cases heeded
    | terminate n => rfl
  | some after =>
    rw [Option.getD_some, enrolled]
    exact heed_writers heeded

/-- A message that a writer does not author leaves it as it was; a new writer is fresh. -/
theorem State.heed_other {s : State} {m : Letter} {w : Nat} {writer : Writer}
    (other : author? m ≠ some w)
    (found : ((Bookkeeping.heed s m).getD s).writers[w]? = some writer) :
    s.writers[w]? = some writer ∨ writer = .fresh := by
  cases heeded : Bookkeeping.heed s m with
  | none =>
    rw [heeded] at found
    exact .inl found
  | some after =>
  rw [heeded, Option.getD_some] at found
  cases m with
  | event e =>
    rw [heed_event] at heeded
    cases e with
    | initiated w' t | completed w' t =>
      obtain ⟨before, changed, -, -, rfl⟩ := withWriter_ok.mp heeded
      rcases getElem?_set_some found with ⟨rfl, -⟩ | ⟨-, old⟩
      · exact absurd rfl other
      · exact .inl old
    | external p t =>
      obtain ⟨previous, -, -, rfl⟩ := external_ok.mp heeded
      exact .inl found
  | request r ticket =>
    cases r <;> cases heeded
    · rcases getElem?_concat_some found with old | ⟨-, new⟩
      · exact .inl old
      · exact .inr new
    · exact .inl found
  | terminate n =>
    cases heeded
    exact .inl found

namespace Registry

variable {r after : Registry}

theorem handle?_eq_some {i w : Nat} (held : r.handle? i = some w) :
    ∃ c ∈ r.calls, c.outcome = some (.ok w) := by
  obtain ⟨outcome, returned, ok⟩ := Option.bind_eq_some_iff.mp held
  obtain ⟨c, found, known⟩ := Option.bind_eq_some_iff.mp returned
  cases outcome with
  | error e => cases ok
  | ok id =>
    cases ok
    exact ⟨c, List.mem_of_getElem? found, known⟩

/-- What stands in the cell of a call that waits. -/
structure Awaits (r : Registry) (ticket : Nat) : Prop where
  queued : ticket ∈ r.core.queue.filterMap enrols? → r.core.cells[ticket]? = some Cell.fresh
  answered : ∀ id, r.processed[id]? = some ticket →
    Cell.valueAt r.core.cells ticket = some (.writer id)

structure Kept (r : Registry) : Prop where
  distinct : (r.calls.map Registration.ticket).Nodup
  bounded : ∀ c ∈ r.calls, c.ticket < r.core.cells.length
  asked : ∀ t ∈ r.core.queue.filterMap ticket?, t < r.core.cells.length
  lined : (r.processed ++ r.core.queue.filterMap ticket?).Nodup
  ours : ∀ t ∈ r.processed ++ r.core.queue.filterMap enrols?, ∃ c ∈ r.calls, c.ticket = t
  numbered : r.state.writers.length = r.processed.length
  answered : ∀ t id, Cell.valueAt r.core.cells t = some (.writer id) → r.processed[id]? = some t
  returned : ∀ c ∈ r.calls, ∀ id, c.outcome = some (.ok id) → r.processed[id]? = some c.ticket
  waiting : ∀ c ∈ r.calls, c.outcome = none → r.Awaits c.ticket
  handles : r.service.writers.Nodup
  owners : ∀ id, id ∈ r.service.writers ↔ ∃ c ∈ r.calls, c.outcome = some (.ok id)
  authors : ∀ m ∈ r.core.queue, ∀ w, author? m = some w → w ∈ r.service.writers
  untouched : ∀ w writer, w ∉ r.service.writers → r.state.writers[w]? = some writer →
    writer = .fresh
  shown : r.core.worker.state.Shown

theorem kept_start (peers : List String) (patience : Patience) : Kept (start peers patience) where
  distinct := .nil
  bounded := nofun
  asked := nofun
  lined := .nil
  ours := nofun
  numbered := rfl
  answered := fun t id value => by
    simp [start, Service.start, PacedLoad.Service.start, Cell.valueAt] at value
  returned := nofun
  waiting := nofun
  handles := .nil
  owners := by simp [start, Service.start]
  authors := nofun
  untouched := fun w writer _ found => by
    simp [start, Service.start, PacedLoad.Service.start, Worker.fresh, Coordinator.start,
      State.start] at found
  shown := shown_start peers

/-- The ticket of a processed registration is that of a call. -/
theorem Kept.processed_lt (kept : Kept r) {t : Nat} (member : t ∈ r.processed) :
    t < r.core.cells.length := by
  obtain ⟨c, call, rfl⟩ := kept.ours t (List.mem_append_left _ member)
  exact kept.bounded c call

/-! ## Something is sent -/

/-- All that a registry shows of what a client sends, with a call that it may make. -/
structure Grown (r after : Registry) (messages : List Letter) (more : List (Cell Answer))
    (extra : List Registration) : Prop where
  worker : after.core.worker = r.core.worker
  queue : after.core.queue = r.core.queue ++ messages
  cells : after.core.cells = r.core.cells ++ more
  calls : after.calls = r.calls ++ extra
  processed : after.processed = r.processed
  handles : after.service.writers = r.service.writers
  new : more = [] ∨ more = [Cell.fresh]
  tickets : messages.filterMap ticket? = [] ∨
    (messages.filterMap ticket? = [r.core.cells.length] ∧ more = [Cell.fresh])
  enrolled : ∀ t ∈ messages.filterMap enrols?, ∃ c ∈ extra, c.ticket = t
  authors : ∀ m ∈ messages, ∀ w, author? m = some w → ∃ i, r.handle? i = some w
  call : extra = [] ∨ ∃ outcome, extra = [⟨r.core.cells.length, outcome⟩] ∧
    more = [Cell.fresh] ∧ ∀ id, outcome ≠ some (.ok id)

section Grown
variable {messages : List Letter} {more : List (Cell Answer)} {extra : List Registration}

theorem Grown.values (grown : Grown r after messages more extra) :
    Cell.valueAt after.core.cells = Cell.valueAt r.core.cells := by
  rw [grown.cells]
  rcases grown.new with rfl | rfl
  · rw [List.append_nil]
  · rw [Cell.valueAt_append_fresh]

theorem Grown.length_le (grown : Grown r after messages more extra) :
    r.core.cells.length ≤ after.core.cells.length := by
  simp [grown.cells]

theorem Grown.room (grown : Grown r after messages more extra) (single : more = [Cell.fresh]) :
    after.core.cells[r.core.cells.length]? = some Cell.fresh ∧
      r.core.cells.length < after.core.cells.length := by
  simp [grown.cells, single]

/-- A new call has the number of the new cell. -/
theorem Grown.extra_ticket (grown : Grown r after messages more extra) {c : Registration}
    (member : c ∈ extra) :
    c.ticket = r.core.cells.length ∧ more = [Cell.fresh] ∧ ∀ id, c.outcome ≠ some (.ok id) := by
  rcases grown.call with rfl | ⟨outcome, rfl, single, waits⟩
  · cases member
  · cases List.mem_singleton.mp member
    exact ⟨rfl, single, waits⟩

/-- A new request has the number of the new cell. -/
theorem Grown.posted (grown : Grown r after messages more extra) {t : Nat}
    (member : t ∈ messages.filterMap ticket?) :
    t = r.core.cells.length ∧ more = [Cell.fresh] := by
  rcases grown.tickets with none | ⟨one, single⟩
  · simp [none] at member
  · simp_all

/-- No new call has returned a writer. -/
theorem Grown.owner_iff (grown : Grown r after messages more extra) (id : Nat) :
    (∃ c ∈ after.calls, c.outcome = some (.ok id)) ↔
      ∃ c ∈ r.calls, c.outcome = some (.ok id) := by
  rw [grown.calls]
  constructor
  · rintro ⟨c, member, ok⟩
    rcases List.mem_append.mp member with earlier | here
    · exact ⟨c, earlier, ok⟩
    · exact absurd ok ((grown.extra_ticket here).2.2 id)
  · exact fun ⟨c, member, ok⟩ => ⟨c, List.mem_append_left _ member, ok⟩

theorem Grown.distinct (grown : Grown r after messages more extra) (kept : Kept r) :
    (after.calls.map Registration.ticket).Nodup := by
  rw [grown.calls, List.map_append, List.nodup_append]
  refine ⟨kept.distinct, ?_, ?_⟩
  · rcases grown.call with rfl | ⟨outcome, rfl, -, -⟩
    · exact .nil
    · exact List.pairwise_singleton _ _
  · rintro a before b here rfl
    obtain ⟨c, member, rfl⟩ := List.mem_map.mp before
    obtain ⟨c', member', same⟩ := List.mem_map.mp here
    have bound := kept.bounded c member
    rw [← same, (grown.extra_ticket member').1] at bound
    exact Nat.lt_irrefl _ bound

theorem Grown.lined (grown : Grown r after messages more extra) (kept : Kept r) :
    (after.processed ++ after.core.queue.filterMap ticket?).Nodup := by
  rw [grown.processed, grown.queue, List.filterMap_append, ← List.append_assoc]
  refine List.nodup_append.mpr ⟨kept.lined, ?_, ?_⟩
  · rcases grown.tickets with none | ⟨one, -⟩
    · rw [none]
      exact .nil
    · rw [one]
      exact List.pairwise_singleton _ _
  · rintro a before b here rfl
    obtain ⟨rfl, -⟩ := grown.posted here
    rcases List.mem_append.mp before with done | ahead
    · exact Nat.lt_irrefl _ (kept.processed_lt done)
    · exact Nat.lt_irrefl _ (kept.asked _ ahead)

/-- What was sent does not touch the cells of the calls that wait. -/
theorem Grown.awaits (grown : Grown r after messages more extra) (kept : Kept r)
    {c : Registration} (member : c ∈ after.calls) (waits : c.outcome = none) :
    after.Awaits c.ticket := by
  rw [grown.calls] at member
  constructor
  · intro queued
    rw [grown.queue, List.filterMap_append, List.mem_append] at queued
    rcases queued with before | here
    · rcases List.mem_append.mp member with earlier | late
      · rw [grown.cells]
        exact getElem?_append_some ((kept.waiting c earlier waits).queued before)
      · have bound := kept.asked _ (mem_ticket?_of_enrols? before)
        rw [(grown.extra_ticket late).1] at bound
        exact absurd bound (Nat.lt_irrefl _)
    · obtain ⟨same, single⟩ := grown.posted (mem_ticket?_of_enrols? here)
      rw [same]
      exact (grown.room single).1
  · intro id done
    rw [grown.processed] at done
    rw [grown.values]
    rcases List.mem_append.mp member with earlier | late
    · exact (kept.waiting c earlier waits).answered id done
    · have bound := kept.processed_lt (List.mem_of_getElem? done)
      rw [(grown.extra_ticket late).1] at bound
      exact absurd bound (Nat.lt_irrefl _)

/-- A client sends something, and may make a call. -/
theorem Kept.grow (kept : Kept r) (grown : Grown r after messages more extra) : Kept after where
  distinct := grown.distinct kept
  bounded c member := by
    rw [grown.calls] at member
    rcases List.mem_append.mp member with before | here
    · exact Nat.lt_of_lt_of_le (kept.bounded c before) grown.length_le
    · obtain ⟨ticket, single, -⟩ := grown.extra_ticket here
      rw [ticket]
      exact (grown.room single).2
  asked t member := by
    rw [grown.queue, List.filterMap_append, List.mem_append] at member
    rcases member with before | here
    · exact Nat.lt_of_lt_of_le (kept.asked t before) grown.length_le
    · obtain ⟨rfl, single⟩ := grown.posted here
      exact (grown.room single).2
  lined := grown.lined kept
  ours t member := by
    rw [grown.processed, grown.queue, List.filterMap_append, ← List.append_assoc] at member
    rw [grown.calls]
    rcases List.mem_append.mp member with before | here
    · obtain ⟨c, call, ticket⟩ := kept.ours t before
      exact ⟨c, List.mem_append_left _ call, ticket⟩
    · obtain ⟨c, call, ticket⟩ := grown.enrolled t here
      exact ⟨c, List.mem_append_right _ call, ticket⟩
  numbered := by
    rw [state, grown.worker, grown.processed]
    exact kept.numbered
  answered t id value := by
    rw [grown.values] at value
    rw [grown.processed]
    exact kept.answered t id value
  returned c member id ok := by
    rw [grown.calls] at member
    rw [grown.processed]
    rcases List.mem_append.mp member with before | here
    · exact kept.returned c before id ok
    · exact absurd ok ((grown.extra_ticket here).2.2 id)
  waiting _ member waits := grown.awaits kept member waits
  handles := by
    rw [grown.handles]
    exact kept.handles
  owners id := by
    rw [grown.handles]
    exact (kept.owners id).trans (grown.owner_iff id).symm
  authors m member w author := by
    rw [grown.queue, List.mem_append] at member
    rw [grown.handles]
    rcases member with before | here
    · exact kept.authors m before w author
    · obtain ⟨i, held⟩ := grown.authors m here w author
      exact (kept.owners w).mpr (handle?_eq_some held)
  untouched := by
    rw [state, grown.worker, grown.handles]
    exact kept.untouched
  shown := by
    rw [grown.worker]
    exact kept.shown

end Grown

/-! ## A call returns -/

/-- The calls once one of them has returned. -/
theorem Kept.mem_set (kept : Kept r) {i ticket : Nat} {c : Registration}
    {outcome : Option (Except ServiceError Nat)} (found : r.calls[i]? = some ⟨ticket, none⟩)
    (member : c ∈ r.calls.set i ⟨ticket, outcome⟩) :
    c = ⟨ticket, outcome⟩ ∨ (c ∈ r.calls ∧ c.ticket ≠ ticket) := by
  obtain ⟨k, here⟩ := List.mem_iff_getElem?.mp member
  rcases getElem?_set_some here with ⟨-, same⟩ | ⟨other, before⟩
  · exact .inl same
  · refine .inr ⟨List.mem_of_getElem? before, fun same => other ?_⟩
    have tickets : (r.calls.map Registration.ticket)[k]? = (r.calls.map Registration.ticket)[i]? := by
      simp [before, found, same]
    have inside := (List.getElem?_eq_some_iff.mp before).1
    exact (List.getElem?_inj (by simpa using inside) kept.distinct).mp tickets

/-- A call that has returned before is still there. -/
theorem mem_set_of_closed {i ticket : Nat} {c : Registration}
    (found : r.calls[i]? = some ⟨ticket, none⟩) (call : c ∈ r.calls) (closed : c.outcome ≠ none)
    (changed : Registration) : c ∈ r.calls.set i changed := by
  obtain ⟨k, here⟩ := List.mem_iff_getElem?.mp call
  refine List.mem_of_getElem? (i := k) ?_
  rw [List.getElem?_set_ne, here]
  rintro rfl
  cases here.symm.trans found
  exact closed rfl

/-- What a poll decides about a call. -/
theorem pollRegistration_some {s after : Service} {j : Journal} {expired : Bool} {ticket : Nat}
    {outcome : Except ServiceError Nat}
    (polled : s.pollRegistration j expired ticket = some (after, outcome)) :
    after.core = s.core.modifyCell ticket Cell.dropPending ∧
      ((∃ id, outcome = .ok id ∧ after.writers = s.writers ++ [id] ∧
        Cell.valueAt s.core.cells ticket = some (.writer id)) ∨
      ((∃ e, outcome = .error e) ∧ after.writers = s.writers)) := by
  obtain ⟨answer, answered, taken⟩ := Option.map_eq_some_iff.mp polled
  match answer, answered, taken with
  | .ok (.writer id), answered, rfl =>
    exact ⟨rfl, .inl ⟨id, rfl, rfl, PacedLoad.Service.answer_ok answered⟩⟩
  | .ok (.time t), _, rfl => exact ⟨rfl, .inr ⟨⟨_, rfl⟩, rfl⟩⟩
  | .error e, _, rfl => exact ⟨rfl, .inr ⟨⟨_, rfl⟩, rfl⟩⟩

/-- No call changes its ticket. -/
theorem tickets_set {i ticket : Nat} (found : r.calls[i]? = some ⟨ticket, none⟩)
    (outcome : Option (Except ServiceError Nat)) :
    (r.calls.set i ⟨ticket, outcome⟩).map Registration.ticket =
      r.calls.map Registration.ticket := by
  rw [List.map_set]
  exact set_of_getElem? (by simp [found])

theorem mem_set_ticket {i ticket t : Nat} (found : r.calls[i]? = some ⟨ticket, none⟩)
    (outcome : Option (Except ServiceError Nat)) (mine : ∃ c ∈ r.calls, c.ticket = t) :
    ∃ c ∈ r.calls.set i ⟨ticket, outcome⟩, c.ticket = t := by
  obtain ⟨c, call, rfl⟩ := mine
  have member := List.mem_map_of_mem (f := Registration.ticket) call
  rw [← tickets_set found outcome] at member
  exact List.mem_map.mp member

/-- A call that returns a writer returns the place of its registration. -/
theorem Kept.returned_of_poll (kept : Kept r) {ticket id : Nat} {expired : Bool} {service : Service}
    (polled : r.service.pollRegistration r.journal expired ticket = some (service, .ok id)) :
    r.processed[id]? = some ticket := by
  rcases (pollRegistration_some polled).2 with ⟨_, same, -, value⟩ | ⟨⟨_, failed⟩, -⟩
  · cases same
    exact kept.answered ticket id value
  · cases failed

/-- The calls that have returned a writer, with the one that does now. -/
theorem Kept.owner_set_iff (kept : Kept r) {i ticket : Nat} {outcome : Except ServiceError Nat}
    (found : r.calls[i]? = some ⟨ticket, none⟩) (id : Nat) :
    (∃ c ∈ r.calls.set i ⟨ticket, some outcome⟩, c.outcome = some (.ok id)) ↔
      id ∈ r.service.writers ∨ outcome = .ok id := by
  rw [kept.owners]
  constructor
  · rintro ⟨c, call, ok⟩
    rcases kept.mem_set found call with rfl | ⟨before, -⟩
    · exact .inr (Option.some.inj ok)
    · exact .inl ⟨c, before, ok⟩
  · rintro (⟨c, call, ok⟩ | rfl)
    · exact ⟨c, mem_set_of_closed found call (by simp [ok]) _, ok⟩
    · exact ⟨_, List.mem_set (List.getElem?_eq_some_iff.mp found).1 _, rfl⟩

/-- Two calls can not have the same writer, since each ticket is processed once. -/
theorem Kept.unowned_place (kept : Kept r) {i ticket id : Nat}
    (found : r.calls[i]? = some ⟨ticket, none⟩) (place : r.processed[id]? = some ticket) :
    id ∉ r.service.writers := by
  intro owner
  obtain ⟨c, call, ok⟩ := (kept.owners id).mp owner
  have same := (kept.returned c call id ok).symm.trans place
  cases List.inj_on_of_nodup_map kept.distinct call (List.mem_of_getElem? found)
    (Option.some.inj same)
  cases ok

/-- A call returns. -/
theorem Kept.returns (kept : Kept r) {i ticket : Nat} {expired : Bool} {service : Service}
    {outcome : Except ServiceError Nat} (found : r.calls[i]? = some ⟨ticket, none⟩)
    (polled : r.service.pollRegistration r.journal expired ticket = some (service, outcome)) :
    Kept { r with service, calls := r.calls.set i ⟨ticket, some outcome⟩ } := by
  obtain ⟨dropped, verdict⟩ := pollRegistration_some polled
  have values : Cell.valueAt service.core.cells = Cell.valueAt r.core.cells := by
    rw [dropped]
    exact Cell.valueAt_modify Cell.dropPending (fun _ => rfl) _ _
  have queue : service.core.queue = r.core.queue := by rw [dropped]; rfl
  have worker : service.core.worker = r.core.worker := by rw [dropped]; rfl
  have length : service.core.cells.length = r.core.cells.length := by
    rw [dropped]
    exact List.length_modify _ _ _
  have grown : ∀ w ∈ r.service.writers, w ∈ service.writers := by
    intro w owner
    rcases verdict with ⟨id, -, writers, -⟩ | ⟨-, writers⟩ <;> simp [writers, owner]
  constructor
  case distinct =>
    rw [tickets_set found]
    exact kept.distinct
  case bounded =>
    intro c call
    simp only [core, length]
    rcases kept.mem_set found call with rfl | ⟨before, -⟩
    · exact kept.bounded ⟨ticket, none⟩ (List.mem_of_getElem? found)
    · exact kept.bounded c before
  case asked =>
    simp only [core, queue, length]
    exact kept.asked
  case lined =>
    simp only [core, queue]
    exact kept.lined
  case ours =>
    simp only [core, queue]
    exact fun t member => mem_set_ticket found _ (kept.ours t member)
  case numbered =>
    simp only [state, core, worker]
    exact kept.numbered
  case answered =>
    simp only [core, values]
    exact kept.answered
  case returned =>
    intro c call id ok
    rcases kept.mem_set found call with rfl | ⟨before, -⟩
    · cases ok
      exact kept.returned_of_poll polled
    · exact kept.returned c before id ok
  case waiting =>
    intro c call waits
    rcases kept.mem_set found call with rfl | ⟨before, other⟩
    · cases waits
    · obtain ⟨queued, answered⟩ := kept.waiting c before waits
      refine ⟨fun member => ?_, fun id done => ?_⟩
      · simp only [core, queue] at member
        simp only [core, dropped]
        exact getElem?_modify_other (Ne.symm other) (queued member)
      · simp only [core, values]
        exact answered id done
  case handles =>
    rcases verdict with ⟨id, rfl, writers, -⟩ | ⟨-, writers⟩
    · simp only [writers]
      refine List.nodup_append.mpr ⟨kept.handles, List.pairwise_singleton _ _, ?_⟩
      rintro a owner b here rfl
      cases List.mem_singleton.mp here
      exact kept.unowned_place found (kept.returned_of_poll polled) owner
    · simp only [writers]
      exact kept.handles
  case owners =>
    intro id
    rw [kept.owner_set_iff found]
    rcases verdict with ⟨id', rfl, writers, -⟩ | ⟨⟨e, rfl⟩, writers⟩
    · simp [writers, eq_comm]
    · simp [writers]
  case authors =>
    intro m member w author
    simp only [core, queue] at member
    exact grown w (kept.authors m member w author)
  case untouched =>
    intro w writer free here
    simp only [state, core, worker] at here
    exact kept.untouched w writer (fun owner => free (grown w owner)) here
  case shown =>
    simp only [core, worker]
    exact kept.shown

/-! ## The worker takes a message -/

/-- The worker answers the ticket of a request and nothing else. -/
theorem receive_ticket {now : Instant} {w : Worker Coordinator} {j : Journal} (m : Letter) :
    (w.receive duty now j m).2.2.map Prod.fst = m.ticket? := by
  cases m with
  | event e =>
    simp only [Worker.receive, duty, Bookkeeping.apply_state]
    cases Coordinator.apply w.state.state e <;> rfl
  | request r ticket => cases r <;> rfl
  | terminate n =>
    simp only [Worker.receive]
    cases w.expected <;> rfl

structure Delivered (r after : Registry) (m : Letter) (rest : List Letter) : Prop where
  oldest : r.core.queue = m :: rest
  processed : after.processed = r.processed ++ (enrols? m).toList
  calls : after.calls = r.calls
  handles : after.service.writers = r.service.writers
  state : after.state = (Bookkeeping.heed r.state m).getD r.state
  shown : r.core.worker.state.Shown → after.core.worker.state.Shown
  length : after.core.cells.length = r.core.cells.length
  /-- Only a registration is answered with a writer. -/
  answer : ∀ t id, Cell.valueAt after.core.cells t = some (.writer id) →
    Cell.valueAt r.core.cells t = some (.writer id) ∨
      (m = .request .register t ∧ id = r.state.writers.length)
  answered : ∀ t, m = .request .register t → r.core.cells[t]? = some Cell.fresh →
    Cell.valueAt after.core.cells t = some (.writer r.state.writers.length)
  others : ∀ t, m.ticket? ≠ some t →
    Cell.valueAt after.core.cells t = Cell.valueAt r.core.cells t
  /-- A worker that stops leaves the rest of the queue behind. -/
  queue : after.core.queue = [] ∨ (after.core.queue = rest ∧
    ∀ t, m.ticket? ≠ some t → after.core.cells[t]? = r.core.cells[t]?)

/-- A worker that runs takes the oldest message. -/
theorem delivered_received (running : r.core.isOpen = true) {m : Letter} {rest : List Letter}
    (oldest : r.core.queue = m :: rest) : Delivered r r.delivered m rest := by
  obtain ⟨w, k, given, received⟩ :
      ∃ w k given, r.core.worker.receive duty .first r.journal m = (w, k, given) :=
    ⟨_, _, _, rfl⟩
  have took := PacedLoad.Service.deliver_received running oldest received
  have core : r.delivered.core = _ := congrArg Prod.fst took
  have ticket : given.map Prod.fst = m.ticket? := by
    rw [← receive_ticket m, received]
  have resolved : ∀ t, m.ticket? ≠ some t →
      (Cell.resolveAll r.core.cells given.toList)[t]? = r.core.cells[t]? := by
    intro t other
    refine Cell.resolveAll_other _ fun member => other ?_
    obtain ⟨answer, inside, rfl⟩ := List.mem_map.mp member
    rw [← ticket, Option.mem_toList.mp inside, Option.map_some]
  have values : Cell.valueAt r.delivered.core.cells =
      Cell.valueAt (Cell.resolveAll r.core.cells given.toList) := by
    simp only [core]
    split
    · rfl
    · exact PacedLoad.Service.abandon_values _ _
  constructor
  case oldest => exact oldest
  case processed => simp [delivered, next?, running, oldest]
  case calls => rfl
  case handles => rfl
  case state =>
    simp only [state, core]
    have stepped := (@receive_state State _ .first r.core.worker r.journal m).1
    rwa [received] at stepped
  case shown =>
    intro before
    simp only [core]
    have shows := @receive_shown _ _ .first _ r.journal m before
    rwa [received] at shows
  case length =>
    have one : (Cell.resolveAll r.core.cells given.toList).length = r.core.cells.length := by
      cases given with
      | none => rfl
      | some answer => exact List.length_modify _ _ _
    simp only [core]
    split
    · exact one
    · rw [PacedLoad.Service.abandon_length, one]
  case answer =>
    intro t id value
    have held : Cell.valueAt (r.core.deliver duty .first r.journal).1.cells t =
        some (.writer id) := value
    exact (PacedLoad.Service.deliver_values running oldest held).imp_right receive_answer
  case answered =>
    rintro t rfl fresh
    rw [values]
    cases received
    refine (Cell.valueAt_resolveAll ?_ fresh (List.mem_singleton.mpr rfl)).trans
      (Cell.arriving_of_pending fresh rfl _)
    exact List.nodup_singleton _
  case others =>
    intro t other
    rw [values, Cell.valueAt, resolved t other]
    rfl
  case queue =>
    simp only [core]
    split
    · exact .inr ⟨rfl, resolved⟩
    · exact .inl rfl

/-- The worker takes the oldest message, if there is one and it has not stopped. -/
theorem delivered_or (r : Registry) :
    r.delivered = r ∨ ∃ m rest, Delivered r r.delivered m rest := by
  cases running : r.core.isOpen with
  | false =>
    left
    have stopped : r.core.deliver duty .first r.journal = (r.core, r.journal) :=
      PacedLoad.Service.deliver_closed running
    simp [delivered, Service.deliver, stopped, next?, running]
  | true =>
    cases oldest : r.core.queue with
    | nil =>
      left
      simp [delivered, Service.deliver, PacedLoad.Service.deliver, next?, oldest, running]
    | cons m rest => exact .inr ⟨m, rest, delivered_received running oldest⟩

/-- What is left in the queue was there before. -/
theorem Delivered.sublist {m : Letter} {rest : List Letter} (taken : Delivered r after m rest) :
    after.core.queue.Sublist rest := by
  rcases taken.queue with empty | ⟨same, -⟩
  · rw [empty]
    exact List.nil_sublist _
  · rw [same]

/-- The tickets of the registrations that the worker has processed and of all requests that are
still ahead of it. -/
theorem Delivered.line {m : Letter} {rest : List Letter} (taken : Delivered r after m rest) :
    (after.processed ++ after.core.queue.filterMap ticket?).Sublist
      (r.processed ++ r.core.queue.filterMap ticket?) := by
  have head : (enrols? m).toList.Sublist m.ticket?.toList := by
    cases known : enrols? m with
    | none => exact List.nil_sublist _
    | some ticket => rw [ticket?_of_enrols? known]
  rw [taken.processed, taken.oldest, List.append_assoc, filterMap_cons_toList]
  exact (List.Sublist.refl _).append (head.append (taken.sublist.filterMap ticket?))

/-- A ticket that was processed is not that of the message. -/
theorem Delivered.apart {m : Letter} {rest : List Letter} (taken : Delivered r after m rest)
    (kept : Kept r) {t : Nat} (ticket : m.ticket? = some t) :
    t ∉ r.processed ∧ t ∉ rest.filterMap enrols? := by
  have line := kept.lined
  rw [taken.oldest, filterMap_cons_toList, ticket] at line
  obtain ⟨-, ahead, done⟩ := List.nodup_append.mp line
  exact ⟨fun member => done t member t List.mem_cons_self rfl,
    fun member => (List.nodup_cons.mp ahead).1 (mem_ticket?_of_enrols? member)⟩

/-- The place of a registration that has been processed before or just now. -/
theorem Delivered.place {m : Letter} {rest : List Letter} (taken : Delivered r after m rest)
    {t id : Nat} (done : after.processed[id]? = some t) :
    r.processed[id]? = some t ∨ (id = r.processed.length ∧ m = .request .register t) := by
  rw [taken.processed] at done
  cases known : enrols? m with
  | none =>
    rw [known] at done
    exact .inl (by simpa using done)
  | some ticket =>
    rw [known] at done
    refine (getElem?_concat_some done).imp_right fun ⟨last, same⟩ => ⟨last, ?_⟩
    match m, known with
    | .request .register _, rfl => rw [same]

/-- A call that waits finds its answer if the message was its registration. -/
theorem Delivered.awaits {m : Letter} {rest : List Letter} (taken : Delivered r after m rest)
    (kept : Kept r) {c : Registration} (call : c ∈ r.calls) (waits : c.outcome = none) :
    after.Awaits c.ticket := by
  obtain ⟨queued, answered⟩ := kept.waiting c call waits
  rw [taken.oldest, filterMap_cons_toList] at queued
  constructor
  · intro member
    rcases taken.queue with empty | ⟨same, cells⟩
    · rw [empty] at member
      cases member
    · rw [same] at member
      rw [cells c.ticket fun ticket => (taken.apart kept ticket).2 member]
      exact queued (List.mem_append_right _ member)
  · intro id done
    rcases taken.place done with before | ⟨rfl, rfl⟩
    · rw [taken.others c.ticket fun ticket =>
        (taken.apart kept ticket).1 (List.mem_of_getElem? before)]
      exact answered id before
    · rw [taken.answered c.ticket rfl (queued (List.mem_append_left _ List.mem_cons_self)),
        kept.numbered]

/-- The worker takes a message. -/
theorem Kept.deliver {m : Letter} {rest : List Letter} (kept : Kept r)
    (taken : Delivered r after m rest) : Kept after := by
  have ahead : ∀ {m'}, m' ∈ after.core.queue → m' ∈ r.core.queue := by
    intro m' member
    rw [taken.oldest]
    exact List.mem_cons_of_mem _ (taken.sublist.subset member)
  constructor
  case distinct =>
    rw [taken.calls]
    exact kept.distinct
  case bounded =>
    rw [taken.calls, taken.length]
    exact kept.bounded
  case asked =>
    intro t member
    obtain ⟨m', inside, ticket⟩ := List.mem_filterMap.mp member
    rw [taken.length]
    exact kept.asked t (List.mem_filterMap.mpr ⟨m', ahead inside, ticket⟩)
  case lined => exact taken.line.nodup kept.lined
  case ours =>
    intro t member
    rw [taken.calls]
    refine kept.ours t ?_
    rw [taken.processed, List.append_assoc] at member
    rw [taken.oldest, filterMap_cons_toList]
    exact ((List.Sublist.refl _).append ((List.Sublist.refl _).append
      (taken.sublist.filterMap enrols?))).subset member
  case numbered =>
    rw [taken.state, State.heed_length, kept.numbered, taken.processed, List.length_append]
  case answered =>
    intro t id value
    rw [taken.processed]
    rcases taken.answer t id value with before | ⟨rfl, rfl⟩
    · exact getElem?_append_some (kept.answered t id before)
    · simp [kept.numbered, enrols?]
  case returned =>
    intro c call id ok
    rw [taken.calls] at call
    rw [taken.processed]
    exact getElem?_append_some (kept.returned c call id ok)
  case waiting =>
    intro c call waits
    rw [taken.calls] at call
    exact taken.awaits kept call waits
  case handles =>
    rw [taken.handles]
    exact kept.handles
  case owners =>
    rw [taken.handles, taken.calls]
    exact kept.owners
  case authors =>
    rw [taken.handles]
    exact fun m' member => kept.authors m' (ahead member)
  case untouched =>
    intro w writer free found
    rw [taken.handles] at free
    rw [taken.state] at found
    have other : author? m ≠ some w := fun author =>
      free (kept.authors m (by rw [taken.oldest]; exact List.mem_cons_self) w author)
    rcases State.heed_other other found with before | fresh
    · exact kept.untouched w writer free before
    · exact fresh
  case shown => exact taken.shown kept.shown

/-- Every step keeps what holds. -/
theorem Kept.step (kept : Kept r) (step : Step r after) : Kept after := by
  cases step with
  | sends messages plain authors worker queue cells =>
    have silent : messages.filterMap enrols? = [] := by
      refine List.eq_nil_iff_forall_not_mem.mpr fun t member => ?_
      have ticket := mem_ticket?_of_enrols? member
      rw [plain] at ticket
      cases ticket
    exact kept.grow
      { worker, queue, authors
        cells := cells.trans (List.append_nil _).symm
        calls := (List.append_nil _).symm
        processed := rfl
        handles := rfl
        new := .inl rfl
        tickets := .inl plain
        enrolled := by simp [silent]
        call := .inl rfl }
  | asks messages only worker queue cells =>
    exact kept.grow
      { worker, queue, cells
        calls := (List.append_nil _).symm
        processed := rfl
        handles := rfl
        new := .inr rfl
        tickets := by
          rcases only with rfl | rfl
          · exact .inl rfl
          · exact .inr ⟨rfl, rfl⟩
        enrolled := by rcases only with rfl | rfl <;> simp [enrols?]
        authors := by rcases only with rfl | rfl <;> simp [author?]
        call := .inl rfl }
  | calls =>
    exact kept.grow
      { worker := rfl
        queue := rfl
        cells := rfl
        calls := rfl
        processed := rfl
        handles := rfl
        new := .inr rfl
        tickets := .inr ⟨rfl, rfl⟩
        enrolled := by simp [enrols?]
        authors := by simp [author?]
        call := .inr ⟨none, rfl, rfl, by simp⟩ }
  | @fails e =>
    exact kept.grow
      { worker := rfl
        queue := (List.append_nil _).symm
        cells := rfl
        calls := rfl
        processed := rfl
        handles := rfl
        new := .inr rfl
        tickets := .inl rfl
        enrolled := by simp
        authors := by simp
        call := .inr ⟨some (.error e), rfl, rfl, by simp⟩ }
  | returns found polled => exact kept.returns found polled
  | delivers =>
    rcases r.delivered_or with same | ⟨m, rest, taken⟩
    · rw [same]
      exact kept
    · exact kept.deliver taken

end Registry

end PacedLoad.Watermark
