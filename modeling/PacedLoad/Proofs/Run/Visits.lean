import PacedLoad.Proofs.Run.Accounting
import PacedLoad.Proofs.Run.Closing
import PacedLoad.Proofs.Run.Counting
import PacedLoad.Run.Visits

/-!
# Runs with visitors, move by move

A visitor adds at most one letter to the queue of the completion time service.  As long
as no visitor uses a writer of the driver, the letters of the driver and its handlers
mean what they mean in a run without visitors; those of others come in between.
-/

namespace PacedLoad

open Handler Watermark

variable {β σ : Type}

namespace Run

/-- The writer through which a visitor announces or completes a time. -/
def Visit.writer? : Visit → Option Nat
  | .initiated writer _ | .completed writer _ => some writer
  | _ => none

def Move.foreign : Move → Bool
  | .own c => c.talks
  | .visit _ => true

@[inherit_doc Visit.writer?]
def Move.writer? : Move → Option Nat
  | .own _ => none
  | .visit v => v.writer?

def Apart (moves : List Move) (writers : List Nat) : Prop :=
  ∀ m ∈ moves, ∀ w ∈ writers, m.writer? ≠ some w

/-- The letter that the worker of the completion time service takes in a move. -/
def takenIn (s : Run β σ) : Move → List Letter
  | .own c => s.takenBy c
  | .visit _ => []

/-- The letters that the worker takes during several moves, the oldest first. -/
def taken [Bookkeeping σ] (s : Run β σ) : List Move → List Letter
  | [] => []
  | m :: rest =>
    match s.act m with
    | some t => s.takenIn m ++ t.taken rest
    | none => []

/-- The letters that are sent during several moves, the oldest first, each with the move that sends
it. -/
def sent [Bookkeeping σ] (s : Run β σ) : List Move → List (Move × Letter)
  | [] => []
  | m :: rest =>
    match s.act m with
    | some t =>
      (t.floor.watermark.core.queue.drop s.floor.watermark.core.queue.length).map (m, ·) ++
        t.sent rest
    | none => []

section Moves

variable [Bookkeeping σ] {s t : Run β σ} {earlier later moves : List Move} {m : Move}

theorem acts_eq (s : Run β σ) (moves : List Move) : s.acts moves = moves.foldlM act s := by
  induction moves generalizing s with
  | nil => rfl
  | cons m rest ih =>
    rw [acts, List.foldlM_cons]
    exact congrArg (s.act m).bind (funext ih)

theorem acts_append (s : Run β σ) (earlier later : List Move) :
    s.acts (earlier ++ later) = (s.acts earlier).bind (·.acts later) := by
  simp only [acts_eq, List.foldlM_append]
  rfl

theorem taken_append (s : Run β σ) (earlier later : List Move) :
    s.taken earlier <+: s.taken (earlier ++ later) := by
  induction earlier generalizing s with
  | nil => exact List.nil_prefix
  | cons m rest ih =>
    simp only [List.cons_append, taken]
    cases s.act m with
    | none => exact List.prefix_rfl
    | some t => exact (List.prefix_append_right_inj _).mpr (ih t)

end Moves

/-! ## One visit -/

section Visit

variable {s : Run β σ}

/-- A request of a visitor is sent, or the worker has stopped. -/
theorem ask_outline (s : Run β σ) (told : List Sent) (r : Request) :
    let asked := s.withWatermark (s.floor.watermark.ask s.journal r).1
    asked.outline told = s.outline told ∨
      ∃ ticket, s.floor.watermark.core.isOpen = true ∧
        asked.outline told = (s.outline told).post (.request r ticket) := by
  cases running : s.floor.watermark.core.isOpen with
  | true =>
    obtain ⟨ticket, watermark, asked, -, after⟩ := asked_outline s told r running
    rw [asked]
    exact .inr ⟨ticket, rfl, after s.stage⟩
  | false =>
    obtain ⟨e, watermark, asked, after⟩ := unasked_outline s told r running
    rw [asked]
    exact .inl (after s.stage)

/-- An event of a visitor is sent, or the worker has stopped. -/
theorem event_outline (s : Run β σ) (told : List Sent) (e : Watermark.Event) :
    let submitted := s.withWatermark { s.floor.watermark with
      core := (s.floor.watermark.core.submit s.journal e).1 }
    submitted.outline told = s.outline told ∨
      s.floor.watermark.core.isOpen = true ∧
        submitted.outline told = (s.outline told).post (.event e) := by
  cases running : s.floor.watermark.core.isOpen with
  | true =>
    rw [Service.submit_of_open running]
    exact .inr ⟨rfl, rfl⟩
  | false =>
    rw [Service.submit_of_closed running]
    exact .inl rfl

/-- A visit leaves the run as it is, or sends one letter. -/
theorem visited_outline (s : Run β σ) (told : List Sent) (v : Visit) :
    (s.visited v).outline told = s.outline told ∨
      ∃ m, s.floor.watermark.core.isOpen = true ∧
        (s.visited v).outline told = (s.outline told).post m ∧
        ∀ e, m = .event e →
          ∃ w t, v.writer? = some w ∧ (e = .initiated w t ∨ e = .completed w t) := by
  cases v with
  | register =>
    rcases s.ask_outline told .register with unsent | ⟨ticket, running, sent⟩
    · exact .inl unsent
    · exact .inr ⟨_, running, sent, fun e same => by cases same⟩
  | read =>
    rcases s.ask_outline told .read with unsent | ⟨ticket, running, sent⟩
    · exact .inl unsent
    · exact .inr ⟨_, running, sent, fun e same => by cases same⟩
  | registered expired ticket =>
    refine .inl ?_
    simp only [visited]
    split
    next watermark r polled =>
      obtain ⟨worker, queue, values, -⟩ := pollRegistration_some polled
      simp only [outline, withWatermark, worker, queue, values]
    next => rfl
  | wasRead expired ticket =>
    refine .inl ?_
    simp only [visited]
    split
    next watermark r polled =>
      obtain ⟨answer, -, mapped⟩ := Option.map_eq_some_iff.mp polled
      cases mapped
      have values : Cell.valueAt (s.floor.watermark.core.modifyCell ticket Cell.dropPending).cells =
          Cell.valueAt s.floor.watermark.core.cells :=
        Cell.valueAt_modify Cell.dropPending (fun _ => rfl) _ _
      simp only [outline, withWatermark, values]
      rfl
    next => rfl
  | initiated writer time =>
    simp only [visited, Watermark.Service.submitInitiated, Service.submitWhileUp]
    split
    next => exact .inl rfl
    next =>
      rcases s.event_outline told (.initiated writer time) with unsent | ⟨running, sent⟩
      · exact .inl unsent
      · refine .inr ⟨_, running, sent, fun e same => ?_⟩
        cases same
        exact ⟨writer, time, rfl, .inl rfl⟩
  | completed writer time =>
    rcases s.event_outline told (.completed writer time) with unsent | ⟨running, sent⟩
    · exact .inl unsent
    · refine .inr ⟨_, running, sent, fun e same => ?_⟩
      cases same
      exact ⟨writer, time, rfl, .inr rfl⟩
  | shutdown =>
    obtain ⟨watermark, r, begun, worker, cells, ⟨-, queue⟩ | ⟨-, running, queue⟩⟩ :=
      beginShutdown_cases s.floor.watermark s.journal
    · refine .inl ?_
      simp only [visited, begun, outline, withWatermark, worker, cells, queue]
    · refine .inr ⟨.terminate s.floor.watermark.core.counted, running, ?_,
        fun e same => by cases same⟩
      simp only [visited, begun, outline, withWatermark, Outline.post, worker, cells, queue]

/-- A visit is a call of a client, which may stop the service. -/
theorem visited_service (s : Run β σ) (v : Visit) :
    s.floor.watermark.core.Called (s.visited v).floor.watermark.core ∨
      s.floor.watermark.core.Closes (s.visited v).floor.watermark.core := by
  have silent : s.floor.watermark.core.Called s.floor.watermark.core :=
    Service.called_silent rfl rfl rfl
  cases v with
  | register => exact .inl (Watermark.Service.called_ask _ _ _)
  | read => exact .inl (Watermark.Service.called_ask _ _ _)
  | registered expired ticket =>
    refine .inl ?_
    simp only [visited]
    split
    next polled => exact Watermark.Service.called_pollRegistration polled
    next => exact silent
  | wasRead expired ticket =>
    refine .inl ?_
    simp only [visited]
    split
    next polled => exact Watermark.Service.called_pollReading polled
    next => exact silent
  | initiated writer time => exact .inl (Service.called_submitWhileUp _ _ _)
  | completed writer time => exact .inl (Service.called_submit _ _ _)
  | shutdown =>
    rcases s.floor.watermark.beginShutdown_closes s.journal with
      ⟨-, after, begun, same⟩ | ⟨after, r, begun, closes, -⟩
    · refine .inl ?_
      simp only [visited, begun, withWatermark, same]
      exact silent
    · refine .inr ?_
      simp only [visited, begun, withWatermark]
      exact closes

end Visit

end Run

namespace Outline

variable {operations : List (Except Rows.DecodingError Operation)} {peers : List String}
  {mine : Nat → Bool} {taken : List Letter} {o after : Outline β Board} {m : Letter}

/-- A letter of somebody who uses other writers. -/
theorem Kept.post (kept : Kept operations peers mine taken o) (running : o.worker.phase = .running)
    (foreign : ∀ w t, mine w = true →
      m ≠ .event (.initiated w t) ∧ m ≠ .event (.completed w t)) :
    Kept operations peers mine taken (o.post m) where
  fed := kept.fed.congr rfl rfl rfl rfl rfl rfl id
  reported := ⟨kept.reported.sound, kept.reported.told⟩
  counted :=
    { kept.counted with
      corresponds :=
        kept.counted.corresponds.silent kept.counted.corresponds.barred running rfl rfl foreign }

/-- What the driver and its handlers announce and complete, they do through the driver's writers. -/
theorem Step.letters (step : Step false o after) (handed : ∀ x ∈ o.initiated, x.1 ∈ o.writers)
    {e : Watermark.Event} (sent : .event e ∈ after.queue.drop o.queue.length) :
    ∃ w ∈ o.writers, ∃ t, e = .initiated w t ∨ e = .completed w t := by
  cases step with
  | @announce op writer here turn =>
    refine ⟨writer, List.mem_of_getElem? turn, op.scheduledStart, .inl ?_⟩
    simpa [Outline.post] using sent
  | @complete k t found needs =>
    have place : (t.writer, start t) ∈ o.initiated :=
      List.mem_map_of_mem (List.mem_append_left _
        (List.mem_map_of_mem (List.mem_of_getElem? found)))
    refine ⟨t.writer, handed _ place, start t, .inr ?_⟩
    simpa [Outline.post, advance, start] using sent
  | wind past running harmless =>
    rcases harmless with ⟨ticket, rfl⟩ | ⟨n, rfl⟩ <;> simp [Outline.post] at sent
  | deliver running oldest =>
    dsimp only at sent
    rw [oldest, drop_left] at sent
    cases sent
  | peer talks => cases talks
  | _ => simp [Outline.post, advance] at sent

end Outline

namespace Run

/-- What holds of a run with visitors after the letters `sent` were sent and the letters `taken` were
taken. -/
structure Attended (operations : List (Except Rows.DecodingError Operation)) (peers : List String)
    (mine : Nat → Bool) (sent : List (Move × Letter)) (taken : List Letter) (told : List Sent)
    (s : Run β Board) : Prop where
  kept : Outline.Kept operations peers mine taken (s.outline told)
  sealed : s.floor.watermark.core.Sealed
  ordered : s.floor.watermark.core.isOpen = true →
    sent.map Prod.snd = taken ++ s.floor.watermark.core.queue
  handed : ∀ x ∈ (s.outline told).initiated, x.1 ∈ s.writers
  own : ∀ x ∈ sent, x.1.foreign = false → ∀ e, x.2 = .event e →
    ∃ w ∈ s.writers, ∃ t, e = .initiated w t ∨ e = .completed w t

variable {operations : List (Except Rows.DecodingError Operation)} {peers : List String}
  {mine : Nat → Bool} {posted : List (Move × Letter)} {took : List Letter} {told : List Sent}
  {s t : Run β Board} {c : Choice} {v : Visit} {m : Move} {moves : List Move}

/-- The letters that a visit sends. -/
theorem Attended.visit (attended : Attended operations peers mine posted took told s)
    (apart : ∀ w, v.writer? = some w → mine w = false) :
    Attended operations peers mine
      (posted ++ ((s.visited v).floor.watermark.core.queue.drop
        s.floor.watermark.core.queue.length).map (.visit v, ·)) took told (s.visited v) := by
  have sealed : (s.visited v).floor.watermark.core.Sealed :=
    (s.visited_service v).elim (·.sealed attended.sealed) (·.sealed attended.sealed)
  have own : ∀ x ∈ posted ++ ((s.visited v).floor.watermark.core.queue.drop
        s.floor.watermark.core.queue.length).map (Move.visit v, ·),
      x.1.foreign = false → ∀ e, x.2 = .event e →
        ∃ w ∈ s.writers, ∃ t, e = .initiated w t ∨ e = .completed w t := by
    intro x member serves
    rcases List.mem_append.mp member with before | now
    · exact attended.own x before serves
    · obtain ⟨m, -, rfl⟩ := List.mem_map.mp now
      cases serves
  rcases s.visited_outline told v with same | ⟨m, running, posts, sender⟩
  · have queue : (s.visited v).floor.watermark.core.queue = s.floor.watermark.core.queue :=
      congrArg Outline.queue same
    have worker : (s.visited v).floor.watermark.core.worker = s.floor.watermark.core.worker :=
      congrArg Outline.worker same
    have writers : (s.visited v).writers = s.writers := congrArg Outline.writers same
    refine ⟨same ▸ attended.kept, sealed, ?_, ?_, writers ▸ own⟩
    · rw [queue, List.drop_length, List.map_nil, List.append_nil, Service.isOpen, worker]
      exact attended.ordered
    · rw [same, writers]
      exact attended.handed
  · have queue : (s.visited v).floor.watermark.core.queue =
        s.floor.watermark.core.queue ++ [m] := congrArg Outline.queue posts
    have writers : (s.visited v).writers = s.writers := congrArg Outline.writers posts
    refine ⟨?_, sealed, fun _ => ?_, ?_, writers ▸ own⟩
    · rw [posts]
      refine attended.kept.post (Service.isOpen_iff.mp running) fun w t ours => ⟨?_, ?_⟩ <;>
      · rintro rfl
        obtain ⟨w', t', writer, same | same⟩ := sender _ rfl <;> cases same
        rw [apart w writer] at ours
        cases ours
    · rw [queue, List.drop_left, List.map_append, attended.ordered running]
      simp
    · rw [posts, writers]
      exact attended.handed

/-- What a move other than the worker's does to the worker and its queue. -/
theorem step_sends (told : List Sent) (moved : s.step c = some t) (other : c ≠ .watermark) :
    s.takenBy c = [] ∧ s.floor.watermark.core.queue <+: t.floor.watermark.core.queue ∧
      t.floor.watermark.core.worker = s.floor.watermark.core.worker := by
  have grown := (step_regards moved other).grown
  refine ⟨?_, grown, ((step_outline told moved).rests grown).1⟩
  cases c <;> first | rfl | exact absurd rfl other

/-- The letters that a move of the run itself sends and takes. -/
theorem Attended.step (attended : Attended operations peers mine posted took told s)
    (own : ∀ w ∈ s.writers, mine w = true) (few : FewCopiesAt mine peers (callsOf took))
    (moved : s.step c = some t) :
    Attended operations peers mine
      (posted ++ (t.floor.watermark.core.queue.drop s.floor.watermark.core.queue.length).map
        (.own c, ·)) (took ++ s.takenBy c) (told ++ s.heardFrom t c) t := by
  have step := step_outline told moved
  refine ⟨kept_step attended.kept own few moved, ?_, fun running => ?_, fun x place => ?_,
    fun x member serves e letter => ?_⟩
  · have account : Account.Step operations (s.account []) (t.account ([] ++ s.collectedBy c)) :=
      step_account attended.kept.fed moved
    rcases account.service with called | closes | delivers
    · exact called.sealed attended.sealed
    · exact closes.sealed attended.sealed
    · rw [show t.floor.watermark.core = _ from delivers]
      exact Service.sealed_deliver _ _ _ attended.sealed
  · by_cases worker : c = .watermark
    · subst worker
      cases before : s.floor.watermark.core.isOpen with
      | true =>
        obtain ⟨m, rest, single, delivery⟩ := delivery_of_step told moved before
        have oldest : s.floor.watermark.core.queue = m :: rest := delivery.oldest
        have queue : t.floor.watermark.core.queue = rest :=
          delivery.queue.trans (if_pos (Service.isOpen_iff.mp running))
        rw [List.map_append, attended.ordered before, single, oldest, queue]
        simp
      | false =>
        obtain ⟨-, core⟩ := step_watermark moved
        rw [core, Service.deliver_closed before, before] at running
        cases running
    · obtain ⟨none, ⟨more, queue⟩, rests⟩ := step_sends told moved worker
      rw [Service.isOpen, rests] at running
      rw [none, ← queue, List.drop_left, List.map_append, attended.ordered running]
      simp
  · rcases step.places attended.kept.counted.corresponds.barred place with before | turn
    · exact step.writers_grow (attended.handed x before)
    · exact step.writers_grow turn
  · rcases List.mem_append.mp member with before | now
    · obtain ⟨w, mine, found⟩ := attended.own x before serves e letter
      exact ⟨w, step.writers_grow mine, found⟩
    · obtain ⟨m, posted, rfl⟩ := List.mem_map.mp now
      dsimp only at letter
      rw [letter] at posted
      change c.talks = false at serves
      rw [serves] at step
      obtain ⟨w, mine, found⟩ := step.letters attended.handed posted
      exact ⟨w, step.writers_grow mine, found⟩

/-- No writer of the driver is given back. -/
theorem writers_of_act (moved : s.act m = some t) {w : Nat} (used : w ∈ s.writers) :
    w ∈ t.writers := by
  cases m with
  | own c => exact (step_outline [] moved).writers_grow used
  | visit v =>
    cases moved
    have same : (s.visited v).writers = s.writers := by
      rcases s.visited_outline [] v with same | ⟨m, -, posts, -⟩
      · exact congrArg Outline.writers same
      · exact congrArg Outline.writers posts
    rw [same]
    exact used

@[inherit_doc writers_of_act]
theorem writers_of_acts (ran : s.acts moves = some t) {w : Nat} (used : w ∈ s.writers) :
    w ∈ t.writers := by
  induction moves generalizing s with
  | nil =>
    cases ran
    exact used
  | cons m rest ih =>
    obtain ⟨u, moved, ran⟩ := Option.bind_eq_some_iff.mp ran
    exact ih ran (writers_of_act moved used)

/-- What holds is kept as long as no visitor uses a writer that is `mine`. -/
theorem attended_of_acts (attended : Attended operations peers mine posted took told s)
    (ran : s.acts moves = some t) (own : ∀ w ∈ t.writers, mine w = true)
    (apart : ∀ v w, .visit v ∈ moves → v.writer? = some w → mine w = false)
    (few : FewCopiesAt mine peers (callsOf (took ++ s.taken moves))) :
    ∃ told', Attended operations peers mine (posted ++ s.sent moves) (took ++ s.taken moves) told'
      t := by
  induction moves generalizing s posted took told with
  | nil =>
    cases ran
    exact ⟨told, by simpa [taken, sent] using attended⟩
  | cons m rest ih =>
    obtain ⟨u, moved, later⟩ := Option.bind_eq_some_iff.mp ran
    have apart' : ∀ v w, .visit v ∈ rest → v.writer? = some w → mine w = false :=
      fun v w member => apart v w (List.mem_cons_of_mem _ member)
    simp only [taken, sent, moved, ← List.append_assoc] at few ⊢
    cases m with
    | own c =>
      have earlier : FewCopiesAt mine peers (callsOf took) := few.of_prefix
        (((List.prefix_append took _).trans (List.prefix_append _ _)).filterMap called)
      refine ih (attended.step (fun w used => ?_) earlier moved) later apart' few
      exact own w (writers_of_acts ran used)
    | visit v =>
      cases moved
      have next := attended.visit fun w => apart v w List.mem_cons_self
      exact ih (by simpa [takenIn] using next) later apart' few

/-- What holds of every run with visitors that was started. -/
theorem attended_of_run {config : Config} {now : Instant}
    {createLog : String → Except FileError Stats.Sink} {work : Work β} {shared : β}
    {s₀ : Run β Board} (started : Run.start config now createLog work shared operations = .ok s₀)
    (ran : s₀.acts moves = some t) (own : ∀ w ∈ t.writers, mine w = true)
    (apart : ∀ v w, .visit v ∈ moves → v.writer? = some w → mine w = false)
    (few : FewCopiesAt mine config.peerIds (callsOf (s₀.taken moves))) :
    ∃ told, Attended operations config.peerIds mine (s₀.sent moves) (s₀.taken moves) told t := by
  have first : Attended operations config.peerIds mine [] [] [] s₀ := by
    have outline := (start_outline started).2
    refine ⟨?_, ?_, fun _ => ?_, ?_, nofun⟩
    · rw [outline]
      exact Outline.kept_first config work mine operations
    · obtain ⟨-, log, rfl⟩ := start_ok started
      exact Service.sealed_start _
    · exact (congrArg Outline.queue outline).symm
    · rw [outline]
      exact nofun
  simpa using attended_of_acts first ran own apart (by simpa using few)

end Run

end PacedLoad
