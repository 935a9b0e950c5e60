import PacedLoad.Proofs.Run.Reports

/-!
# The letters that the worker takes during a run

A ghost list holds the letters that the worker of the completion time service has
taken.  Only the driver asks for the time, once, when nothing is in flight any more;
what it makes of the answer travels with its stages to the report.
-/

namespace PacedLoad

open Handler Watermark

variable {β σ : Type}

namespace Watermark

/-- Whether a letter asks for the global completion time. -/
def reads : Letter → Bool
  | .request .read _ => true
  | _ => false

/-- Letters of which none asks for the global completion time. -/
def Unread (letters : List Letter) : Prop := ∀ m ∈ letters, reads m = false

theorem unread_nil : Unread [] := List.forall_mem_nil _

theorem unread_append {first second : List Letter} :
    Unread (first ++ second) ↔ Unread first ∧ Unread second := List.forall_mem_append

theorem unread_cons {m : Letter} {rest : List Letter} :
    Unread (m :: rest) ↔ reads m = false ∧ Unread rest := List.forall_mem_cons

end Watermark

/-- How far the driver has come with its question for the time. -/
inductive Look
  /-- It will ask. -/
  | ahead
  /-- It waits for the answer. -/
  | asked (ticket : Nat)
  /-- It has the answer. -/
  | seen (gct : Option Instant)
  /-- The run fails. -/
  | failing

def Look.ofEnding {γ : Type} (good : γ → Look) : Except RunError γ → Look
  | .ok a => good a
  | .error _ => .failing

def Stage.look : Stage → Look
  | .pull | .enrol _ | .enrolling .. | .announce _ | .submit .. | .window | .sweep | .check
  | .drain | .readTime => .ahead
  | .interrupt ending | .clear ending => .ofEnding (fun _ => .ahead) ending
  | .readingTime ticket => .asked ticket
  | .stopWatermark ending | .stoppingWatermark ending => .ofEnding .seen ending
  | .readStats gct | .readingStats gct _ => .seen gct
  | .stopStats ending | .stoppingStats ending => .ofEnding (fun r => .seen r.gct) ending
  | .save _ r => .seen r.gct
  | .finished result => .ofEnding (fun r => .seen r.gct) result

namespace Outline

/-- The worker takes the letter `m`. -/
structure Delivery [Bookkeeping σ] (o : Outline β σ) (m : Letter) (rest : List Letter) (j : Journal)
    (after : Outline β σ) : Prop where
  running : o.worker.phase = .running
  oldest : o.queue = m :: rest
  worker : after.worker = (o.worker.receive duty Instant.first j m).1
  queue : after.queue = if after.worker.phase = .running then rest else []
  answers : ∀ ticket a, after.answers ticket = some a → o.answers ticket = some a ∨
    (o.worker.receive duty Instant.first j m).2.2 = some (ticket, a)
  frame : after =
    { o with worker := after.worker, queue := after.queue, answers := after.answers }

/-- A queue whose oldest letter was taken has become shorter. -/
theorem length_left_lt {α : Type} {p : Prop} [Decidable p] (m : α) (rest : List α) :
    (if p then rest else []).length < (m :: rest).length := by
  split <;> simp

theorem not_prefix_left {α : Type} {p : Prop} [Decidable p] (m : α) (rest : List α) :
    ¬ m :: rest <+: if p then rest else [] := fun grown =>
  Nat.not_lt.mpr grown.length_le (length_left_lt m rest)

theorem drop_left {α : Type} {p : Prop} [Decidable p] (m : α) (rest : List α) :
    (if p then rest else []).drop (m :: rest).length = [] :=
  List.drop_eq_nil_of_le (length_left_lt m rest).le

/-- A step that takes no letter out of the queue leaves the worker and the answers alone. -/
theorem Step.rests [Bookkeeping σ] {o after : Outline β σ} {talk : Bool} (step : Step talk o after)
    (grown : o.queue <+: after.queue) :
    after.worker = o.worker ∧ after.answers = o.answers := by
  cases step with
  | deliver running oldest =>
    rw [oldest] at grown
    exact absurd grown (not_prefix_left _ _)
  | _ => exact ⟨rfl, rfl⟩

end Outline

namespace Run

section Moves

variable [Bookkeeping σ] {s t u : Run β σ} {choices earlier later : List Choice} {c : Choice}

/-- What was collected is not given back. -/
theorem collected_append (s : Run β σ) (earlier later : List Choice) :
    s.collected earlier <+: s.collected (earlier ++ later) := by
  induction earlier generalizing s with
  | nil => exact List.nil_prefix
  | cons c rest ih =>
    simp only [List.cons_append, collected]
    cases s.step c with
    | none => exact List.prefix_rfl
    | some t => exact (List.prefix_append_right_inj _).mpr (ih t)

end Moves

/-- A move that leaves what is queued where it is, and does not ask for the time. -/
def Quiet (s t : Run β σ) : Prop :=
  ∃ more, t.floor.watermark.core.queue = s.floor.watermark.core.queue ++ more ∧ Unread more

/-- What a move other than the worker's means for the driver's question. -/
inductive Regards (s t : Run β σ) : Prop
  | keeps (look : t.stage.look = s.stage.look ∨ t.stage.look = .failing) (quiet : Quiet s t)
  /-- The driver asks for the time. -/
  | asks {ticket : Nat} (here : s.stage = .readTime) (there : t.stage = .readingTime ticket)
      (running : s.floor.watermark.core.worker.phase = .running)
      (unanswered : Cell.valueAt s.floor.watermark.core.cells ticket = none)
      (queue : t.floor.watermark.core.queue =
        s.floor.watermark.core.queue ++ [.request .read ticket])
  /-- The driver takes up the answer. -/
  | sees {ticket : Nat} {a : Answer} (here : s.stage = .readingTime ticket)
      (there : t.stage = .stopWatermark (.ok (Watermark.Service.timeOf a)))
      (answered : Cell.valueAt s.floor.watermark.core.cells ticket = some a) (quiet : Quiet s t)

section Driver

variable {s t : Run β σ}

theorem quiet_rests (same : t.floor.watermark.core.queue = s.floor.watermark.core.queue) :
    Quiet s t := ⟨[], by rw [same, List.append_nil], unread_nil⟩

theorem quiet_sends {m : Letter}
    (sent : t.floor.watermark.core.queue = s.floor.watermark.core.queue ++ [m])
    (other : reads m = false) : Quiet s t :=
  ⟨[m], sent, unread_cons.mpr ⟨other, unread_nil⟩⟩

/-- A move that leaves the completion time service alone. -/
theorem regards_rests (same : t.floor.watermark.core.queue = s.floor.watermark.core.queue)
    (look : t.stage.look = s.stage.look ∨ t.stage.look = .failing) : Regards s t :=
  .keeps look (quiet_rests same)

theorem pull_regards (here : s.stage = .pull) : Regards s s.pull := by
  have ahead : s.stage.look = .ahead := by rw [here]; rfl
  unfold pull
  split
  · exact regards_rests rfl (.inl ahead.symm)
  · exact regards_rests rfl (.inr rfl)
  · dsimp only
    split
    · exact regards_rests rfl (.inl ahead.symm)
    · split
      · exact regards_rests rfl (.inr rfl)
      · exact regards_rests rfl (.inl ahead.symm)

theorem enrol_regards {op : Operation} (here : s.stage = .enrol op) : Regards s (s.enrol op) := by
  have ahead : s.stage.look = .ahead := by rw [here]; rfl
  unfold enrol
  split
  · cases running : s.floor.watermark.core.isOpen with
    | true =>
      obtain ⟨ticket, watermark, asked, -, after⟩ := asked_outline s [] .register running
      rw [asked]
      exact .keeps (.inl ahead.symm) (quiet_sends (congrArg Outline.queue (after .pull)) rfl)
    | false =>
      obtain ⟨e, watermark, asked, after⟩ := unasked_outline s [] .register running
      rw [asked]
      exact regards_rests (congrArg Outline.queue (after .pull)) (.inr rfl)
  · exact regards_rests rfl (.inl ahead.symm)

theorem enrolling_regards {op : Operation} {ticket : Nat} (expired : Bool)
    (here : s.stage = .enrolling op ticket) : Regards s (s.enrolling expired op ticket) := by
  have ahead : s.stage.look = .ahead := by rw [here]; rfl
  unfold enrolling
  split
  next => exact regards_rests rfl (.inl rfl)
  next watermark writer polled =>
    exact regards_rests (pollRegistration_some polled).2.1 (.inl ahead.symm)
  next watermark e polled => exact regards_rests (pollRegistration_some polled).2.1 (.inr rfl)

theorem announce_regards {op : Operation} (here : s.stage = .announce op)
    (moved : s.announce op = some t) : Regards s t := by
  have ahead : s.stage.look = .ahead := by rw [here]; rfl
  obtain ⟨writer, -, rfl⟩ := Option.map_eq_some_iff.mp moved
  rcases s.floor.announce_cases op writer with ⟨running, up⟩ |
    ⟨floor, e, refused, -, -, -, queue, -⟩
  · obtain ⟨floor, announced, -, -, core⟩ := Floor.announce_open op writer running up
    rw [announced]
    exact .keeps (.inl ahead.symm) (quiet_sends (congrArg PacedLoad.Service.queue core) rfl)
  · rw [refused]
    exact regards_rests queue (.inr rfl)

theorem submit_regards {op : Operation} {writer : Nat} (here : s.stage = .submit op writer) :
    Regards s (s.submit op writer) := by
  have ahead : s.stage.look = .ahead := by rw [here]; rfl
  unfold submit Floor.submit
  cases s.floor.pool.submit op writer s.work with
  | error e => exact regards_rests rfl (.inr rfl)
  | ok pool => exact regards_rests rfl (.inl ahead.symm)

theorem collected_regards {outcome : Outcome} (taken : s.take = some (outcome, t)) :
    Regards s (t.collect outcome) := by
  obtain ⟨⟨outcome', pool⟩, -, same⟩ := Option.map_eq_some_iff.mp taken
  cases same
  unfold collect
  split
  · split
    · exact regards_rests rfl (.inl rfl)
    · exact regards_rests rfl (.inr rfl)
  · split
    · exact regards_rests rfl (.inr rfl)
    · exact regards_rests rfl (.inl rfl)

theorem next_regards {done : Stage} (onward : done.look = s.stage.look) :
    Regards s (s.next done) := by
  unfold next
  split
  next outcome t taken => exact collected_regards taken
  next =>
    split
    · exact regards_rests rfl (.inl onward)
    · split
      · exact regards_rests rfl (.inr rfl)
      · exact regards_rests rfl (.inl rfl)

theorem clear_regards {ending : Except RunError Unit} (here : s.stage = .clear ending) :
    Regards s (s.clear ending) := by
  unfold clear
  split
  next outcome t taken =>
    obtain ⟨⟨outcome', pool⟩, -, same⟩ := Option.map_eq_some_iff.mp taken
    cases same
    exact regards_rests rfl (.inl rfl)
  next =>
    split
    · cases ending with
      | ok u => exact regards_rests rfl (.inl (by rw [here]; rfl))
      | error e => exact regards_rests rfl (.inr rfl)
    · exact regards_rests rfl (.inl rfl)

theorem readTime_regards (here : s.stage = .readTime) : Regards s s.readTime := by
  unfold readTime
  cases running : s.floor.watermark.core.isOpen with
  | true =>
    obtain ⟨ticket, watermark, asked, unanswered, after⟩ := asked_outline s [] .read running
    rw [asked]
    exact .asks here rfl (Service.isOpen_iff.mp running) unanswered
      (congrArg Outline.queue (after .pull))
  | false =>
    obtain ⟨e, watermark, asked, after⟩ := unasked_outline s [] .read running
    rw [asked]
    exact regards_rests (congrArg Outline.queue (after .pull)) (.inr rfl)

theorem readingTime_regards {ticket : Nat} (expired : Bool) (here : s.stage = .readingTime ticket) :
    Regards s (s.readingTime expired ticket) := by
  unfold readingTime
  cases polled : s.floor.watermark.pollReading s.journal expired ticket with
  | none => exact regards_rests rfl (.inl rfl)
  | some polled' =>
    obtain ⟨answer, answered, rfl⟩ := Option.map_eq_some_iff.mp polled
    cases answer with
    | error e => exact regards_rests rfl (.inr rfl)
    | ok a => exact .sees here rfl (Service.answer_ok answered) (quiet_rests rfl)

/-- The end of the completion time service leaves the question answered. -/
theorem watermarkStopped_look {ending : Except RunError (Option Instant)}
    (on : s.stage.look = .ofEnding .seen ending) (stopped : Except ServiceError Unit) :
    (s.watermarkStopped ending stopped).floor = s.floor ∧
      ((s.watermarkStopped ending stopped).stage.look = s.stage.look ∨
        (s.watermarkStopped ending stopped).stage.look = .failing) := by
  unfold watermarkStopped
  split
  · exact ⟨rfl, .inr rfl⟩
  · exact ⟨rfl, .inl on.symm⟩
  · exact ⟨rfl, .inr rfl⟩

theorem stopWatermark_regards {ending : Except RunError (Option Instant)}
    (here : s.stage = .stopWatermark ending) : Regards s (s.stopWatermark ending) := by
  have on : s.stage.look = .ofEnding .seen ending := by rw [here]; rfl
  have follows {watermark : Watermark.Service σ} {stopped : Except ServiceError Unit}
      (quiet : Quiet s (s.withWatermark watermark)) :
      Regards s ((s.withWatermark watermark).watermarkStopped ending stopped) := by
    obtain ⟨floor, look⟩ := watermarkStopped_look (s := s.withWatermark watermark) on stopped
    refine .keeps look ?_
    unfold Quiet
    rw [floor]
    exact quiet
  have sends (watermark : Watermark.Service σ) (r : Except ServiceError Bool)
      (begun : s.floor.watermark.beginShutdown s.journal = (watermark, r)) :
      Quiet s (s.withWatermark watermark) := by
    obtain ⟨watermark', r', begun', -, -, ⟨-, queue⟩ | ⟨-, -, queue⟩⟩ :=
      beginShutdown_cases s.floor.watermark s.journal
    · cases begun.symm.trans begun'
      exact quiet_rests queue
    · cases begun.symm.trans begun'
      exact quiet_sends queue rfl
  unfold stopWatermark
  split
  next watermark begun => exact .keeps (.inl on.symm) (sends watermark _ begun)
  next watermark begun => exact follows (sends watermark _ begun)
  next watermark e begun => exact follows (sends watermark _ begun)

theorem stoppingWatermark_regards {ending : Except RunError (Option Instant)} (expired : Bool)
    (here : s.stage = .stoppingWatermark ending) :
    Regards s (s.stoppingWatermark expired ending) := by
  have on : s.stage.look = .ofEnding .seen ending := by rw [here]; rfl
  unfold stoppingWatermark
  split
  next => exact regards_rests rfl (.inl rfl)
  next r polled =>
    obtain ⟨floor, look⟩ := watermarkStopped_look on r
    exact regards_rests (by rw [floor]) look

theorem readStats_regards {gct : Option Instant} (here : s.stage = .readStats gct) :
    Regards s (s.readStats gct) := by
  unfold readStats
  split
  · exact regards_rests rfl (.inl (by rw [here]; rfl))
  · exact regards_rests rfl (.inr rfl)

theorem readingStats_regards {gct : Option Instant} {ticket : Nat} (expired : Bool)
    (here : s.stage = .readingStats gct ticket) :
    Regards s (s.readingStats expired gct ticket) := by
  unfold readingStats
  split
  · exact regards_rests rfl (.inl rfl)
  · exact regards_rests rfl (.inl (by rw [here]; rfl))
  · exact regards_rests rfl (.inr rfl)
  · exact regards_rests rfl (.inr rfl)

/-- The end of the statistics service leaves the question answered. -/
theorem statsStopped_regards {ending : Except RunError Report}
    (on : s.stage.look = .ofEnding (fun r => .seen r.gct) ending) (stats : Stats.Service)
    (stopped : Except ServiceError Unit) :
    Regards s (({ s with stats } : Run β σ).statsStopped ending stopped) := by
  unfold statsStopped
  split
  · exact regards_rests rfl (.inr rfl)
  · split
    · exact regards_rests rfl (.inl on.symm)
    · exact regards_rests rfl (.inl on.symm)
  · exact regards_rests rfl (.inr rfl)

theorem stopStats_regards {ending : Except RunError Report} (here : s.stage = .stopStats ending) :
    Regards s (s.stopStats ending) := by
  have on : s.stage.look = .ofEnding (fun r => .seen r.gct) ending := by rw [here]; rfl
  unfold stopStats
  split
  · exact regards_rests rfl (.inl on.symm)
  · exact statsStopped_regards on _ _
  · exact statsStopped_regards on _ _

theorem stoppingStats_regards {ending : Except RunError Report} (expired : Bool)
    (here : s.stage = .stoppingStats ending) : Regards s (s.stoppingStats expired ending) := by
  unfold stoppingStats
  split
  · exact regards_rests rfl (.inl rfl)
  · exact statsStopped_regards (by rw [here]; rfl) s.stats _

/-- What every step of the driver means for its question. -/
theorem stepDriver_regards {expired : Bool} (moved : s.stepDriver expired = some t) :
    Regards s t := by
  cases driven_of_step moved with
  | pull here => exact pull_regards here
  | enrol here => exact enrol_regards here
  | enrolling here => exact enrolling_regards expired here
  | announce here announced => exact announce_regards here announced
  | submit here => exact submit_regards here
  | room here | swept here | interrupt here => exact regards_rests rfl (.inl (by rw [here]; rfl))
  | full here | drain here => exact next_regards (by rw [here]; rfl)
  | sweep here taken => exact collected_regards taken
  | check here =>
    split
    · exact regards_rests rfl (.inr rfl)
    · exact regards_rests rfl (.inl (by rw [here]; rfl))
  | clear here => exact clear_regards here
  | readTime here => exact readTime_regards here
  | readingTime here => exact readingTime_regards expired here
  | stopWatermark here => exact stopWatermark_regards here
  | stoppingWatermark here => exact stoppingWatermark_regards expired here
  | readStats here => exact readStats_regards here
  | readingStats here => exact readingStats_regards expired here
  | stopStats here => exact stopStats_regards here
  | stoppingStats here => exact stoppingStats_regards expired here

end Driver

/-- A task sends at most the completion of its start. -/
theorem stepTask_quiet {s : Run β σ} {floor : Floor β σ} {ticket : Nat} {now : Instant}
    (moved : s.floor.stepTask ticket now = some floor) : Quiet s { s with floor } := by
  obtain ⟨t, need, e, -, -, -, service, -, -⟩ := Floor.stepTask_some moved
  by_cases submits : need = .submission
  · subst submits
    cases running : s.floor.watermark.core.isOpen with
    | true =>
      obtain ⟨core, -⟩ := Floor.serviceAfter_open t running
      rw [← service] at core
      exact quiet_sends (congrArg PacedLoad.Service.queue core) rfl
    | false =>
      obtain ⟨core, -⟩ := Floor.serviceAfter_closed t running
      rw [← service] at core
      refine quiet_rests ?_
      change floor.watermark.core.queue = _
      rw [core]
  · rw [Floor.serviceAfter_of_ne submits] at service
    refine quiet_rests ?_
    rw [service]

theorem peer_quiet (s : Run β σ) (name : String) (time : Instant) :
    Quiet s (s.peer name time).1 := by
  unfold peer Watermark.Service.submitExternal
  cases running : s.floor.watermark.core.isOpen with
  | true =>
    rw [PacedLoad.Service.submit_of_open running]
    exact quiet_sends rfl rfl
  | false =>
    rw [PacedLoad.Service.submit_of_closed running]
    exact quiet_rests rfl

/-- What every move but the worker's means for the driver's question. -/
theorem step_regards [Bookkeeping σ] {s t : Run β σ} {c : Choice} (moved : s.step c = some t)
    (other : c ≠ .watermark) : Regards s t := by
  cases c with
  | driver expired => exact stepDriver_regards moved
  | task ticket now =>
    obtain ⟨floor, stepped, rfl⟩ := Option.map_eq_some_iff.mp moved
    exact .keeps (.inl rfl) (stepTask_quiet stepped)
  | interruption ticket =>
    obtain ⟨floor, stepped, rfl⟩ := Option.map_eq_some_iff.mp moved
    obtain ⟨pool, -, rfl⟩ := Option.map_eq_some_iff.mp stepped
    exact regards_rests rfl (.inl rfl)
  | watermark => exact absurd rfl other
  | stats now =>
    simp only [step, stepStats] at moved
    split at moved <;> cases moved
    exact regards_rests rfl (.inl rfl)
  | peer name time =>
    cases moved
    exact .keeps (.inl rfl) (peer_quiet s name time)
  | file r =>
    simp only [step, saved] at moved
    split at moved <;> cases moved
    next path report here =>
      cases r with
      | ok u => exact regards_rests rfl (.inl (by rw [here]; rfl))
      | error e => exact regards_rests rfl (.inr rfl)

/-- A move other than the worker's leaves what is queued where it is. -/
theorem Regards.grown {s t : Run β σ} (regards : Regards s t) :
    s.floor.watermark.core.queue <+: t.floor.watermark.core.queue := by
  cases regards with
  | keeps look quiet | sees here there answered quiet =>
    obtain ⟨more, queue, -⟩ := quiet
    exact ⟨more, queue.symm⟩
  | asks here there running unanswered queue => exact ⟨_, queue.symm⟩

/-- A move of the worker takes the oldest letter, if it runs, and leaves the driver where it is. -/
theorem step_watermark [Bookkeeping σ] {s t : Run β σ} (moved : s.step .watermark = some t) :
    t.stage = s.stage ∧
      t.floor.watermark.core =
        (s.floor.watermark.core.deliver duty Instant.first s.floor.journal).1 := by
  obtain ⟨floor, stepped, rfl⟩ := Option.map_eq_some_iff.mp moved
  obtain ⟨-, service, -, -⟩ := Floor.stepWatermark_some stepped
  exact ⟨rfl, congrArg Watermark.Service.core service⟩

/-- The worker takes the oldest letter. -/
theorem delivery_of_step [Bookkeeping σ] {s t : Run β σ} (told : List Sent)
    (moved : s.step .watermark = some t) (running : s.floor.watermark.core.isOpen = true) :
    ∃ m rest, s.takenBy .watermark = [m] ∧
      Outline.Delivery (s.outline told) m rest s.floor.journal (t.outline told) := by
  obtain ⟨floor, stepped, rfl⟩ := Option.map_eq_some_iff.mp moved
  obtain ⟨some, service, pool, policy⟩ := Floor.stepWatermark_some stepped
  obtain ⟨m, rest, oldest⟩ := List.exists_cons_of_ne_nil some
  have core : floor.watermark.core =
      (s.floor.watermark.core.deliver duty Instant.first s.floor.journal).1 := by
    rw [service]
    rfl
  obtain ⟨worker, queue⟩ := Service.deliver_cons duty Instant.first s.floor.journal running oldest
  rw [← core] at worker queue
  refine ⟨m, rest, ?_, Service.isOpen_iff.mp running, oldest, worker, ?_, fun ticket a held => ?_, ?_⟩
  · simp [takenBy, running, oldest]
  · change floor.watermark.core.queue = if floor.watermark.core.worker.phase = .running then _ else _
    rw [worker]
    exact queue
  · rw [show (({ s with floor } : Run β σ).outline told).answers ticket =
      Cell.valueAt floor.watermark.core.cells ticket from rfl, core] at held
    exact Service.deliver_values running oldest held
  · simp only [outline, pool, policy]

end Run

end PacedLoad
