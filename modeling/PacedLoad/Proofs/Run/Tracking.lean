import Mathlib.Data.List.Range
import PacedLoad.Proofs.Run.Moves
import PacedLoad.Proofs.Run.Stream
import PacedLoad.Proofs.Watermark.Ledger

/-!
# What the service will know of the jobs

The published slot lags behind the queue, and the queue behind the driver.  But
once the worker has taken what is queued, its writers hold exactly the starts of
the jobs that are not complete.  When the worker stops, what it left behind stands
for the queue.
-/

namespace PacedLoad

open Handler Watermark

variable {β σ : Type}

def Station.expects : Station → Nat
  | .enrolling .. => 1
  | _ => 0

def Station.announced : Station → List Entry
  | .submit op writer => [⟨writer, op.scheduledStart, false⟩]
  | _ => []

namespace Outline

def entry (t : Task β) : Entry := ⟨t.writer, start t, t.phase.completed⟩

def entries (o : Outline β σ) : List Entry := o.jobs.map entry ++ o.station.announced

/-- The pool is shut down only after the driver has come to its end. -/
def Barred (o : Outline β σ) : Prop := o.closing = true → o.station = .ending

theorem Barred.step [Bookkeeping σ] {o after : Outline β σ} {talk : Bool} (barred : Barred o)
    (step : Step talk o after) : Barred after := by
  have on {station : Station} (here : o.station = station) (other : station ≠ .ending) :
      ¬ o.closing = true := fun closing => other (here.symm.trans (barred closing))
  cases step with
  | pull here | ask here | known here | enrolled here | announce here | submit here =>
    exact fun closing => absurd closing (on here nofun)
  | ends | close => exact fun _ => by first | rfl | assumption
  | _ => exact barred

/-- The driver is not given up at an announced operation. -/
theorem Barred.entries_ends {o : Outline β σ}
    {rest : List (Except Rows.DecodingError Operation)} (barred : Barred o)
    (given : ∀ op writer, o.station = .submit op writer → o.closing = true) :
    ({ o with upcoming := rest, station := .ending } : Outline β σ).entries = o.entries := by
  have nothing : o.station.announced = [] := by
    cases here : o.station with
    | submit op writer =>
      have past := barred (given op writer here)
      rw [here] at past
      cases past
    | _ => rfl
  simp only [entries, nothing]
  rfl

def held (o : Outline β) : List Writer := o.worker.state.state.writers

/-- The writers `ws` once the worker has taken `rest`, which stands in the queue as long as the
worker runs. -/
structure Foreseen (o : Outline β) (rest : List Letter) (ws : List Writer) : Prop where
  queue : o.worker.phase = .running → rest = o.queue
  seen : foresee o.held rest = some ws
  ledger : Ledger o.entries ws
  enrolled : o.station ≠ .ending → ws.length = o.writers.length + o.station.expects

/-- The writers of the driver are those of the worker, in the order of their registration. -/
structure Enrolled (o : Outline β) : Prop where
  numbered : o.station ≠ .ending → o.writers = List.range o.writers.length
  registered : o.station ≠ .ending → o.writers.length ≤ o.held.length
  answered : ∀ op ticket id, o.station = .enrolling op ticket →
    o.answers ticket = some (.writer id) →
      id = o.writers.length ∧ o.held.length = o.writers.length + 1
  entered : ∀ e ∈ o.entries, e.writer < o.held.length

structure Tracked (o : Outline β) : Prop where
  closing : o.closing = true → o.station = .ending
  enrolled : Enrolled o
  foreseen : ∃ rest ws, Foreseen o rest ws

variable {operations : List (Except Rows.DecodingError Operation)} {o after : Outline β}

/-- A message that was sent will be attended to last. -/
theorem Foreseen.posted {rest : List Letter} {ws vs : List Writer} {m : Letter}
    (foreseen : Foreseen o rest ws) (running : o.worker.phase = .running)
    (attended : attend ws m = some vs) :
    rest ++ [m] = o.queue ++ [m] ∧ foresee o.held (rest ++ [m]) = some vs := by
  refine ⟨by rw [foreseen.queue running], ?_⟩
  rw [foresee_append, foreseen.seen]
  exact (foresee_single ws m).trans attended

/-- The oldest message will be attended to first. -/
theorem Foreseen.oldest {rest queued : List Letter} {ws : List Writer} {m : Letter}
    (foreseen : Foreseen o rest ws) (running : o.worker.phase = .running)
    (oldest : o.queue = m :: queued) :
    ∃ us, attend o.held m = some us ∧ foresee us queued = some ws := by
  have seen := foreseen.seen
  rw [foreseen.queue running, oldest] at seen
  exact Option.bind_eq_some_iff.mp seen

/-- A step that neither sends nor takes a message and leaves the writers and what was announced
alone. -/
theorem Tracked.congr (tracked : Tracked o) (worker : after.worker = o.worker)
    (queue : after.queue = o.queue) (answers : after.answers = o.answers)
    (writers : after.writers = o.writers) (entries : after.entries = o.entries)
    (closing : after.closing = true → after.station = .ending)
    (going : after.station ≠ .ending → o.station ≠ .ending ∧
      after.station.expects = o.station.expects ∧
      ∀ op ticket, after.station = .enrolling op ticket → o.station = .enrolling op ticket) :
    Tracked after := by
  have held : after.held = o.held := by rw [Outline.held, worker, Outline.held]
  refine ⟨closing, ⟨?_, ?_, ?_, ?_⟩, ?_⟩
  · intro on
    rw [writers]
    exact tracked.enrolled.numbered (going on).1
  · intro on
    rw [writers, held]
    exact tracked.enrolled.registered (going on).1
  · intro op ticket id here
    rw [answers, writers, held]
    have on : after.station ≠ .ending := by rw [here]; nofun
    exact tracked.enrolled.answered op ticket id ((going on).2.2 op ticket here)
  · rw [entries, held]
    exact tracked.enrolled.entered
  · obtain ⟨rest, ws, foreseen⟩ := tracked.foreseen
    refine ⟨rest, ws, ?_, ?_, ?_, ?_⟩
    · rw [worker, queue]
      exact foreseen.queue
    · rw [held]
      exact foreseen.seen
    · rw [entries]
      exact foreseen.ledger
    · intro on
      rw [writers, (going on).2.1]
      exact foreseen.enrolled (going on).1

/-- A phase that does not change whether the start is complete is not seen in the ledger. -/
theorem advance_entry {o : Outline β σ} {k : Nat} {t : Task β} {phase : Phase}
    (found : o.jobs[k]? = some t)
    (same : phase.completed = t.phase.completed) :
    (o.advance k phase).jobs.map entry = o.jobs.map entry := by
  refine List.ext_getElem? fun i => ?_
  simp only [Outline.advance, List.getElem?_map, List.getElem?_modify]
  by_cases here : k = i
  · subst here
    simp [found, entry, start, same]
  · simp [here]

/-- A start that is not complete stands in its place. -/
theorem entries_open {o : Outline β σ} {k : Nat} {t : Task β} (found : o.jobs[k]? = some t)
    (open_ : t.phase.completed = false) : o.entries[k]? = some ⟨t.writer, start t, false⟩ := by
  have inside : k < (o.jobs.map entry).length := by
    rw [List.length_map]
    exact (List.getElem?_eq_some_iff.mp found).1
  rw [entries, List.getElem?_append_left inside, List.getElem?_map, found]
  simp [entry, open_]

/-- A job that completes its start marks it in its place. -/
theorem entries_complete {o : Outline β σ} {k : Nat} {t : Task β} {phase : Phase}
    (found : o.jobs[k]? = some t) (complete : phase.completed = true) :
    (o.advance k phase).entries = o.entries.set k ⟨t.writer, start t, true⟩ := by
  obtain ⟨inside, same⟩ := List.getElem?_eq_some_iff.mp found
  have jobs : (o.advance k phase).jobs.map entry =
      (o.jobs.map entry).set k ⟨t.writer, start t, true⟩ := by
    refine List.ext_getElem? fun i => ?_
    simp only [Outline.advance, List.getElem?_map, List.getElem?_modify, List.getElem?_set,
      List.length_map]
    by_cases here : k = i
    · subst here
      simp [inside, same, entry, start, complete]
    · simp [here]
  change (o.advance k phase).jobs.map entry ++ o.station.announced = _
  rw [jobs, entries, List.set_append_left _ _ (by rw [List.length_map]; exact inside)]

theorem Tracked.advance {k : Nat} {t : Task β} {phase : Phase} (tracked : Tracked o)
    (found : o.jobs[k]? = some t) (same : phase.completed = t.phase.completed) :
    Tracked (o.advance k phase) :=
  tracked.congr rfl rfl rfl rfl (congrArg (· ++ _) (advance_entry found same)) tracked.closing
    fun on => ⟨on, rfl, fun _ _ here => here⟩

theorem Tracked.ends {rest : List (Except Rows.DecodingError Operation)} (tracked : Tracked o)
    (given : ∀ op writer, o.station = .submit op writer → o.closing = true) :
    Tracked { o with upcoming := rest, station := .ending } :=
  tracked.congr rfl rfl rfl rfl (Barred.entries_ends tracked.closing given) (fun _ => rfl)
    fun on => absurd rfl on

theorem Tracked.ask {op : Operation} {ticket : Nat} (tracked : Tracked o)
    (here : o.station = .enrol op) (running : o.worker.phase = .running)
    (unanswered : o.answers ticket = none) :
    Tracked { o.post (.request .register ticket) with station := .enrolling op ticket } := by
  have on : o.station ≠ .ending := by simp [here]
  have same : ({ o.post (.request .register ticket) with station := .enrolling op ticket } :
      Outline β).entries = o.entries := by simp [entries, here, Station.announced, post]
  obtain ⟨rest, ws, foreseen⟩ := tracked.foreseen
  obtain ⟨queue, seen⟩ := foreseen.posted running (attend_register ws ticket)
  refine ⟨fun closing => absurd (tracked.closing closing) on, ⟨?_, ?_, ?_, ?_⟩,
    rest ++ [.request .register ticket], ws ++ [Writer.fresh], ?_, ?_, ?_, ?_⟩
  · exact fun _ => tracked.enrolled.numbered on
  · exact fun _ => tracked.enrolled.registered on
  · intro op' ticket' id here' answered
    cases here'
    rw [show ({ o.post (.request .register ticket) with station := .enrolling op ticket } :
      Outline β).answers ticket = o.answers ticket from rfl, unanswered] at answered
    cases answered
  · rw [same]
    exact tracked.enrolled.entered
  · exact fun _ => queue
  · exact seen
  · rw [same]
    exact foreseen.ledger.register
  · intro _
    have enrolled := foreseen.enrolled on
    rw [here] at enrolled
    simp only [Station.expects, List.length_append, List.length_singleton, post] at enrolled ⊢
    omega

theorem Tracked.take {op : Operation} {ticket id : Nat} (tracked : Tracked o)
    (here : o.station = .enrolling op ticket) (answered : o.answers ticket = some (.writer id)) :
    Tracked { o with writers := o.writers ++ [id], station := .announce op } := by
  have on : o.station ≠ .ending := by simp [here]
  have same : ({ o with writers := o.writers ++ [id], station := .announce op } :
      Outline β).entries = o.entries := by simp [entries, here, Station.announced]
  obtain ⟨rest, ws, foreseen⟩ := tracked.foreseen
  obtain ⟨rfl, more⟩ := tracked.enrolled.answered op ticket id here answered
  refine ⟨fun closing => absurd (tracked.closing closing) on, ⟨?_, ?_, nofun, ?_⟩,
    rest, ws, foreseen.queue, foreseen.seen, ?_, ?_⟩
  · intro _
    simp only [List.length_append, List.length_singleton]
    rw [List.range_succ, ← tracked.enrolled.numbered on]
  · intro _
    simp only [List.length_append, List.length_singleton]
    exact Nat.le_of_eq more.symm
  · rw [same]
    exact tracked.enrolled.entered
  · rw [same]
    exact foreseen.ledger
  · intro _
    have enrolled := foreseen.enrolled on
    rw [here] at enrolled
    simp only [Station.expects, List.length_append, List.length_singleton] at enrolled ⊢
    exact enrolled

theorem Tracked.announce {op : Operation} {slot writer : Nat} (tracked : Tracked o)
    (fed : Fed operations o) (here : o.station = .announce op)
    (turn : o.writers[slot]? = some writer) (running : o.worker.phase = .running) :
    Tracked { o.post (.event (.initiated writer op.scheduledStart)) with
      station := .submit op writer } := by
  have on : o.station ≠ .ending := by simp [here]
  have more : ({ o.post (.event (.initiated writer op.scheduledStart)) with
      station := .submit op writer } : Outline β).entries =
        o.entries ++ [⟨writer, op.scheduledStart, false⟩] := by
    simp [entries, here, Station.announced, post]
  have known : writer < o.held.length := by
    have inside : writer ∈ List.range o.writers.length := by
      rw [← tracked.enrolled.numbered on]
      exact List.mem_of_getElem? turn
    exact Nat.lt_of_lt_of_le (List.mem_range.mp inside) (tracked.enrolled.registered on)
  have late : ∀ e ∈ o.entries, e.start ≤ op.scheduledStart := by
    intro e member
    have mine : op ∈ o.station.pending := by simp [here, Station.pending]
    simp only [entries, here, Station.announced, List.append_nil, List.mem_map] at member
    obtain ⟨t, job, rfl⟩ := member
    exact fed.latest mine (List.mem_map_of_mem job)
  obtain ⟨rest, ws, foreseen⟩ := tracked.foreseen
  obtain ⟨vs, attended, length, ledger⟩ := foreseen.ledger.announce
    (Nat.lt_of_lt_of_le known (foresee_length foreseen.seen)) late
  obtain ⟨queue, seen⟩ := foreseen.posted running attended
  refine ⟨fun closing => absurd (tracked.closing closing) on, ⟨?_, ?_, ?_, ?_⟩,
    rest ++ [.event (.initiated writer op.scheduledStart)], vs, ?_, ?_, ?_, ?_⟩
  · exact fun _ => tracked.enrolled.numbered on
  · exact fun _ => tracked.enrolled.registered on
  · intro op' ticket id elsewhere
    cases elsewhere
  · rw [more]
    intro e member
    rcases List.mem_append.mp member with before | new
    · exact tracked.enrolled.entered e before
    · rw [List.mem_singleton.mp new]
      exact known
  · exact fun _ => queue
  · exact seen
  · rw [more]
    exact ledger
  · intro _
    have enrolled := foreseen.enrolled on
    rw [here] at enrolled
    rw [length]
    exact enrolled

theorem Tracked.submit {op : Operation} {writer : Nat} (tracked : Tracked o)
    (here : o.station = .submit op writer) :
    Tracked { o with
      jobs := o.jobs ++ [⟨op, writer, o.work, .waiting, false⟩]
      submitted := o.submitted + 1
      station := .between } := by
  have on : o.station ≠ .ending := by simp [here]
  refine tracked.congr rfl rfl rfl rfl ?_ (fun closing => absurd (tracked.closing closing) on)
    fun _ => ⟨on, by rw [here]; rfl, nofun⟩
  simp [entries, here, Station.announced, entry, start, Phase.completed]

/-- A message that no writer minds. -/
theorem Tracked.post {m : Letter} (tracked : Tracked o) (running : o.worker.phase = .running)
    (harmless : ∀ ws, attend ws m = some ws) : Tracked (o.post m) := by
  obtain ⟨rest, ws, foreseen⟩ := tracked.foreseen
  obtain ⟨queue, seen⟩ := foreseen.posted running (harmless ws)
  refine ⟨tracked.closing, ⟨tracked.enrolled.numbered, tracked.enrolled.registered,
    tracked.enrolled.answered, tracked.enrolled.entered⟩, rest ++ [m], ws, ?_, seen,
    foreseen.ledger, foreseen.enrolled⟩
  exact fun _ => queue

theorem Tracked.complete {k : Nat} {t : Task β} {phase : Phase} {told : List Sent}
    (tracked : Tracked o) (found : o.jobs[k]? = some t) (open_ : t.phase.completed = false)
    (complete : phase.completed = true) (running : o.worker.phase = .running) :
    Tracked { (o.advance k phase).post (.event (.completed t.writer (start t))) with told } := by
  have listed : o.entries[k]? = some ⟨t.writer, start t, false⟩ := entries_open found open_
  have changed : ({ (o.advance k phase).post (.event (.completed t.writer (start t))) with told } :
      Outline β).entries = o.entries.set k ⟨t.writer, start t, true⟩ :=
    entries_complete found complete
  obtain ⟨rest, ws, foreseen⟩ := tracked.foreseen
  obtain ⟨vs, attended, length, ledger⟩ := foreseen.ledger.complete listed
  obtain ⟨queue, seen⟩ := foreseen.posted running attended
  refine ⟨tracked.closing, ⟨tracked.enrolled.numbered, tracked.enrolled.registered,
    tracked.enrolled.answered, ?_⟩, rest ++ [.event (.completed t.writer (start t))], vs,
    fun _ => queue, ?_, ?_, ?_⟩
  · rw [changed]
    intro e member
    rcases List.mem_or_eq_of_mem_set member with before | new
    · exact tracked.enrolled.entered e before
    · rw [new]
      exact tracked.enrolled.entered ⟨t.writer, start t, false⟩ (List.mem_of_getElem? listed)
  · exact seen
  · rw [changed]
    exact ledger
  · intro on
    rw [length]
    exact foreseen.enrolled on

theorem Tracked.deliver {m : Letter} {queued : List Letter} {j : Journal}
    {answers : Nat → Option Answer} (tracked : Tracked o) (running : o.worker.phase = .running)
    (oldest : o.queue = m :: queued)
    (answered : ∀ ticket a, answers ticket = some a → o.answers ticket = some a ∨
      (o.worker.receive duty Instant.first j m).2.2 = some (ticket, a)) :
    Tracked { o with
      worker := (o.worker.receive duty Instant.first j m).1
      queue := if (o.worker.receive duty Instant.first j m).1.phase = .running then queued else []
      answers := answers } := by
  obtain ⟨rest, ws, foreseen⟩ := tracked.foreseen
  obtain ⟨us, attended, seen⟩ := foreseen.oldest running oldest
  have held : (o.worker.receive duty Instant.first j m).1.state.state.writers = us :=
    receive_writers attended
  have grown : o.held.length ≤ us.length := attend_length attended
  have bound : us.length ≤ ws.length := foresee_length seen
  refine ⟨tracked.closing, ⟨tracked.enrolled.numbered, fun on => ?_, fun op ticket id here taken => ?_,
    fun e member => ?_⟩, queued, ws, ⟨fun going => ?_, ?_, foreseen.ledger, foreseen.enrolled⟩⟩
  · change o.writers.length ≤
      (o.worker.receive duty Instant.first j m).1.state.state.writers.length
    rw [held]
    exact le_trans (tracked.enrolled.registered on) grown
  · change id = o.writers.length ∧
      (o.worker.receive duty Instant.first j m).1.state.state.writers.length = o.writers.length + 1
    rw [held]
    have at_ : o.station = .enrolling op ticket := here
    have on : o.station ≠ .ending := by simp [at_]
    have registered := tracked.enrolled.registered on
    have enrolled := foreseen.enrolled on
    rw [at_] at enrolled
    simp only [Station.expects] at enrolled
    rcases answered ticket _ taken with before | now
    · obtain ⟨same, more⟩ := tracked.enrolled.answered op ticket id at_ before
      exact ⟨same, by omega⟩
    · obtain ⟨rfl, next⟩ := receive_answer now
      have longer : us.length = o.held.length + 1 := by
        rw [attend_register] at attended
        cases attended
        exact List.length_append
      have next' : id = o.held.length := next
      exact ⟨by omega, by omega⟩
  · change e.writer < (o.worker.receive duty Instant.first j m).1.state.state.writers.length
    rw [held]
    exact Nat.lt_of_lt_of_le (tracked.enrolled.entered e member) grown
  · exact (if_pos going).symm
  · change foresee (o.worker.receive duty Instant.first j m).1.state.state.writers queued = some ws
    rw [held]
    exact seen

/-- An answer that is not a submission leaves the start open. -/
theorem answer_open {t : Task β} {need : Need} {e : Handler.Event} {gct : Option Instant}
    {closing : Bool} {tolerated : Span} (needs : t.phase.need = some need)
    (answers : t.Answers gct closing need e) :
    (t.phase.next t.operation tolerated e).completed = t.phase.completed := by
  have other : need ≠ .submission := by
    rintro rfl
    exact answers
  rw [Phase.completed_next needs other e,
    Phase.completed_of_not_finished (Phase.isFinished_of_need needs)]

theorem interruptible_open {phase : Phase} (interruptible : phase.interruptible = true) :
    phase.completed = false := by
  cases phase <;> first | rfl | cases interruptible

/-- Every step keeps track of the jobs. -/
theorem Tracked.step {talk : Bool} (tracked : Tracked o) (fed : Fed operations o)
    (sound : ∀ t ∈ o.jobs, t.phase.Sound) (step : Step talk o after) : Tracked after := by
  cases step with
  | still => exact tracked
  | pull free =>
    have on : o.station ≠ .ending := by simp [free]
    refine tracked.congr rfl rfl rfl rfl ?_ (fun closing => absurd (tracked.closing closing) on)
      fun _ => ⟨on, by rw [free]; rfl, nofun⟩
    simp [entries, free, Station.announced]
  | ask here turn running unanswered => exact tracked.ask here running unanswered
  | known here =>
    have on : o.station ≠ .ending := by simp [here]
    refine tracked.congr rfl rfl rfl rfl ?_ (fun closing => absurd (tracked.closing closing) on)
      fun _ => ⟨on, by rw [here]; rfl, nofun⟩
    simp [entries, here, Station.announced]
  | enrolled here answered => exact tracked.take here answered
  | announce here turn running => exact tracked.announce fed here turn running
  | submit here => exact tracked.submit here
  | ends given => exact tracked.ends given
  | close past =>
    exact tracked.congr rfl rfl rfl rfl rfl (fun _ => past) fun on => absurd past on
  | wind past running harmless =>
    refine tracked.post running fun ws => ?_
    rcases harmless with ⟨ticket, rfl⟩ | ⟨n, rfl⟩ <;> rfl
  | answer found needs answers => exact tracked.advance found (answer_open needs answers)
  | @complete k t found needs running =>
    have before := Phase.completed_of_not_finished (Phase.isFinished_of_need needs)
    exact tracked.complete found before
      (Phase.completed_accepted (sound t (List.mem_of_getElem? found)) needs) running
  | refused found needs =>
    refine tracked.advance found ?_
    rw [Phase.next_refused needs,
      Phase.completed_of_not_finished (Phase.isFinished_of_need needs)]
    rfl
  | interruption found closing interruptible =>
    refine tracked.advance found ?_
    rw [interruptible_open interruptible]
    rfl
  | deliver running oldest answered => exact tracked.deliver running oldest answered
  | peer talks running => exact tracked.post running fun _ => rfl

end Outline

end PacedLoad
