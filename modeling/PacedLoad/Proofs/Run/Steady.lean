import PacedLoad.Proofs.Run.Turns

/-!
# Runs without peers

Without peers, and with bodies that always return, nothing stops the worker while
operations are taken, and every job that ends completes its start.
-/

namespace PacedLoad

open Handler Watermark

variable {β : Type}

/-- A body that always returns, with a success or a failure. -/
def Returning (work : Work β) : Prop :=
  ∀ before op after r, work before op = some (after, r) → ∃ result, r = .returned result

namespace Outline

variable {operations : List (Except Rows.DecodingError Operation)} {o after : Outline β}

/-- Nothing has stopped the worker or is about to, and every job that has ended completed its
start. -/
structure Calm (o : Outline β) : Prop where
  running : o.worker.phase = .running
  unlimited : o.worker.expected = none
  alone : o.worker.state.state.peers = []
  lasting : ∀ m ∈ o.queue, ∀ n, m ≠ .terminate n
  silent : ∀ m ∈ o.queue, ∀ p t, m ≠ .event (.external p t)
  complete : ∀ t ∈ o.jobs, t.phase.isFinished = true → t.phase.completed = true

theorem Calm.congr (calm : Calm o) (worker : after.worker = o.worker)
    (queue : after.queue = o.queue) (jobs : after.jobs = o.jobs) : Calm after where
  running := by rw [worker]; exact calm.running
  unlimited := by rw [worker]; exact calm.unlimited
  alone := by rw [worker]; exact calm.alone
  lasting := by rw [queue]; exact calm.lasting
  silent := by rw [queue]; exact calm.silent
  complete := by rw [jobs]; exact calm.complete

theorem Calm.post {m : Letter} (calm : Calm o) (lasting : ∀ n, m ≠ .terminate n)
    (silent : ∀ p t, m ≠ .event (.external p t)) : Calm (o.post m) where
  running := calm.running
  unlimited := calm.unlimited
  alone := calm.alone
  lasting := fun x member => by
    rcases List.mem_append.mp member with before | new
    · exact calm.lasting x before
    · rw [List.mem_singleton.mp new]
      exact lasting
  silent := fun x member => by
    rcases List.mem_append.mp member with before | new
    · exact calm.silent x before
    · rw [List.mem_singleton.mp new]
      exact silent
  complete := calm.complete

/-- A phase that ends a job has to complete its start. -/
theorem Calm.advance {k : Nat} {phase : Phase} (calm : Calm o)
    (complete : phase.isFinished = true → phase.completed = true) : Calm (o.advance k phase) where
  running := calm.running
  unlimited := calm.unlimited
  alone := calm.alone
  lasting := calm.lasting
  silent := calm.silent
  complete := fun t member => by
    obtain ⟨i, found⟩ := List.getElem?_of_mem member
    rcases getElem?_modify_some found with ⟨-, u, -, rfl⟩ | ⟨-, before⟩
    · exact complete
    · exact calm.complete t (List.mem_of_getElem? before)

/-- Before the pool is shut down, a body that returns does not end its handler. -/
theorem answer_unfinished {t : Task β} {need : Need} {e : Handler.Event} {gct : Option Instant}
    {tolerated : Span} (returning : Returning t.work) (needs : t.phase.need = some need)
    (answers : t.Answers gct false need e) :
    (t.phase.next t.operation tolerated e).isFinished = false := by
  refine Phase.unfinished_next needs ?_ ?_ fun m same => ?_
  · rintro rfl
    exact answers
  · rintro rfl
    cases need with
    | slot =>
      obtain ⟨granted, same, refused⟩ := answers
      cases same
      cases refused rfl
    | _ => simp [Task.Answers] at answers
  · subst same
    cases need with
    | body =>
      obtain ⟨before, after, r, same, ran⟩ := answers
      cases same
      obtain ⟨result, returned⟩ := returning _ _ _ _ ran
      cases returned
    | _ => simp [Task.Answers] at answers

/-- A calm worker takes its next message and goes on. -/
theorem Calm.deliver {m : Letter} {queued : List Letter} {j : Journal}
    {answers : Nat → Option Answer} (calm : Calm o) (tracked : Tracked o)
    (oldest : o.queue = m :: queued) :
    Calm { o with
      worker := (o.worker.receive duty Instant.first j m).1
      queue := if (o.worker.receive duty Instant.first j m).1.phase = .running then queued else []
      answers := answers } := by
  have listed : m ∈ o.queue := by simp [oldest]
  have later : ∀ x ∈ queued, x ∈ o.queue := fun x member => by simp [oldest, member]
  obtain ⟨rest, ws, foreseen⟩ := tracked.foreseen
  obtain ⟨us, attended, -⟩ := foreseen.oldest calm.running oldest
  obtain ⟨s, heeded⟩ : ∃ s, Bookkeeping.heed o.worker.state.state m = some s := by
    rcases heed_of_attend attended with heeded | ⟨p, t, same⟩
    · exact heeded
    · exact absurd same (calm.silent m listed p t)
  obtain ⟨running, unlimited⟩ :=
    @receive_unlimited Instant.first _ j _ _ heeded calm.running calm.unlimited
      (calm.lasting m listed)
  refine ⟨running, unlimited, ?_, ?_, ?_, calm.complete⟩
  · change (o.worker.receive duty Instant.first j m).1.state.state.peers = []
    rw [(receive_state m).1, heeded]
    exact State.heed_alone heeded calm.alone
  · simp only [running, if_true]
    exact fun x member => calm.lasting x (later x member)
  · simp only [running, if_true]
    exact fun x member => calm.silent x (later x member)

/-- While operations are taken and no peer talks, the worker stays calm. -/
theorem Calm.step (calm : o.station ≠ .ending → Calm o) (coherent : Coherent operations o)
    (returning : Returning o.work) (step : Step false o after) (on : after.station ≠ .ending) :
    Calm after := by
  have returns : ∀ {k : Nat} {t : Task β}, o.jobs[k]? = some t → Returning t.work := by
    intro k t found
    rw [coherent.fed.work _ (List.mem_map_of_mem (List.mem_of_getElem? found))]
    exact returning
  have accepting : o.station ≠ .ending → o.closing = false := fun going =>
    Bool.eq_false_iff.mpr fun closing => going (coherent.tracked.closing closing)
  cases step with
  | still => exact calm on
  | pull here | known here | enrolled here => exact (calm (by simp [here])).congr rfl rfl rfl
  | ask here =>
    exact ((calm (by simp [here])).post (m := .request .register _) nofun nofun).congr rfl rfl rfl
  | announce here =>
    exact ((calm (by simp [here])).post (m := .event (.initiated _ _)) nofun nofun).congr
      rfl rfl rfl
  | submit here =>
    have before := calm (by simp [here])
    refine ⟨before.running, before.unlimited, before.alone, before.lasting, before.silent,
      fun t member => ?_⟩
    rcases List.mem_append.mp member with earlier | new
    · exact before.complete t earlier
    · rw [List.mem_singleton.mp new]
      nofun
  | ends => exact absurd rfl on
  | close past => exact absurd past on
  | wind past => exact absurd past on
  | answer found needs answers =>
    rw [accepting on] at answers
    refine (calm on).advance fun ended => ?_
    rw [answer_unfinished (returns found) needs answers] at ended
    cases ended
  | @complete k t found needs =>
    have advanced : Calm (o.advance k (t.phase.next t.operation o.tolerated
        (.submission (.ok ())))) :=
      (calm on).advance fun _ => Phase.completed_accepted (coherent.reported.sound k t found) needs
    exact (advanced.post (m := .event (.completed _ _)) nofun nofun).congr rfl rfl rfl
  | refused found needs stopped => exact absurd (calm on).running stopped
  | interruption found closing => exact absurd (coherent.tracked.closing closing) on
  | deliver running oldest => exact (calm on).deliver coherent.tracked oldest
  | peer talks => cases talks

/-- What holds of the outline of every run without peers whose bodies return. -/
structure Steady (operations : List (Except Rows.DecodingError Operation)) (threads : Nat)
    (o : Outline β) : Prop where
  coherent : Coherent operations o
  threads : o.threads = threads
  returning : Returning o.work
  turned : Turned o
  calm : o.station ≠ .ending → Calm o

theorem Steady.step {threads : Nat} (steady : Steady operations threads o)
    (step : Step false o after) : Steady operations threads after where
  coherent := steady.coherent.step step
  threads := by cases step <;> exact steady.threads
  returning := by cases step <;> exact steady.returning
  turned := steady.turned.step steady.coherent.fed steady.coherent.tracked.enrolled step
  calm := Calm.step steady.calm steady.coherent steady.returning step

theorem steady_first {config : Config} {work : Work β} (valid : config.validate = .ok ())
    (alone : config.peerIds = []) (returning : Returning work) :
    Steady operations config.threadCount (first config work operations) where
  coherent := coherent_first config work operations
  threads := rfl
  returning := returning
  turned := by
    refine ⟨config.threadCount_pos valid, nofun, nofun, nofun, fun _ => ?_⟩
    simp [first, Station.joined]
  calm := fun _ => by
    refine ⟨rfl, rfl, ?_, nofun, nofun, nofun⟩
    change (State.start config.peerIds).peers = []
    rw [alone]
    rfl

end Outline

/-- Every run without peers whose bodies return is steady. -/
theorem Run.steady_of_run {config : Config} {now : Instant}
    {createLog : String → Except FileError Stats.Sink} {work : Work β} {shared : β}
    {operations : List (Except Rows.DecodingError Operation)} {s₀ s : Run β}
    {choices : List Choice}
    (started : Run.start config now createLog work shared operations = .ok s₀)
    (ran : s₀.steps choices = some s) (alone : config.peerIds = [])
    (silent : ∀ c ∈ choices, c.talks = false) (returning : Returning work) :
    Outline.Steady operations config.threadCount (s.outline (s₀.told choices)) := by
  obtain ⟨valid, initial⟩ := Run.start_outline started
  have first : Outline.Steady operations config.threadCount (s₀.outline []) := by
    rw [initial]
    exact Outline.steady_first valid alone returning
  have quiet : ∀ c ∈ choices, c.talks = true → false = true := fun c member talks => by
    rw [silent c member] at talks
    exact talks
  simpa using Run.steps_outline (fun step steady => steady.step step) quiet ran first

end PacedLoad
