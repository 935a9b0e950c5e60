import PacedLoad.Proofs.Run.Tracking
import PacedLoad.Proofs.Watermark.LowWatermark

/-!
# Invariants of all runs

Every run that was started keeps its jobs the beginning of the stream, reports
the completions of its jobs, shows the global completion time of its worker and
keeps track of what is outstanding.
-/

namespace PacedLoad

open Handler Watermark

variable {β σ : Type}

namespace Outline

structure Reported (o : Outline β σ) : Prop where
  sound : ∀ (k : Nat) (t : Task β), o.jobs[k]? = some t → t.phase.Sound
  told : ∀ (k : Nat) (t : Task β), o.jobs[k]? = some t → t.phase.completed = true →
    .completed t.writer (start t) ∈ eventsOf o.told (some k)

/-- The slot shows what the writers and peers of the worker have come to. -/
structure Showing (o : Outline β) : Prop where
  shown : o.worker.state.Shown
  ordered : ∀ writer ∈ o.held, writer.Ordered

section Jobs

variable {o after : Outline β σ}

theorem Reported.advance {k : Nat} {t : Task β} {phase : Phase} {more : List Sent}
    (reported : Reported o) (found : o.jobs[k]? = some t) (sound : phase.Sound)
    (jobs : after.jobs = (o.advance k phase).jobs) (told : after.told = o.told ++ more)
    (here : phase.completed = true →
      .completed t.writer (start t) ∈ eventsOf (o.told ++ more) (some k)) :
    Reported after := by
  constructor
  · intro i u found'
    rw [jobs] at found'
    rcases getElem?_modify_some found' with ⟨rfl, u', -, rfl⟩ | ⟨-, before⟩
    · exact sound
    · exact reported.sound i u before
  · intro i u found' complete
    rw [jobs] at found'
    rw [told]
    rcases getElem?_modify_some found' with ⟨rfl, u', before, rfl⟩ | ⟨-, before⟩
    · cases found.symm.trans before
      exact here complete
    · rw [eventsOf_append]
      exact List.mem_append_left _ (reported.told i u before complete)

/-- A job that is not complete has nothing more to report. -/
theorem Reported.advance_open {k : Nat} {t : Task β} {phase : Phase} (reported : Reported o)
    (found : o.jobs[k]? = some t) (sound : phase.Sound) (incomplete : phase.completed = false) :
    Reported (o.advance k phase) :=
  reported.advance found sound rfl (List.append_nil _).symm fun complete => by
    rw [incomplete] at complete
    cases complete

theorem Reported.submit {op : Operation} {writer : Nat} (reported : Reported o) :
    Reported { o with
      jobs := o.jobs ++ [⟨op, writer, o.work, .waiting, false⟩]
      submitted := o.submitted + 1
      station := .between } := by
  constructor
  · intro k t found
    rcases getElem?_concat_some found with before | ⟨-, rfl⟩
    · exact reported.sound k t before
    · trivial
  · intro k t found complete
    rcases getElem?_concat_some found with before | ⟨-, rfl⟩
    · exact reported.told k t before complete
    · cases complete

theorem Reported.step [Bookkeeping σ] {talk : Bool} (reported : Reported o)
    (step : Step talk o after) : Reported after := by
  cases step with
  | answer found needs answers =>
    refine reported.advance_open found (Phase.sound_next (reported.sound _ _ found) _) ?_
    rw [answer_open needs answers, Phase.completed_of_not_finished (Phase.isFinished_of_need needs)]
  | complete found needs =>
    refine reported.advance found (Phase.sound_next (reported.sound _ _ found) _) rfl rfl fun _ => ?_
    rw [eventsOf_append]
    exact List.mem_append_right _ (by simp [eventsOf, start])
  | refused found needs =>
    refine reported.advance_open found (Phase.sound_next (reported.sound _ _ found) _) ?_
    rw [Phase.next_refused needs]
    rfl
  | interruption found => exact reported.advance_open found trivial rfl
  | submit => exact reported.submit
  | _ => exact ⟨reported.sound, reported.told⟩

end Jobs

variable {operations : List (Except Rows.DecodingError Operation)} {o after : Outline β}

theorem Showing.step {talk : Bool} (showing : Showing o) (step : Step talk o after) :
    Showing after := by
  cases step with
  | deliver => exact ⟨receive_shown _ showing.shown, receive_ordered _ showing.ordered⟩
  | _ => exact ⟨showing.shown, showing.ordered⟩

structure Coherent (operations : List (Except Rows.DecodingError Operation)) (o : Outline β) :
    Prop where
  fed : Fed operations o
  reported : Reported o
  showing : Showing o
  tracked : Tracked o

theorem Coherent.step {talk : Bool} (coherent : Coherent operations o) (step : Step talk o after) :
    Coherent operations after where
  fed := coherent.fed.step step
  reported := coherent.reported.step step
  showing := coherent.showing.step step
  tracked := coherent.tracked.step coherent.fed (fun t member => by
    obtain ⟨k, found⟩ := List.getElem?_of_mem member
    exact coherent.reported.sound k t found) step

/-- The outline of a run before its first step. -/
def first [Bookkeeping σ] (config : Config) (work : Work β)
    (operations : List (Except Rows.DecodingError Operation)) : Outline β σ where
  threads := config.threadCount
  tolerated := config.policy.tolerated
  work := work
  worker := .fresh (Coordinator.start config.peerIds)
  queue := []
  answers := Cell.valueAt []
  jobs := []
  closing := false
  upcoming := operations
  submitted := 0
  previous := none
  writers := []
  station := .between
  told := []

theorem fed_first [Bookkeeping σ] (config : Config) (work : Work β)
    (operations : List (Except Rows.DecodingError Operation)) :
    Fed operations (first (σ := σ) config work operations) :=
  ⟨List.nil_prefix, fun _ => rfl, rfl, .nil, nofun, nofun, nofun⟩

theorem reported_first [Bookkeeping σ] (config : Config) (work : Work β)
    (operations : List (Except Rows.DecodingError Operation)) :
    Reported (first (σ := σ) config work operations) := ⟨nofun, nofun⟩

theorem coherent_first (config : Config) (work : Work β)
    (operations : List (Except Rows.DecodingError Operation)) :
    Coherent operations (first config work operations) where
  fed := fed_first config work operations
  reported := reported_first config work operations
  showing := ⟨shown_start config.peerIds, nofun⟩
  tracked := by
    refine ⟨nofun, ⟨fun _ => rfl, fun _ => Nat.le_refl _, nofun, nofun⟩, [], [], ?_⟩
    exact ⟨fun _ => rfl, rfl, ledger_nil, fun _ => rfl⟩

end Outline

namespace Run

/-- A run starts with fresh services, an empty pool and all operations ahead of it. -/
theorem start_ok [Bookkeeping σ] {config : Config} {now : Instant}
    {createLog : String → Except FileError Stats.Sink} {work : Work β} {shared : β}
    {operations : List (Except Rows.DecodingError Operation)} {s : Run β σ}
    (started : Run.start config now createLog work shared operations = .ok s) :
    config.validate = .ok () ∧ ∃ log, s = {
      config
      work
      floor := {
        watermark := .start config.peerIds config.watermarkPatience
        journal := .empty
        policy := config.policy
        pool := .start config.threadCount
        shared }
      stats := .start now config.policy config.recordStartDelay config.statsPatience log
      upcoming := operations
      submitted := 0
      previous := none
      writers := []
      failed := 0
      stage := .pull } := by
  unfold Run.start at started
  cases valid : config.validate with
  | error e => simp [valid, Except.mapError, bind, Except.bind] at started
  | ok u =>
    simp only [valid, Except.mapError, bind, Except.bind] at started
    refine ⟨rfl, ?_⟩
    split at started
    next =>
      cases started
      exact ⟨none, rfl⟩
    next path _ =>
      cases created : createLog path with
      | error e => simp [created] at started
      | ok sink =>
        simp only [created] at started
        split at started
        next log _ =>
          cases started
          exact ⟨some log, rfl⟩
        · cases started

theorem start_outline [Bookkeeping σ] {config : Config} {now : Instant}
    {createLog : String → Except FileError Stats.Sink} {work : Work β} {shared : β}
    {operations : List (Except Rows.DecodingError Operation)} {s : Run β σ}
    (started : Run.start config now createLog work shared operations = .ok s) :
    config.validate = .ok () ∧ s.outline [] = Outline.first config work operations := by
  obtain ⟨valid, log, rfl⟩ := start_ok started
  exact ⟨valid, rfl⟩

/-- What every step keeps holds at the end of a run if it holds at its start. -/
theorem steps_outline [Bookkeeping σ] {talk : Bool} {P : Outline β σ → Prop}
    (kept : ∀ {o after : Outline β σ}, Outline.Step talk o after → P o → P after)
    {choices : List Choice} (allowed : ∀ c ∈ choices, c.talks = true → talk = true)
    {s t : Run β σ} {told : List Sent} (ran : s.steps choices = some t) (before : P (s.outline told)) :
    P (t.outline (told ++ s.told choices)) := by
  induction choices generalizing s told with
  | nil =>
    cases ran
    simpa [Run.told] using before
  | cons c rest ih =>
    obtain ⟨u, moved, ran⟩ := Option.bind_eq_some_iff.mp ran
    have step := (step_outline told moved).weaken (allowed c List.mem_cons_self)
    have after := ih (fun c' member => allowed c' (List.mem_cons_of_mem _ member)) ran
      (kept step before)
    simpa [Run.told, moved] using after

/-- The jobs of every run that was started are the beginning of the stream. -/
theorem fed_of_run [Bookkeeping σ] {config : Config} {now : Instant}
    {createLog : String → Except FileError Stats.Sink} {work : Work β} {shared : β}
    {operations : List (Except Rows.DecodingError Operation)} {s₀ s : Run β σ}
    {choices : List Choice}
    (started : Run.start config now createLog work shared operations = .ok s₀)
    (ran : s₀.steps choices = some s) :
    Outline.Fed operations (s.outline (s₀.told choices)) := by
  have first : Outline.Fed operations (s₀.outline []) := by
    rw [(start_outline started).2]
    exact Outline.fed_first config work operations
  simpa using steps_outline (fun step fed => fed.step step) (fun _ _ _ => rfl) ran first

/-- Every run that was started is coherent. -/
theorem coherent_of_run {config : Config} {now : Instant}
    {createLog : String → Except FileError Stats.Sink} {work : Work β} {shared : β}
    {operations : List (Except Rows.DecodingError Operation)} {s₀ s : Run β}
    {choices : List Choice}
    (started : Run.start config now createLog work shared operations = .ok s₀)
    (ran : s₀.steps choices = some s) :
    Outline.Coherent operations (s.outline (s₀.told choices)) := by
  have first : Outline.Coherent operations (s₀.outline []) := by
    rw [(start_outline started).2]
    exact Outline.coherent_first config work operations
  simpa using steps_outline (fun step coherent => coherent.step step) (fun _ _ _ => rfl) ran first

end Run

end PacedLoad
