import PacedLoad.Proofs.Run.Coherence

/-!
# Writers take turns

The driver registers a writer on its first turn, so that the place of a job decides
its writer, whoever else takes part in the run.
-/

namespace PacedLoad

open Handler Watermark

variable {β : Type}

theorem Config.threadCount_pos (config : Config) (valid : config.validate = .ok ()) :
    0 < config.threadCount := by
  refine Nat.pos_of_ne_zero fun none => ?_
  rw [validate, if_pos none] at valid
  cases valid

/-- A usable configuration allows a handler for each writer. -/
theorem Config.threadCount_le (config : Config) (valid : config.validate = .ok ()) :
    config.threadCount ≤ config.maxInFlightOperations := by
  by_contra less
  unfold validate at valid
  split at valid
  · cases valid
  · rw [if_pos (Nat.lt_of_not_le less)] at valid
    cases valid

/-- Whether the writer of the operation at hand is known to the driver. -/
def Station.joined : Station → Nat
  | .announce _ | .submit .. => 1
  | _ => 0

namespace Outline

variable {operations : List (Except Rows.DecodingError Operation)} {o after : Outline β}

structure Turned (o : Outline β) : Prop where
  positive : 0 < o.threads
  job : ∀ (k : Nat) (t : Task β), o.jobs[k]? = some t → t.writer = k % o.threads
  announced : ∀ op writer, o.station = .submit op writer → writer = o.submitted % o.threads
  asking : ∀ op ticket, o.station = .enrolling op ticket →
    o.submitted % o.threads = o.writers.length
  count : o.station ≠ .ending →
    o.writers.length = min o.threads (o.submitted + o.station.joined)

/-- A turn that no registered writer takes is a first one. -/
theorem first_turn {threads submitted writers : Nat} (positive : 0 < threads)
    (count : writers = min threads submitted) :
    (submitted % threads = writers → writers + 1 = min threads (submitted + 1)) ∧
      (submitted % threads ≠ writers → writers = min threads (submitted + 1)) := by
  have bound := Nat.mod_lt submitted positive
  rcases Nat.lt_or_ge submitted threads with early | late
  · rw [Nat.mod_eq_of_lt early]
    omega
  · omega

/-- Jobs keep their places and writers. -/
theorem Turned.jobs (turned : Turned o) {k : Nat} {phase : Phase} : Turned (o.advance k phase) where
  positive := turned.positive
  job := by
    intro i t found
    rcases getElem?_modify_some found with ⟨rfl, u, before, rfl⟩ | ⟨-, before⟩
    · exact turned.job i u before
    · exact turned.job i t before
  announced := turned.announced
  asking := turned.asking
  count := turned.count

theorem Turned.step {talk : Bool} (turned : Turned o) (fed : Fed operations o)
    (enrolled : Enrolled o) (step : Step talk o after) : Turned after := by
  cases step with
  | still => exact turned
  | pull free =>
    refine ⟨turned.positive, turned.job, nofun, nofun, fun _ => ?_⟩
    have count := turned.count (by simp [free])
    rw [free] at count
    exact count
  | ask here turn =>
    refine ⟨turned.positive, turned.job, nofun, fun _ _ _ => turn, fun _ => ?_⟩
    have count := turned.count (by simp [here])
    rw [here] at count
    exact count
  | known here turn =>
    refine ⟨turned.positive, turned.job, nofun, nofun, fun _ => ?_⟩
    have count := turned.count (by simp [here])
    rw [here] at count
    exact (first_turn turned.positive count).2 turn
  | enrolled here =>
    refine ⟨turned.positive, turned.job, nofun, nofun, fun _ => ?_⟩
    have count := turned.count (by simp [here])
    rw [here] at count
    rw [List.length_append]
    exact (first_turn turned.positive count).1 (turned.asking _ _ here)
  | @announce op writer here turn =>
    have on : o.station ≠ .ending := by simp [here]
    refine ⟨turned.positive, turned.job, fun op' writer' same => ?_, nofun, fun _ => ?_⟩
    · cases same
      have inRange : (List.range o.writers.length)[o.submitted % o.threads]? = some writer := by
        rw [← enrolled.numbered on]
        exact turn
      obtain ⟨inside, equal⟩ := List.getElem?_eq_some_iff.mp inRange
      exact equal.symm.trans (List.getElem_range _)
    · have count := turned.count on
      rw [here] at count
      exact count
  | @submit op writer here =>
    refine ⟨turned.positive, fun k t found => ?_, nofun, nofun, fun _ => ?_⟩
    · rcases getElem?_concat_some found with before | ⟨rfl, rfl⟩
      · exact turned.job k t before
      · rw [← fed.submitted]
        exact turned.announced op writer here
    · have count := turned.count (by simp [here])
      rw [here] at count
      exact count
  | ends => exact ⟨turned.positive, turned.job, nofun, nofun, fun on => absurd rfl on⟩
  | close | wind | deliver | peer =>
    exact ⟨turned.positive, turned.job, turned.announced, turned.asking, turned.count⟩
  | answer | refused | interruption => exact turned.jobs
  | complete =>
    exact ⟨turned.positive, turned.jobs.job, turned.announced, turned.asking, turned.count⟩

end Outline

end PacedLoad
