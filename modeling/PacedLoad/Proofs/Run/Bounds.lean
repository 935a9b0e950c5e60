import PacedLoad.Proofs.Run.Correspondence
import PacedLoad.Proofs.Run.Finish
import PacedLoad.Proofs.Run.Room

/-!
# The loop of the driver keeps its bounds

Writers are registered one by one and take turns from the first operation on, whatever
the handlers do meanwhile, and no operation is initiated before its turn.  A ghost list
holds what the driver has initiated; it is read off the queue of the completion time
service.
-/

namespace PacedLoad

open Handler Watermark

variable {β : Type}

namespace Outline

variable {operations : List (Except Rows.DecodingError Operation)} {o after : Outline β}
  {talk : Bool} {threads : Nat}

/-- The `i`-th initiation of a run is made with the writer whose turn it is, for the `i`-th operation
of the stream, and no operation before that one starts later. -/
structure Initiation (operations : List (Except Rows.DecodingError Operation))
    (threads i writer : Nat) (time : Instant) : Prop where
  turn : writer = i % threads
  operation : ∃ op, operations[i]? = some (.ok op) ∧ op.scheduledStart = time
  latest : ∀ j x, j < i → operations[j]? = some (.ok x) → x.scheduledStart ≤ time

theorem Paced.initiation_job (paced : Paced operations threads o) {i : Nat} {t : Task β}
    (job : o.jobs[i]? = some t) : Initiation operations threads i t.writer (start t) where
  turn := paced.threads ▸ paced.turned.job i t job
  operation := ⟨t.operation, paced.coherent.fed.item_at job, rfl⟩
  latest j x earlier item := by
    have inside := (List.getElem?_eq_some_iff.mp job).1
    obtain ⟨u, before, rfl⟩ := paced.coherent.fed.exists_job (earlier.trans inside) item
    exact paced.coherent.fed.start_le earlier.le before job

theorem Paced.initiation_pending (paced : Paced operations threads o) {op : Operation}
    {writer : Nat} (here : o.station = .submit op writer) :
    Initiation operations threads o.submitted writer op.scheduledStart where
  turn := paced.threads ▸ paced.turned.announced op writer here
  operation := ⟨op, paced.coherent.fed.pending_item (by simp [here, Station.pending]), rfl⟩
  latest j x earlier item := by
    have fed := paced.coherent.fed
    rw [fed.submitted] at earlier
    obtain ⟨u, before, rfl⟩ := fed.exists_job earlier item
    exact fed.latest (by simp [here, Station.pending])
      (List.mem_map_of_mem (List.mem_of_getElem? before))

/-- All that was initiated kept the turns and the order of the stream. -/
theorem Paced.initiation (paced : Paced operations threads o) {i writer : Nat} {time : Instant}
    (place : o.initiated[i]? = some (writer, time)) :
    Initiation operations threads i writer time := by
  obtain ⟨e, found, same⟩ := Option.map_eq_some_iff.mp (List.getElem?_map.symm.trans place)
  cases same
  rcases Nat.lt_or_ge i o.jobs.length with inside | beyond
  · rw [entries, List.getElem?_append_left (by rwa [List.length_map]), List.getElem?_map] at found
    obtain ⟨t, job, rfl⟩ := Option.map_eq_some_iff.mp found
    exact paced.initiation_job job
  -- only the operation at hand may have been initiated without a job
  · rw [entries, List.getElem?_append_right (by rwa [List.length_map]), List.length_map] at found
    cases here : o.station with
    | submit op w =>
      rw [here, Station.announced, List.getElem?_singleton] at found
      split at found <;> cases found
      have last : i = o.submitted := by
        rw [paced.coherent.fed.submitted]
        omega
      exact last ▸ paced.initiation_pending here
    | _ => simp [here, Station.announced] at found

/-- The number of writers before a turn, and the writer that takes it. -/
theorem Paced.turn (paced : Paced operations threads o) :
    (o.station = .between ∨ (∃ op, o.station = .enrol op) →
      o.writers.length = min o.submitted threads) ∧
    ((∃ op, o.station = .announce op) → o.submitted % threads < o.writers.length ∧
      o.writers[o.submitted % threads]? = some (o.submitted % threads)) := by
  have turned := paced.turned
  have bound := Nat.mod_lt o.submitted turned.positive
  have small := Nat.mod_le o.submitted o.threads
  rw [← paced.threads]
  constructor
  · rintro (here | ⟨op, here⟩) <;>
    · have count := turned.count (by simp [here])
      rw [here] at count
      exact count.trans (Nat.min_comm _ _)
  · rintro ⟨op, here⟩
    have on : o.station ≠ .ending := by simp [here]
    have count := turned.count on
    rw [here] at count
    simp only [Station.joined] at count
    have inside : o.submitted % o.threads < o.writers.length := by omega
    refine ⟨inside, ?_⟩
    rw [paced.coherent.tracked.enrolled.numbered on, List.getElem?_range inside]

end Outline

namespace Run

variable {config : Config} {now : Instant} {createLog : String → Except FileError Stats.Sink}
  {work : Work β} {shared : β} {operations : List (Except Rows.DecodingError Operation)}
  {s₀ s t : Run β} {choices : List Choice}

/-- What holds of the loop of the driver wherever it stands. -/
structure Bounded (operations : List (Except Rows.DecodingError Operation)) (config : Config)
    (s : Run β) : Prop where
  configured : s.config = config
  positive : 0 < config.threadCount
  /-- No more handlers are in flight than allowed. -/
  most : s.inFlight ≤ config.maxInFlightOperations
  /-- There is room for another one when the next operation is taken. -/
  room : s.stage = .pull → s.inFlight < config.maxInFlightOperations
  upcoming : s.stage = .pull → s.upcoming = operations.drop s.submitted
  /-- The operation at hand is the one that follows what was submitted. -/
  pending : ∀ op ∈ s.stage.station.pending, operations[s.submitted]? = some (.ok op)
  /-- There is a writer for each operation before, up to the number of threads. -/
  enrolled : s.stage = .pull ∨ (∃ op, s.stage = .enrol op) →
    s.writers.length = min s.submitted config.threadCount
  slot : ∀ op, s.stage = .enrol op → s.slot ≤ s.writers.length
  /-- The writer that takes its turn is registered. -/
  writer : ∀ op, s.stage = .announce op → s.slot < s.writers.length ∧
    s.writers[s.slot]? = some (s.submitted % config.threadCount)

/-- The loop of the driver keeps its bounds, for every configuration that was found valid, every
stream and every order in which handlers finish.  What is initiated at a place of the run is the
operation at this place of the stream, and every operation that was submitted was initiated. -/
theorem bounded_of_run
    (started : Run.start config now createLog work shared operations = .ok s₀)
    (ran : s₀.steps choices = some s) :
    Bounded operations config s ∧ s.submitted ≤ (s₀.initiated choices).length ∧
      ∀ i writer time, (s₀.initiated choices)[i]? = some (writer, time) →
        Outline.Initiation operations config.threadCount i writer time := by
  have paced := paced_of_run started ran
  have roomy := roomy_of_run started ran
  have configured : s.config = config := (audited_of_run started ran).closing.ruled.1
  have positive : 0 < config.threadCount := paced.threads ▸ paced.turned.positive
  have slot : s.slot = s.submitted % config.threadCount := by rw [Run.slot, configured]
  have station : ∀ {stage}, s.stage = stage →
      (s.outline (s₀.told choices)).station = stage.station := congrArg Stage.station
  have enrolled : s.stage = .pull ∨ (∃ op, s.stage = .enrol op) →
      s.writers.length = min s.submitted config.threadCount := by
    rintro (here | ⟨op, here⟩)
    · exact paced.turn.1 (.inl (station here))
    · exact paced.turn.1 (.inr ⟨op, station here⟩)
  refine ⟨⟨configured, positive, roomy.most, fun here => roomy.room (by rw [here]; rfl),
    fun here => paced.coherent.fed.upcoming (station here),
    fun op mine => paced.coherent.fed.pending_item mine, enrolled, ?_, ?_⟩, ?_, ?_⟩
  · intro op here
    rw [enrolled (.inr ⟨op, here⟩), slot]
    exact Nat.le_min.mpr ⟨Nat.mod_le _ _, (Nat.mod_lt _ positive).le⟩
  · intro op here
    rw [slot]
    exact paced.turn.2 ⟨op, station here⟩
  · have submitted : s.submitted = (s.outline (s₀.told choices)).jobs.length :=
      paced.coherent.fed.submitted
    rw [← initiated_of_run started ran, submitted]
    simp [Outline.initiated, Outline.entries]
  · intro i writer time place
    rw [← initiated_of_run started ran] at place
    exact paced.initiation place

def narrow : Config := { single with maxInFlightOperations := 1 }

/-- The driver waits until the first operation has finished, and initiates the second. -/
def narrowChoices : List Choice :=
  [.driver false, .driver false, .watermark] ++ List.replicate 4 (.driver false) ++
    List.replicate 6 (.task 0 (.saturate 10)) ++ List.replicate 7 (.driver false)

theorem bounded_of_run_narrow : ∃ (s₀ s : Run Unit),
    Run.start narrow .first (fun _ => .error (.other "")) prompt () pair = .ok s₀ ∧
      s₀.steps narrowChoices = some s ∧ Bounded pair narrow s ∧
      s₀.initiated narrowChoices = [(0, .saturate 10), (0, .saturate 20)] ∧
      Outline.Initiation pair 1 1 0 (.saturate 20) := by
  obtain ⟨s₀, s, started, ran, told⟩ : ∃ (s₀ s : Run Unit),
      Run.start narrow .first (fun _ => .error (.other "")) prompt () pair = .ok s₀ ∧
        s₀.steps narrowChoices = some s ∧
        s₀.initiated narrowChoices = [(0, .saturate 10), (0, .saturate 20)] :=
    ⟨_, _, rfl, rfl, rfl⟩
  obtain ⟨bounded, -, initiations⟩ := bounded_of_run started ran
  exact ⟨s₀, s, started, ran, bounded, told, initiations 1 0 (.saturate 20) (by rw [told]; rfl)⟩

end Run

end PacedLoad
