import Mathlib.Data.Nat.Find
import PacedLoad.Proofs.Run.Coherence
import PacedLoad.Proofs.Run.Steady

/-!
# Which waiting operations can go on

Without peers, and once the worker has caught up with the queue, the slot has
reached a time exactly if that time precedes all operations that have not finished
and every writer without such an operation has announced a start that is not below
it.  A writer that has run out of operations can therefore hold back all others;
with at most two writers this does not happen.
-/

namespace PacedLoad

open Handler Watermark

variable {β : Type}

/-- Every writer whose operations have all finished has announced a start that is not below
`v`. -/
def IdleReached (tasks : List (Task β)) (v : Instant) : Prop :=
  ∀ x ∈ tasks, (∀ y ∈ tasks, y.writer = x.writer → y.phase.isFinished = true) →
    ∃ y ∈ tasks, y.writer = x.writer ∧ v ≤ y.operation.scheduledStart

/-- Operations depend only on starts of earlier operations, and only on earlier starts. -/
def Backward (operations : List (Except Rows.DecodingError Operation)) : Prop :=
  ∀ (j : Nat) (op : Operation), operations[j]? = some (.ok op) →
    ∀ required, op.dependencyTime = some required → required < op.scheduledStart ∧
      ∃ (i : Nat) (x : Operation), i < j ∧ operations[i]? = some (.ok x) ∧
        x.scheduledStart = required

namespace Outline

variable {operations : List (Except Rows.DecodingError Operation)} {threads : Nat} {o : Outline β}

/-- The worker knows all jobs once the queue is empty. -/
theorem Steady.ledger (steady : Steady operations threads o) (between : o.station = .between)
    (drained : o.queue = []) :
    Ledger (o.jobs.map entry) o.held ∧ o.held.length = min threads o.jobs.length := by
  have on : o.station ≠ .ending := by simp [between]
  obtain ⟨rest, ws, foreseen⟩ := steady.coherent.tracked.foreseen
  have seen := foreseen.seen
  rw [foreseen.queue (steady.calm on).running, drained] at seen
  cases seen
  have ledger := foreseen.ledger
  have enrolled := foreseen.enrolled on
  have count := steady.turned.count on
  simp only [entries, between, Station.announced, List.append_nil] at ledger
  simp only [between, Station.expects, Nat.add_zero] at enrolled
  simp only [between, Station.joined, Nat.add_zero, steady.coherent.fed.submitted,
    steady.threads] at count
  exact ⟨ledger, by rw [enrolled, count]⟩

/-- What the slot has reached. -/
theorem Steady.reached_iff (steady : Steady operations threads o) (between : o.station = .between)
    (drained : o.queue = []) (present : o.jobs ≠ []) {v : Instant} (visible : v < .last) :
    (∃ gct, o.worker.state.published = some gct ∧ v ≤ gct) ↔
      (∀ y ∈ o.jobs, y.phase.isFinished = false → v < start y) ∧ IdleReached o.jobs v := by
  have calm := steady.calm (by simp [between])
  obtain ⟨ledger, count⟩ := steady.ledger between drained
  have positive : 0 < min threads o.jobs.length :=
    lt_min (steady.threads ▸ steady.turned.positive) (List.length_pos_of_ne_nil present)
  have ascending : ((o.jobs.map entry).map Entry.start).Pairwise (· ≤ ·) := by
    rw [List.map_map]
    exact steady.coherent.fed.ascending
  -- what a writer has reached, said of its jobs
  have reached : ∀ w writer, o.held[w]? = some writer →
      ((∃ known, writer.completionTime = some known ∧ v ≤ known) ↔
        (∃ y ∈ o.jobs, y.writer = w ∧ v ≤ start y) ∧
          ∀ y ∈ o.jobs, y.writer = w → y.phase.isFinished = false → v < start y) := by
    intro w writer found
    rw [ledger.reached_iff ascending found
      (steady.coherent.showing.ordered writer (List.mem_of_getElem? found)) v]
    simp only [List.mem_map, exists_exists_and_eq_and, forall_exists_index, and_imp,
      forall_apply_eq_imp_iff₂, entry]
    refine and_congr_right fun _ => ?_
    constructor
    · exact fun above y member mine unfinished =>
        above y member mine (Phase.completed_of_not_finished unfinished)
    · intro above y member mine incomplete
      refine above y member mine (Bool.eq_false_iff.mpr fun ended => ?_)
      rw [calm.complete y member ended] at incomplete
      cases incomplete
  rw [steady.coherent.showing.shown.reached_iff visible, State.reached_iff, calm.alone]
  constructor
  · rintro ⟨-, writers, -⟩
    have own : ∀ y ∈ o.jobs, (∃ x ∈ o.jobs, x.writer = y.writer ∧ v ≤ start x) ∧
        ∀ x ∈ o.jobs, x.writer = y.writer → x.phase.isFinished = false → v < start x := by
      intro y member
      have known : y.writer < o.held.length := ledger.known _ (List.mem_map_of_mem member)
      have found := List.getElem?_eq_getElem known
      exact (reached y.writer _ found).mp (writers _ (List.mem_of_getElem? found))
    exact ⟨fun y member => (own y member).2 y member rfl, fun x member _ => (own x member).1⟩
  · rintro ⟨above, idle⟩
    refine ⟨.inl fun none => ?_, fun writer member => ?_, fun e member => ?_⟩
    · have empty : o.held.length = 0 := by rw [Outline.held, none]; rfl
      omega
    · obtain ⟨w, found⟩ := List.getElem?_of_mem member
      have inside : w < o.held.length := (List.getElem?_eq_some_iff.mp found).1
      -- the first turn of the writer
      obtain ⟨x, job⟩ : ∃ x, o.jobs[w]? = some x := ⟨_, List.getElem?_eq_getElem (by omega)⟩
      have mine : x.writer = w := by
        rw [steady.turned.job w x job, steady.threads, Nat.mod_eq_of_lt (by omega)]
      refine (reached w writer found).mpr ⟨?_, fun y listed _ => above y listed⟩
      by_cases busy : ∃ y ∈ o.jobs, y.writer = w ∧ y.phase.isFinished = false
      · obtain ⟨y, listed, same, unfinished⟩ := busy
        exact ⟨y, listed, same, le_of_lt (above y listed unfinished)⟩
      · rw [← mine]
        refine idle x (List.mem_of_getElem? job) fun y listed same => ?_
        by_contra unfinished
        exact busy ⟨y, listed, same.trans mine, Bool.eq_false_iff.mpr unfinished⟩
    · cases member

/-- With at most two writers, one that has run out of operations does not hold back the first
operation that has not finished: it has had a turn since any earlier one. -/
theorem Steady.idle_of_few (steady : Steady operations threads o) (few : threads ≤ 2) {u i : Nat}
    {t x : Task β} (job : o.jobs[u]? = some t) (unfinished : t.phase.isFinished = false)
    (earlier : i < u) (before : o.jobs[i]? = some x) : IdleReached o.jobs (start x) := by
  intro y member idle
  obtain ⟨k, here⟩ := List.getElem?_of_mem member
  have turn : ∀ (j : Nat) (z : Task β), o.jobs[j]? = some z → z.writer = j % threads := by
    rw [← steady.threads]
    exact steady.turned.job
  have other : u % threads ≠ k % threads := by
    intro same
    have ended := idle t (List.mem_of_getElem? job) (by rw [turn u t job, turn k y here, same])
    rw [unfinished] at ended
    cases ended
  by_cases mine : i % threads = k % threads
  · exact ⟨x, List.mem_of_getElem? before, by rw [turn i x before, turn k y here, mine], le_rfl⟩
  · have positive : 0 < threads := steady.threads ▸ steady.turned.positive
    have next : (i + 1) % threads = k % threads ∧ i + 1 < u := by
      obtain rfl | rfl : threads = 1 ∨ threads = 2 := by omega
      all_goals omega
    have inside := (List.getElem?_eq_some_iff.mp job).1
    obtain ⟨z, following⟩ : ∃ z, o.jobs[i + 1]? = some z :=
      ⟨_, List.getElem?_eq_getElem (by omega)⟩
    exact ⟨z, List.mem_of_getElem? following, by rw [turn _ z following, turn k y here, next.1],
      steady.coherent.fed.start_le (Nat.le_succ i) before following⟩

end Outline

theorem dependencyMet_iff {op : Operation} {gct : Option Instant} :
    dependencyMet op gct = true ↔ ∀ required, op.dependencyTime = some required →
      ∃ known, gct = some known ∧ required ≤ known := by
  unfold dependencyMet
  cases op.dependencyTime with
  | none => simp
  | some required => cases gct <;> simp

/-- Whether an outcome was taken does not matter. -/
theorem idleReached_jobs (p : Pool β) (v : Instant) :
    IdleReached p.jobs v ↔ IdleReached p.tasks v := by
  simp [IdleReached, Pool.jobs, Task.untaken]

/-- The task at place `u` has not finished, but all before it have. -/
structure FirstUnfinished (tasks : List (Task β)) (u : Nat) (x : Task β) : Prop where
  found : tasks[u]? = some x
  unfinished : x.phase.isFinished = false
  least : ∀ (k : Nat) (y : Task β), tasks[k]? = some y → y.phase.isFinished = false → u ≤ k

theorem exists_first_unfinished {tasks : List (Task β)} {t : Task β} (member : t ∈ tasks)
    (unfinished : t.phase.isFinished = false) :
    ∃ (u : Nat) (x : Task β), FirstUnfinished tasks u x := by
  classical
  have some : ∃ (u : Nat) (x : Task β), tasks[u]? = some x ∧ x.phase.isFinished = false := by
    obtain ⟨u, found⟩ := List.getElem?_of_mem member
    exact ⟨u, t, found, unfinished⟩
  obtain ⟨x, found, open_⟩ := Nat.find_spec some
  exact ⟨Nat.find some, x, found, open_, fun k y here waits => Nat.find_min' some ⟨y, here, waits⟩⟩

namespace Run

variable {config : Config} {now : Instant} {createLog : String → Except FileError Stats.Sink}
  {work : Work β} {shared : β} {operations : List (Except Rows.DecodingError Operation)}
  {s₀ s : Run β} {choices : List Choice}

section Settled

variable {told : List Sent}

/-- The look of one operation at its dependency. -/
theorem dependencyMet_iff_of_steady
    (steady : Outline.Steady operations config.threadCount (s.outline told))
    (backward : Backward operations) (between : s.stage.station = .between)
    (settled : s.floor.watermark.core.queue = []) {k : Nat} {t : Task β}
    (found : s.floor.pool.tasks[k]? = some t) {required : Instant}
    (depends : t.operation.dependencyTime = some required) :
    dependencyMet t.operation s.floor.watermark.gct = true ↔
      (∀ y ∈ s.floor.pool.tasks, y.phase.isFinished = false →
        required < y.operation.scheduledStart) ∧ IdleReached s.floor.pool.tasks required := by
  have job : (s.outline told).jobs[k]? = some t.untaken := jobs_some found
  have item : operations[k]? = some (.ok t.operation) :=
    steady.coherent.fed.item_at (t := t.untaken) job
  have visible : required < .last :=
    lt_of_lt_of_le (backward k t.operation item required depends).1 (Instant.le_last _)
  have here := steady.reached_iff between settled
    (List.ne_nil_of_mem (List.mem_of_getElem? job)) visible
  rw [dependencyMet_iff, depends, ← idleReached_jobs]
  simpa [Run.outline, Pool.jobs, Task.untaken, Outline.start, Service.gct] using here

/-- The first operation that has not finished is not held back by any other. -/
theorem first_dependencyMet_iff
    (steady : Outline.Steady operations config.threadCount (s.outline told))
    (backward : Backward operations) (between : s.stage.station = .between)
    (settled : s.floor.watermark.core.queue = []) {v : Nat} {t : Task β}
    (first : FirstUnfinished s.floor.pool.tasks v t) :
    dependencyMet t.operation s.floor.watermark.gct = true ↔
      ∀ required, t.operation.dependencyTime = some required →
        IdleReached s.floor.pool.tasks required := by
  have fed := steady.coherent.fed
  have job : (s.outline told).jobs[v]? = some t.untaken := jobs_some first.found
  have item : operations[v]? = some (.ok t.operation) := fed.item_at (t := t.untaken) job
  have precedes : ∀ required, t.operation.dependencyTime = some required →
      ∀ y ∈ s.floor.pool.tasks, y.phase.isFinished = false →
        required < y.operation.scheduledStart := by
    intro required depends y member waits
    obtain ⟨k, here⟩ := List.getElem?_of_mem member
    have le : Outline.start t.untaken ≤ Outline.start y.untaken :=
      fed.start_le (first.least k y here waits) job (jobs_some here)
    exact lt_of_lt_of_le (backward v t.operation item required depends).1 le
  have reached {required : Instant} (depends : t.operation.dependencyTime = some required) :=
    dependencyMet_iff_of_steady steady backward between settled first.found depends
  constructor
  · exact fun passes required depends => ((reached depends).mp passes).2
  · intro idle
    cases depends : t.operation.dependencyTime with
    | none => simp [dependencyMet, depends]
    | some required =>
      exact (reached depends).mpr ⟨precedes required depends, idle required depends⟩

/-- With at most two writers no idle writer holds back the first operation that has not finished. -/
theorem first_idleReached
    (steady : Outline.Steady operations config.threadCount (s.outline told))
    (backward : Backward operations) (few : config.threadCount ≤ 2) {v : Nat} {t : Task β}
    (first : FirstUnfinished s.floor.pool.tasks v t) {required : Instant}
    (depends : t.operation.dependencyTime = some required) :
    IdleReached s.floor.pool.tasks required := by
  have fed := steady.coherent.fed
  have job : (s.outline told).jobs[v]? = some t.untaken := jobs_some first.found
  have item : operations[v]? = some (.ok t.operation) := fed.item_at (t := t.untaken) job
  obtain ⟨-, i, x, earlier, there, rfl⟩ := backward v t.operation item required depends
  have inside := (List.getElem?_eq_some_iff.mp job).1
  obtain ⟨before, listed⟩ : ∃ before, (s.outline told).jobs[i]? = some before :=
    ⟨_, List.getElem?_eq_getElem (by omega)⟩
  rw [← fed.item_eq listed there, ← idleReached_jobs]
  exact steady.idle_of_few few job first.unfinished earlier listed

end Settled

/-- Once the service has caught up with the operations that were submitted, one of them passes
the look at its dependency exactly if that time precedes all operations that have not finished,
and no writer without such an operation holds it back.  The first operation that has not finished
passes exactly under the second condition, and always with at most two writers. -/
theorem dependencyMet_of_settled
    (started : Run.start config now createLog work shared operations = .ok s₀)
    (ran : s₀.steps choices = some s) (alone : config.peerIds = [])
    (silent : ∀ c ∈ choices, c.talks = false) (returning : Returning work)
    (backward : Backward operations) (between : s.stage.station = .between)
    (settled : s.floor.watermark.core.queue = []) {u : Task β} (submitted : u ∈ s.floor.pool.tasks)
    (unfinished : u.phase.isFinished = false) :
    (∀ (k : Nat) (t : Task β), s.floor.pool.tasks[k]? = some t →
      t.writer = k % config.threadCount ∧
        ∀ required, t.operation.dependencyTime = some required →
          (dependencyMet t.operation s.floor.watermark.gct = true ↔
            (∀ y ∈ s.floor.pool.tasks, y.phase.isFinished = false →
              required < y.operation.scheduledStart) ∧
              IdleReached s.floor.pool.tasks required)) ∧
    ∃ (v : Nat) (t : Task β), FirstUnfinished s.floor.pool.tasks v t ∧
      (dependencyMet t.operation s.floor.watermark.gct = true ↔
        ∀ required, t.operation.dependencyTime = some required →
          IdleReached s.floor.pool.tasks required) ∧
      (config.threadCount ≤ 2 → dependencyMet t.operation s.floor.watermark.gct = true) := by
  have steady := steady_of_run started ran alone silent returning
  refine ⟨fun k t found => ⟨?_, fun required depends => ?_⟩, ?_⟩
  · rw [← steady.threads]
    exact steady.turned.job k t.untaken (jobs_some found)
  · exact dependencyMet_iff_of_steady steady backward between settled found depends
  · obtain ⟨v, t, first⟩ := exists_first_unfinished submitted unfinished
    have met := first_dependencyMet_iff steady backward between settled first
    exact ⟨v, t, first, met, fun few =>
      met.mpr fun required depends => first_idleReached steady backward few first depends⟩

def triple : Config := { Config.standard with threadCount := 3 }

/-- Three operations, and a last one that depends on the third. -/
def spread : List (Except Rows.DecodingError Operation) :=
  [.ok ⟨0, "write", .saturate 1, none, .null⟩, .ok ⟨1, "write", .saturate 5, none, .null⟩,
    .ok ⟨2, "write", .saturate 6, none, .null⟩,
    .ok ⟨3, "read", .saturate 10, some (.saturate 6), .null⟩]

/-- The driver submits an operation with a new writer, after `n` messages have been taken. -/
def enlist (n : Nat) : List Choice :=
  [.driver false, .driver false] ++ List.replicate n .watermark ++
    List.replicate 6 (.driver false)

/-- All operations are submitted and all but the last one finish; the service hears of all this,
and the last operation looks at the slot in vain. -/
def spreadChoices : List Choice :=
  enlist 1 ++ enlist 2 ++ enlist 2 ++ List.replicate 8 (.driver false) ++
    (List.range 3).flatMap (fun k => List.replicate 6 (.task k (.saturate 10))) ++
    List.replicate 5 .watermark ++ List.replicate 3 (.driver false) ++
    List.replicate 2 (.task 3 (.saturate 20))

theorem spread_backward : Backward spread := by
  intro j op there required depends
  match j with
  | 0 | 1 | 2 =>
    cases there
    cases depends
  | 3 =>
    cases there
    cases depends
    exact ⟨by decide, 2, _, by decide, rfl, rfl⟩
  | j + 4 => cases there

theorem returning_prompt : Returning prompt := by
  intro before op after r ran
  cases ran
  exact ⟨_, rfl⟩

/-- The last operation waits for a time that the second writer will not reach. -/
theorem spread_run : ∃ (s₀ s : Run Unit) (first second third last : Task Unit),
    Run.start triple .first (fun _ => .error (.other "")) prompt () spread = .ok s₀ ∧
      s₀.steps spreadChoices = some s ∧ s.stage = .drain ∧
      s.floor.watermark.core.queue = [] ∧ s.floor.pool.tasks = [first, second, third, last] ∧
      first.phase.isFinished = true ∧ second.phase.isFinished = true ∧
      third.phase.isFinished = true ∧ last.phase.isFinished = false ∧
      last.phase.held = true ∧ last.operation.scheduledStart = .saturate 10 ∧
      dependencyMet last.operation s.floor.watermark.gct = false :=
  ⟨_, _, _, _, _, _, rfl, rfl, rfl, rfl, rfl, rfl, rfl, rfl, rfl, rfl, rfl, rfl⟩

theorem dependencyMet_of_settled_spread : ∃ (s₀ s : Run Unit) (u : Task Unit),
    Run.start triple .first (fun _ => .error (.other "")) prompt () spread = .ok s₀ ∧
      s₀.steps spreadChoices = some s ∧ triple.peerIds = [] ∧
      (∀ c ∈ spreadChoices, c.talks = false) ∧ Returning prompt ∧ Backward spread ∧
      s.stage.station = .between ∧ s.floor.watermark.core.queue = [] ∧
      u ∈ s.floor.pool.tasks ∧ u.phase.isFinished = false ∧
      ∃ (v : Nat) (t : Task Unit), FirstUnfinished s.floor.pool.tasks v t ∧
        (dependencyMet t.operation s.floor.watermark.gct = true ↔
          ∀ required, t.operation.dependencyTime = some required →
            IdleReached s.floor.pool.tasks required) ∧
        (triple.threadCount ≤ 2 → dependencyMet t.operation s.floor.watermark.gct = true) := by
  obtain ⟨s₀, s, first, second, third, last, started, ran, draining, settled, tasks, -, -, -,
    unfinished, -⟩ := spread_run
  have silent : ∀ c ∈ spreadChoices, c.talks = false := by decide
  have between : s.stage.station = .between := by rw [draining]; rfl
  have member : last ∈ s.floor.pool.tasks := by simp [tasks]
  exact ⟨s₀, s, last, started, ran, rfl, silent, returning_prompt, spread_backward, between, settled,
    member, unfinished, (dependencyMet_of_settled started ran rfl silent returning_prompt
      spread_backward between settled member unfinished).2⟩

/-- All operations are submitted, what has not finished is due and waits, the service has taken all
messages, and still no operation passes the look at its dependency. -/
theorem blocked_spread : ∃ (s₀ s : Run Unit),
    Run.start triple .first (fun _ => .error (.other "")) prompt () spread = .ok s₀ ∧
      s₀.steps spreadChoices = some s ∧ triple.peerIds = [] ∧
      (∀ c ∈ spreadChoices, c.talks = false) ∧ Returning prompt ∧ Backward spread ∧
      s.stage = .drain ∧ s.floor.watermark.core.queue = [] ∧
      (∃ t ∈ s.floor.pool.tasks, t.phase.isFinished = false) ∧
      ∀ t ∈ s.floor.pool.tasks, t.phase.isFinished = false →
        t.phase.held = true ∧ t.operation.scheduledStart = .saturate 10 ∧
          dependencyMet t.operation s.floor.watermark.gct = false := by
  obtain ⟨s₀, s, first, second, third, last, started, ran, draining, settled, tasks, one, two, three,
    unfinished, waits⟩ := spread_run
  refine ⟨s₀, s, started, ran, rfl, by decide, returning_prompt, spread_backward, draining, settled,
    ⟨last, by simp [tasks], unfinished⟩, fun t member open_ => ?_⟩
  rw [tasks] at member
  simp only [List.mem_cons, List.not_mem_nil, or_false] at member
  rcases member with rfl | rfl | rfl | rfl
  · exact absurd open_ (by simp [one])
  · exact absurd open_ (by simp [two])
  · exact absurd open_ (by simp [three])
  · exact waits

end Run

end PacedLoad
