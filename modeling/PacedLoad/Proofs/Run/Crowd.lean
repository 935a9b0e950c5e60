import PacedLoad.Proofs.Run.Moves
import PacedLoad.Watermark.Board

/-!
# A crowd of ties

A run with one writer whose operations all start at one time.  As long as none of them
is carried out, each adds a copy of that time.  When there are 2^32 + 1 of them, their
number has become one: the first completion takes the time away altogether.
-/

namespace PacedLoad.Run

open Handler Watermark

/-- A configuration with one writer that leaves more than 2^32 operations in flight. -/
def wide : Config := { single with maxInFlightOperations := 8589934592, toleratedDelayMs := 0 }

def noon : Instant := .saturate 10

def atNoon (id : Nat) (kind : String) (dependencyTime : Option Instant) : Operation :=
  ⟨id, kind, noon, dependencyTime, .null⟩

/-- Its task as long as it waits. -/
def guest (op : Operation) : Task Unit := ⟨op, 0, prompt, .waiting, false⟩

/-- The run after `n` operations were submitted, which all wait.  The driver is about to take the
next one. -/
def crowd (b : Board) (n : Nat) (tasks : List (Task Unit))
    (upcoming : List (Except Rows.DecodingError Operation)) : Run Unit Board where
  config := wide
  work := prompt
  floor :=
    { watermark :=
        { core :=
            { worker := ⟨Coordinator.publish b, n, none, .running⟩
              queue := []
              counted := n
              shuttingDown := false
              cells := [(Cell.fresh.resolve (.writer 0)).dropPending] }
          patience := wide.watermarkPatience
          writers := [0] }
      journal := .empty
      policy := wide.policy
      pool := ⟨1, tasks, [], [], false⟩
      shared := () }
  stats := .start .first wide.policy wide.recordStartDelay wide.statsPatience none
  upcoming := upcoming
  submitted := n
  previous := some noon
  writers := [0]
  failed := 0
  stage := .pull

variable {b after : Board} {n : Nat} {tasks : List (Task Unit)}
  {rest : List (Except Rows.DecodingError Operation)} {id : Nat} {kind : String}
  {dependencyTime : Option Instant}

/-- The writer has its turn. -/
theorem crowd_slot (stage : Stage) : ((crowd b n tasks rest).goTo stage).slot = 0 := Nat.mod_one n

def joinChoices : List Choice :=
  [.driver false, .watermark, .driver false, .driver false, .driver false, .driver false]

theorem crowd_join (accepted : Bookkeeping.apply b (.initiated 0 noon) = .ok after)
    (room : tasks.length + 1 < 8589934592) :
    ((crowd b n tasks rest).goTo (.announce (atNoon id kind dependencyTime))).steps joinChoices =
      some (crowd after (n + 1) (tasks ++ [guest (atNoon id kind dependencyTime)]) rest) := by
  let op := atNoon id kind dependencyTime
  let joined := crowd after (n + 1) (tasks ++ [guest op]) rest
  let sending : Run Unit Board := { crowd b n tasks rest with
    stage := .submit op 0
    floor := { (crowd b n tasks rest).floor with
      watermark := { (crowd b n tasks rest).floor.watermark with
        core := { (crowd b n tasks rest).floor.watermark.core with
          queue := [.event (.initiated 0 noon)], counted := n + 1 } } } }
  let sent : Run Unit Board := { crowd after (n + 1) tasks rest with
    submitted := n, stage := .submit op 0 }
  have announced : ((crowd b n tasks rest).goTo (.announce op)).step (.driver false) =
      some sending := by
    simp only [step, stepDriver, announce, goTo]
    rw [show ({ crowd b n tasks rest with stage := .announce op } : Run Unit Board).slot = 0 from
      Nat.mod_one n]
    rfl
  have received : (⟨Coordinator.publish b, n, none, .running⟩ : Worker (Coordinator Board)).receive
      duty .first .empty (.event (.initiated 0 noon)) =
        (⟨Coordinator.publish after, n + 1, none, .running⟩, .empty, none) := by
    simp only [Worker.receive, duty]
    rw [show Bookkeeping.apply (Coordinator.publish b).state (.initiated 0 noon) = .ok after from
      accepted]
    rfl
  have processed : sending.step .watermark = some sent := by
    have delivered : sending.floor.watermark.core.deliver duty .first .empty =
        (sent.floor.watermark.core, .empty) := by
      simp only [PacedLoad.Service.deliver, PacedLoad.Service.isOpen, sending, crowd,
        beq_self_eq_true, received]
      rfl
    simp only [step, Floor.stepWatermark, Watermark.Service.deliver]
    rw [show sending.floor.journal = .empty from rfl, delivered]
    rfl
  have submitted : sent.step (.driver false) = some (joined.goTo .window) := rfl
  have space : (joined.goTo .window).step (.driver false) = some (joined.goTo .sweep) := by
    refine if_pos (Nat.lt_of_le_of_lt List.countP_le_length ?_)
    change (tasks ++ [guest op]).length < 8589934592
    rw [List.length_append]
    exact room
  have swept : (joined.goTo .sweep).step (.driver false) = some (joined.goTo .check) := rfl
  have checked : (joined.goTo .check).step (.driver false) = some joined := rfl
  exact (steps_cons announced).trans <| (steps_cons processed).trans <|
    (steps_cons submitted).trans <| (steps_cons space).trans <| (steps_cons swept).trans <|
      (steps_cons checked).trans rfl

def takeChoices : List Choice := [.driver false, .driver false]

theorem crowd_take :
    (crowd b n tasks (.ok (atNoon id kind dependencyTime) :: rest)).steps takeChoices =
      some ((crowd b n tasks rest).goTo (.announce (atNoon id kind dependencyTime))) := by
  have pulled : (crowd b n tasks (.ok (atNoon id kind dependencyTime) :: rest)).step (.driver false) =
      some ((crowd b n tasks rest).goTo (.enrol (atNoon id kind dependencyTime))) := rfl
  have known : ((crowd b n tasks rest).goTo (.enrol (atNoon id kind dependencyTime))).step
      (.driver false) =
        some ((crowd b n tasks rest).goTo (.announce (atNoon id kind dependencyTime))) := by
    refine congrArg some (if_neg ?_)
    rw [crowd_slot]
    exact nofun
  simp only [takeChoices, steps, pulled, known, Option.bind_some]

theorem crowd_open (id : Nat) (kind : String) (dependencyTime : Option Instant)
    (rest : List (Except Rows.DecodingError Operation)) : ∃ s₀ : Run Unit Board,
    Run.start wide .first (fun _ => .error (.other "")) prompt ()
        (.ok (atNoon id kind dependencyTime) :: rest) = .ok s₀ ∧
      s₀.steps [.driver false, .driver false, .watermark, .driver false] =
        some ((crowd ⟨[.fresh], []⟩ 0 [] rest).goTo (.announce (atNoon id kind dependencyTime))) :=
  ⟨_, rfl, rfl⟩

/-- The board on which the writer has `copies` of the time outstanding. -/
def full (copies : UInt32) : Board := ⟨[⟨[(noon, copies)], some noon⟩], []⟩

/-- Operations that differ in nothing but their number. -/
def ties (ids : List Nat) : List Operation := ids.map fun id => atNoon id "write" none

/-- The moves with which `n` operations join the others, one after the other. -/
def gatherChoices : Nat → List Choice
  | 0 => []
  | n + 1 => takeChoices ++ joinChoices ++ gatherChoices n

/-- Each operation adds a copy of the time, in 32 bits. -/
theorem crowd_gather (ids : List Nat) (copies : UInt32) (n : Nat) (tasks : List (Task Unit))
    (room : tasks.length + ids.length < 8589934592) :
    (crowd (full copies) n tasks ((ties ids).map .ok)).steps (gatherChoices ids.length) =
      some (crowd (full (copies + .ofNat ids.length)) (n + ids.length)
        (tasks ++ (ties ids).map guest) []) := by
  induction ids generalizing copies n tasks with
  | nil => simp [ties, gatherChoices, steps]
  | cons id later ih =>
    rw [List.length_cons] at room
    have joined : ((crowd (full copies) n tasks ((ties later).map .ok)).goTo
          (.announce (atNoon id "write" none))).steps joinChoices =
        some (crowd (full (copies + 1)) (n + 1) (tasks ++ [guest (atNoon id "write" none)])
          ((ties later).map .ok)) := crowd_join rfl (by omega)
    have gathered := ih (copies + 1) (n + 1) (tasks ++ [guest (atNoon id "write" none)])
      (by rw [List.length_append, List.length_singleton]; omega)
    have number : copies + 1 + .ofNat later.length = copies + .ofNat (later.length + 1) := by
      rw [UInt32.ofNat_add, UInt32.add_assoc, UInt32.add_comm 1]
      rfl
    rw [number, Nat.add_assoc, Nat.add_comm 1, List.append_assoc] at gathered
    calc (crowd (full copies) n tasks ((ties (id :: later)).map .ok)).steps
          (gatherChoices (later.length + 1))
        = ((crowd (full copies) n tasks (.ok (atNoon id "write" none) :: (ties later).map .ok)).steps
            takeChoices).bind fun t => (t.steps joinChoices).bind fun u =>
              u.steps (gatherChoices later.length) := by
          rw [gatherChoices, List.append_assoc, steps_append]
          simp only [steps_append]
          rfl
      _ = _ := by
          rw [crowd_take, Option.bind_some, joined, Option.bind_some, gathered]
          rfl

/-- The first operation, and one that depends on the time itself, before the others. -/
def crowdStream (ids : List Nat) : List (Except Rows.DecodingError Operation) :=
  .ok (atNoon 0 "write" none) :: .ok (atNoon 1 "read" (some noon)) :: (ties ids).map .ok

def crowdChoices (n : Nat) : List Choice :=
  [.driver false, .driver false, .watermark, .driver false] ++ joinChoices ++ takeChoices ++
    joinChoices ++ gatherChoices n

theorem crowd_of_start (ids : List Nat) (room : ids.length + 2 < 8589934592) :
    ∃ s₀ : Run Unit Board,
      Run.start wide .first (fun _ => .error (.other "")) prompt () (crowdStream ids) = .ok s₀ ∧
        s₀.steps (crowdChoices ids.length) =
          some (crowd (full (2 + .ofNat ids.length)) (2 + ids.length)
            (guest (atNoon 0 "write" none) :: guest (atNoon 1 "read" (some noon)) ::
              (ties ids).map guest) []) := by
  obtain ⟨s₀, started, opened⟩ :=
    crowd_open 0 "write" none (.ok (atNoon 1 "read" (some noon)) :: (ties ids).map .ok)
  refine ⟨s₀, started, ?_⟩
  have first : ((crowd ⟨[.fresh], []⟩ 0 [] (.ok (atNoon 1 "read" (some noon)) ::
        (ties ids).map .ok)).goTo (.announce (atNoon 0 "write" none))).steps joinChoices =
      some (crowd (full 1) 1 [guest (atNoon 0 "write" none)]
        (.ok (atNoon 1 "read" (some noon)) :: (ties ids).map .ok)) := crowd_join rfl (by decide)
  have second : ((crowd (full 1) 1 [guest (atNoon 0 "write" none)] ((ties ids).map .ok)).goTo
        (.announce (atNoon 1 "read" (some noon)))).steps joinChoices =
      some (crowd (full 2) 2 [guest (atNoon 0 "write" none), guest (atNoon 1 "read" (some noon))]
        ((ties ids).map .ok)) := crowd_join rfl (by decide)
  have gathered := crowd_gather ids 2 2
    [guest (atNoon 0 "write" none), guest (atNoon 1 "read" (some noon))]
    (by simpa [Nat.add_comm] using room)
  simp only [crowdChoices, steps_append, opened, first, crowd_take, second, gathered,
    Option.bind_some]
  rfl

/-- With 2^32 + 1 operations the copies of the time have become one. -/
theorem crowd_wrapped {n : Nat} (number : n + 4 = 4294967297) : ∃ s₀ : Run Unit Board,
    Run.start wide .first (fun _ => .error (.other "")) prompt ()
        (crowdStream (2 :: 3 :: List.range' 4 n)) = .ok s₀ ∧
      s₀.steps (crowdChoices (n + 2)) =
        some (crowd (full 1) (n + 4) (guest (atNoon 0 "write" none) ::
          guest (atNoon 1 "read" (some noon)) :: guest (atNoon 2 "write" none) ::
            guest (atNoon 3 "write" none) :: (ties (List.range' 4 n)).map guest) []) := by
  have length : (2 :: 3 :: List.range' 4 n).length = n + 2 := by
    rw [List.length_cons, List.length_cons, List.length_range']
  obtain ⟨s₀, started, ran⟩ := crowd_of_start (2 :: 3 :: List.range' 4 n) (by omega)
  have copies : 2 + UInt32.ofNat (n + 2) = 1 := by
    rw [show n + 2 = 4294967295 by omega]
    rfl
  rw [length, copies, Nat.add_comm 2] at ran
  exact ⟨s₀, started, ran⟩

/-- Nobody but the driver and the worker moves while the operations are submitted. -/
theorem mem_crowdChoices {n : Nat} {c : Choice} (member : c ∈ crowdChoices n) :
    c = .driver false ∨ c = .watermark := by
  have gathers : ∀ n, ∀ c ∈ gatherChoices n, c = .driver false ∨ c = .watermark := by
    intro n
    induction n with
    | zero => exact nofun
    | succ n ih =>
      intro c member
      rcases List.mem_append.mp member with joins | later
      · simp only [takeChoices, joinChoices, List.cons_append, List.nil_append, List.mem_cons,
          List.not_mem_nil] at joins
        tauto
      · exact ih c later
  rcases List.mem_append.mp member with opens | later
  · simp only [takeChoices, joinChoices, List.cons_append, List.nil_append, List.mem_cons,
      List.not_mem_nil] at opens
    tauto
  · exact gathers n c later

/-- A task that does not move tells nothing. -/
theorem eventsOf_told_nil {s : Run Unit Board} {choices : List Choice} {k : Nat}
    (still : ∀ now, .task k now ∉ choices) : eventsOf (s.told choices) (some k) = [] := by
  induction choices generalizing s with
  | nil => rfl
  | cons c later ih =>
    have further (t : Run Unit Board) := ih (s := t) fun now member =>
      still now (List.mem_cons_of_mem _ member)
    unfold told
    cases s.step c with
    | none => rfl
    | some t =>
      dsimp only
      rw [eventsOf_append, further, List.append_nil]
      cases c with
      | task j now =>
        have other : j ≠ k := fun same => still now (same ▸ List.mem_cons_self)
        simp [heardFrom, eventsOf, other]
      | _ => rfl

/-- Two tasks are carried out, and the worker hears of the first completion. -/
def leaveChoices : List Choice :=
  List.replicate 6 (.task 2 noon) ++ [.watermark] ++ List.replicate 6 (.task 3 noon)

/-- When the number of copies has become one, the second completion is refused. -/
theorem crowd_leave (n i j : Nat) (first second : Task Unit) (more : List (Task Unit)) :
    ∃ t, (crowd (full 1) n (first :: second :: guest (atNoon i "write" none) ::
          guest (atNoon j "write" none) :: more) []).steps leaveChoices = some t ∧
      t.floor.watermark.core.isOpen = true ∧
      t.floor.watermark.core.queue = [.event (.completed 0 noon)] ∧
      Board.apply t.floor.watermark.core.worker.state.state (.completed 0 noon) =
        .error (.notOutstanding noon) :=
  ⟨_, rfl, rfl, rfl, rfl⟩

/-- One task is carried out, the worker hears of it, and the task that depends on the time finds its
start due. -/
def releaseChoices : List Choice :=
  List.replicate 6 (.task 2 noon) ++ [.watermark, .task 1 noon]

/-- When the number of copies has become one, the first completion lets the depending task go. -/
theorem crowd_release (n i : Nat) (first : Task Unit) (more : List (Task Unit)) :
    ∃ s t before after, (crowd (full 1) n (first :: guest (atNoon 1 "read" (some noon)) ::
          guest (atNoon i "write" none) :: more) []).steps releaseChoices = some s ∧
      s.step (.task 1 noon) = some t ∧
      s.floor.pool.tasks[1]? = some before ∧ before.phase.held = true ∧
      t.floor.pool.tasks[1]? = some after ∧ after.phase.held = false ∧
      before.operation.dependencyTime = some noon ∧ s.floor.watermark.core.queue = [] :=
  ⟨_, _, _, _, rfl, rfl, rfl, rfl, rfl, rfl, rfl, rfl⟩

end PacedLoad.Run
