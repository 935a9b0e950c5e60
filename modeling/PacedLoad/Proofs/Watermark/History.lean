import Mathlib.Order.Bounds.Basic
import PacedLoad.Proofs.Entries
import PacedLoad.Proofs.Watermark.State
import PacedLoad.Watermark.Service

/-!
# The global completion time and the calls before it

Calls come in any order, and a refused one changes nothing.  What was accepted
decides the global completion time: which writers are registered, what each of
them initiated and completed, and what the peers reported.  The invariant
`Recorded` ties a state to its accepted calls; `globalCompletionTime_lowWatermark`
says that the time is the exact low watermark of these calls.
-/

namespace PacedLoad.Watermark

inductive Call
  | register
  | announce (e : Event)
deriving DecidableEq, Repr

namespace State

/-- The state after a call, unless it is refused. -/
def accept (s : State) : Call → Except Violation State
  | .register => .ok s.register.1
  | .announce e => Coordinator.apply s e

/-- The state after several calls, of which refused ones change nothing. -/
def replay (s : State) : List Call → State
  | [] => s
  | c :: rest =>
    match s.accept c with
    | .ok after => after.replay rest
    | .error _ => s.replay rest

def accepted (s : State) : List Call → List Call
  | [] => []
  | c :: rest =>
    match s.accept c with
    | .ok after => c :: after.accepted rest
    | .error _ => s.accepted rest

end State

/-! Below, `h` stands for accepted calls, the oldest first. -/

def writerCount (h : List Call) : Nat := h.count .register

def initiatedTimes (h : List Call) (w : Nat) : List Instant :=
  h.filterMap fun
    | .announce (.initiated w' t) => if w' = w then some t else none
    | _ => none

def completedTimes (h : List Call) (w : Nat) : List Instant :=
  h.filterMap fun
    | .announce (.completed w' t) => if w' = w then some t else none
    | _ => none

def reportedTimes (h : List Call) (p : String) : List Instant :=
  h.filterMap fun
    | .announce (.external p' t) => if p' = p then some t else none
    | _ => none

/-- How many copies of a time a writer initiated and did not complete. -/
def copiesLeft (h : List Call) (w : Nat) (t : Instant) : Nat :=
  (initiatedTimes h w).count t - (completedTimes h w).count t

/-- A writer holds what the accepted calls left outstanding. -/
structure Writer.Recorded (h : List Call) (w : Nat) (writer : Writer) : Prop where
  ordered : writer.Ordered
  last : writer.lastInitiated = (initiatedTimes h w).getLast?
  balance : ∀ t, writer.outstanding.count t + (completedTimes h w).count t =
    (initiatedTimes h w).count t

/-- A state holds what the accepted calls left of every writer and every declared peer. -/
structure Recorded (peers : List String) (h : List Call) (s : State) : Prop where
  registered : s.writers.length = writerCount h
  writer : ∀ (w : Nat) (writer : Writer), s.writers[w]? = some writer → writer.Recorded h w
  absent : ∀ w, s.writers.length ≤ w → initiatedTimes h w = [] ∧ completedTimes h w = []
  sorted : Keyed.Sorted s.peers
  peer : ∀ p, Keyed.find? p s.peers =
    if p ∈ peers then some (reportedTimes h p).getLast? else none

theorem Writer.Recorded.copiesLeft {h : List Call} {w : Nat} {writer : Writer}
    (recorded : writer.Recorded h w) (t : Instant) :
    copiesLeft h w t = writer.outstanding.count t := by
  have balance := recorded.balance t
  unfold Watermark.copiesLeft
  omega

theorem Writer.Recorded.congr {h h' : List Call} {w : Nat} {writer : Writer}
    (recorded : writer.Recorded h w) (initiated : initiatedTimes h' w = initiatedTimes h w)
    (completed : completedTimes h' w = completedTimes h w) : writer.Recorded h' w where
  ordered := recorded.ordered
  last := by rw [recorded.last, initiated]
  balance := by
    rw [initiated, completed]
    exact recorded.balance

theorem Writer.Recorded.initiated {h : List Call} {w : Nat} {t : Instant} {writer changed : Writer}
    (recorded : writer.Recorded h w) (taken : writer.initiated t = .ok changed) :
    changed.Recorded (h ++ [.announce (.initiated w t)]) w := by
  have added : changed = writer.add t := (Writer.initiated_ok.mp taken).2
  refine ⟨recorded.ordered.initiated taken, ?_, fun u => ?_⟩
  · simp [initiatedTimes, added, Writer.add]
  · have balance := recorded.balance u
    rw [added, Writer.count_add]
    simp only [initiatedTimes, completedTimes, List.filterMap_append, List.count_append] at balance ⊢
    simp only [List.filterMap_cons, List.filterMap_nil, if_true, List.count_nil,
      List.count_singleton, beq_iff_eq]
    omega

theorem Writer.Recorded.completed {h : List Call} {w : Nat} {t : Instant} {writer changed : Writer}
    (recorded : writer.Recorded h w) (taken : writer.completed t = .ok changed) :
    changed.Recorded (h ++ [.announce (.completed w t)]) w := by
  obtain ⟨-, erased⟩ := Writer.completed_ok.mp taken
  refine ⟨recorded.ordered.completed taken, ?_, fun u => ?_⟩
  · rw [erased]
    simpa [initiatedTimes] using recorded.last
  · -- the erased copy is the one that the new completion accounts for
    have balance := recorded.balance u
    rw [Writer.count_completed taken u] at balance
    simp only [initiatedTimes, completedTimes, List.filterMap_append, List.count_append] at balance ⊢
    simp only [List.filterMap_cons, List.filterMap_nil, if_true, List.count_nil,
      List.count_singleton, beq_iff_eq]
    omega

theorem recorded_start (peers : List String) : Recorded peers [] (State.start peers) where
  registered := rfl
  writer := nofun
  absent := fun _ _ => ⟨rfl, rfl⟩
  sorted := Keyed.sorted_ofList _
  peer := Keyed.find?_ofList_const peers none

theorem Recorded.register {peers : List String} {h : List Call} {s : State}
    (before : Recorded peers h s) : Recorded peers (h ++ [.register]) s.register.1 := by
  have initiated : ∀ w, initiatedTimes (h ++ [.register]) w = initiatedTimes h w := by
    simp [initiatedTimes]
  have completed : ∀ w, completedTimes (h ++ [.register]) w = completedTimes h w := by
    simp [completedTimes]
  refine ⟨?_, ?_, ?_, before.sorted, ?_⟩
  · simp [State.register, before.registered, writerCount]
  · intro w writer found
    rcases getElem?_concat_some found with old | ⟨rfl, rfl⟩
    · exact (before.writer w writer old).congr (initiated w) (completed w)
    · obtain ⟨noneInitiated, noneCompleted⟩ := before.absent _ le_rfl
      refine ⟨.fresh, ?_, ?_⟩
      · rw [initiated, noneInitiated]
        rfl
      · rw [initiated, completed, noneInitiated, noneCompleted]
        simp [Writer.fresh]
  · intro w beyond
    rw [initiated, completed]
    exact before.absent w (by simp [State.register] at beyond; omega)
  · simpa [State.register, reportedTimes] using before.peer

/-- A call of one writer leaves the others, the peers and the number of writers alone. -/
theorem Recorded.setWriter {peers : List String} {h h' : List Call} {s : State} {w : Nat}
    {writer changed : Writer} (before : Recorded peers h s)
    (found : s.writers[w]? = some writer) (here : changed.Recorded h' w)
    (registered : writerCount h' = writerCount h)
    (initiated : ∀ w', w ≠ w' → initiatedTimes h' w' = initiatedTimes h w')
    (completed : ∀ w', w ≠ w' → completedTimes h' w' = completedTimes h w')
    (reported : ∀ p, reportedTimes h' p = reportedTimes h p) :
    Recorded peers h' { s with writers := s.writers.set w changed } := by
  have inside : w < s.writers.length := (List.getElem?_eq_some_iff.mp found).1
  refine ⟨?_, ?_, ?_, before.sorted, ?_⟩
  · rw [registered, List.length_set]
    exact before.registered
  · intro w' writer' found'
    by_cases same : w = w'
    · subst same
      rw [List.getElem?_set_self inside, Option.some.injEq] at found'
      subst found'
      exact here
    · rw [List.getElem?_set_ne same] at found'
      exact (before.writer w' writer' found').congr (initiated w' same) (completed w' same)
  · intro w' beyond
    rw [List.length_set] at beyond
    rw [initiated w' (by omega), completed w' (by omega)]
    exact before.absent w' beyond
  · intro p
    rw [reported]
    exact before.peer p

theorem Recorded.initiated {peers : List String} {h : List Call} {s after : State} {w : Nat}
    {t : Instant} (before : Recorded peers h s) (success : s.initiated w t = .ok after) :
    Recorded peers (h ++ [.announce (.initiated w t)]) after := by
  obtain ⟨writer, changed, found, taken, rfl⟩ := State.withWriter_ok.mp success
  refine before.setWriter found ((before.writer w writer found).initiated taken) ?_ ?_ ?_ ?_
  · simp [writerCount]
  · intro w' different
    simp [initiatedTimes, different]
  · simp [completedTimes]
  · simp [reportedTimes]

theorem Recorded.completed {peers : List String} {h : List Call} {s after : State} {w : Nat}
    {t : Instant} (before : Recorded peers h s) (success : s.completed w t = .ok after) :
    Recorded peers (h ++ [.announce (.completed w t)]) after := by
  obtain ⟨writer, changed, found, taken, rfl⟩ := State.withWriter_ok.mp success
  refine before.setWriter found ((before.writer w writer found).completed taken) ?_ ?_ ?_ ?_
  · simp [writerCount]
  · simp [initiatedTimes]
  · intro w' different
    simp [completedTimes, different]
  · simp [reportedTimes]

theorem Recorded.external {peers : List String} {h : List Call} {s after : State} {p : String}
    {t : Instant} (before : Recorded peers h s) (success : s.external p t = .ok after) :
    Recorded peers (h ++ [.announce (.external p t)]) after := by
  obtain ⟨previous, found, -, rfl⟩ := State.external_ok.mp success
  have initiated : ∀ w, initiatedTimes (h ++ [.announce (.external p t)]) w =
      initiatedTimes h w := by
    simp [initiatedTimes]
  have completed : ∀ w, completedTimes (h ++ [.announce (.external p t)]) w =
      completedTimes h w := by
    simp [completedTimes]
  have declared : p ∈ peers := by
    by_contra undeclared
    rw [before.peer p, if_neg undeclared] at found
    cases found
  refine ⟨?_, ?_, ?_, Keyed.sorted_insert before.sorted p (some t), ?_⟩
  · simp [before.registered, writerCount]
  · exact fun w writer found => (before.writer w writer found).congr (initiated w) (completed w)
  · intro w beyond
    rw [initiated, completed]
    exact before.absent w beyond
  · intro p'
    by_cases same : p' = p
    · subst same
      simp [Keyed.find?_insert_self, declared, reportedTimes]
    · rw [Keyed.find?_insert_of_ne same, before.peer p']
      simp [reportedTimes, Ne.symm same]

/-- An accepted call keeps a state and its accepted calls together. -/
theorem Recorded.accept {peers : List String} {h : List Call} {s after : State} {c : Call}
    (before : Recorded peers h s) (success : s.accept c = .ok after) :
    Recorded peers (h ++ [c]) after := by
  cases c with
  | register =>
    cases success
    exact before.register
  | announce e =>
    cases e with
    | initiated w t => exact before.initiated success
    | completed w t => exact before.completed success
    | external p t => exact before.external success

/-- Whatever calls are made, the state holds what the accepted ones left. -/
theorem Recorded.replay {peers : List String} (calls : List Call) {h : List Call} {s : State}
    (before : Recorded peers h s) : Recorded peers (h ++ s.accepted calls) (s.replay calls) := by
  induction calls generalizing h s with
  | nil => simpa [State.accepted, State.replay] using before
  | cons c rest ih =>
    unfold State.accepted State.replay
    cases success : s.accept c with
    | error v => exact ih before
    | ok after => simpa using ih (before.accept success)

end PacedLoad.Watermark
