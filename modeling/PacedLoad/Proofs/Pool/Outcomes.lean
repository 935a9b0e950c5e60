import Mathlib.Data.List.Nodup
import Mathlib.Data.List.Range
import PacedLoad.Proofs.Pool.Floor

/-!
# Outcomes come out once

The outcomes that wait to be taken are those of finished tasks that were not taken
before, each once.  So whoever takes outcomes until nothing is in flight has taken
the outcome of every task, once.
-/

namespace PacedLoad

open Handler

namespace Handler

def isError : Outcome → Bool
  | .ok _ => false
  | .error _ => true

def result? : Outcome → Option OperationResult
  | .ok r => some r
  | .error _ => none

/-- A result belongs to an operation, or an error names it. -/
def Concerns (op : Operation) : Outcome → Prop
  | .ok r => r.operation = op
  | .error e => e.operationId? = some op.id

/-- What a handler has come to belongs to the operation that it carries. -/
def Phase.Faithful (op : Operation) : Phase → Prop
  | .completing outcome | .finished outcome => Concerns op outcome
  | _ => True

theorem Phase.faithful_next {op : Operation} {tolerated : Span} {phase : Phase}
    (faithful : phase.Faithful op) (e : Event) : (phase.next op tolerated e).Faithful op := by
  have closed : ∀ (s : Except ServiceError Unit) (outcome : Outcome),
      (Phase.finished outcome).Faithful op → (close op s outcome).Faithful op := by
    intro s outcome before
    cases s with
    | ok u => exact before
    | error e => exact rfl
  cases phase with
  | completing outcome =>
    cases e with
    | submission s => exact closed s outcome faithful
    | _ => exact faithful
  | finished outcome => cases e <;> exact faithful
  | refused delay =>
    cases e with
    | submission s => exact closed s _ rfl
    | _ => trivial
  | ended accepted start result =>
    cases e with
    | clock now => cases result <;> exact rfl
    | _ => trivial
  | started accepted start =>
    cases e with
    | body result =>
      cases result with
      | returned r => trivial
      | panicked m => exact rfl
    | _ => trivial
  | released release =>
    cases e with
    | slot granted =>
      cases granted with
      | false => exact rfl
      | true => trivial
    | _ => trivial
  | _ => cases e <;> simp only [next, due] <;> (repeat' split) <;> trivial

end Handler

variable {β : Type}

namespace Pool

variable {p q : Pool β}

/-- The outcome that is taken next, with the number of its task. -/
def first? (p : Pool β) : Option (Nat × Outcome) :=
  p.done.head?.bind fun ticket => (p.outcome? ticket).map (ticket, ·)

/-- What is taken is the first outcome, and its task is marked. -/
theorem tryTake_first {outcome : Outcome} (success : p.tryTake = some (outcome, q)) :
    ∃ ticket task, p.first? = some (ticket, outcome) ∧ p.done = ticket :: q.done ∧
      p.tasks[ticket]? = some task ∧ task.phase = .finished outcome ∧
      q.tasks = p.tasks.modify ticket fun t => { t with taken := true } := by
  obtain ⟨ticket, task, waiting, found, ended, -, tasks⟩ := tryTake_some success
  refine ⟨ticket, task, ?_, waiting, found, ended, tasks⟩
  simp [first?, Pool.outcome?, waiting, found, ended, Phase.outcome?]

/-- A move of a task changes its phase only. -/
theorem map_move {γ : Type} {f : Task β → γ}
    (same : ∀ t after, f { t with phase := after } = f t) (p : Pool β) (ticket : Nat)
    (before after : Phase) : (p.move ticket before after).tasks.map f = p.tasks.map f :=
  map_modify_same (g := fun t => { t with phase := after }) (same · after) _ _

structure Honest (p : Pool β) : Prop where
  once : p.done.Nodup
  ready : ∀ k ∈ p.done, ∃ t, p.tasks[k]? = some t ∧ t.phase.isFinished = true ∧ t.taken = false
  listed : ∀ (k : Nat) (t : Task β), p.tasks[k]? = some t → t.phase.isFinished = true →
    t.taken = false → k ∈ p.done
  faithful : ∀ (k : Nat) (t : Task β), p.tasks[k]? = some t → t.phase.Faithful t.operation
  ended : ∀ (k : Nat) (t : Task β), p.tasks[k]? = some t → t.taken = true →
    t.phase.isFinished = true

theorem honest_start (size : Nat) : (start size : Pool β).Honest := ⟨.nil, nofun, nofun, nofun, nofun⟩

theorem Honest.submit (honest : p.Honest) {op : Operation} {writer : Nat} {work : Work β}
    (success : p.submit op writer work = .ok q) : q.Honest := by
  unfold Pool.submit at success
  split at success
  · cases success
  · cases success
    refine ⟨honest.once, fun k member => ?_, fun k t found finished => ?_, fun k t found => ?_,
      fun k t found taken => ?_⟩
    · obtain ⟨t, found, ready⟩ := honest.ready k member
      exact ⟨t, getElem?_append_some found, ready⟩
    · rcases getElem?_concat_some found with before | ⟨-, rfl⟩
      · exact honest.listed k t before finished
      · cases finished
    · rcases getElem?_concat_some found with before | ⟨-, rfl⟩
      · exact honest.faithful k t before
      · trivial
    · rcases getElem?_concat_some found with before | ⟨-, rfl⟩
      · exact honest.ended k t before taken
      · cases taken

theorem Honest.take (honest : p.Honest) {outcome : Outcome}
    (success : p.tryTake = some (outcome, q)) : q.Honest := by
  obtain ⟨ticket, task, -, done, found, ended, tasks⟩ := tryTake_first success
  have once := honest.once
  rw [done] at once
  obtain ⟨fresh, once⟩ := List.nodup_cons.mp once
  refine ⟨once, fun k member => ?_, fun k t here finished untaken => ?_, fun k t here => ?_,
    fun k t here mark => ?_⟩
  · obtain ⟨t, found', ready⟩ := honest.ready k (by rw [done]; exact List.mem_cons_of_mem _ member)
    have other : ticket ≠ k := by
      rintro rfl
      exact fresh member
    exact ⟨t, tasks ▸ getElem?_modify_other other found', ready⟩
  · rw [tasks] at here
    rcases getElem?_modify_some here with ⟨rfl, t', before, rfl⟩ | ⟨other, before⟩
    · cases untaken
    · have member := honest.listed k t before finished untaken
      rw [done] at member
      exact (List.mem_cons.mp member).resolve_left other
  · rw [tasks] at here
    rcases getElem?_modify_some here with ⟨rfl, t', before, rfl⟩ | ⟨-, before⟩
    · exact honest.faithful k t' before
    · exact honest.faithful k t before
  · rw [tasks] at here
    rcases getElem?_modify_some here with ⟨rfl, t', before, rfl⟩ | ⟨-, before⟩
    · cases found.symm.trans before
      change task.phase.isFinished = true
      rw [ended]
      rfl
    · exact honest.ended k t before mark

/-- A task that has no outcome goes on to another phase. -/
theorem Honest.move (honest : p.Honest) {k : Nat} {t : Task β} {after : Phase}
    (found : p.tasks[k]? = some t) (unfinished : t.phase.isFinished = false)
    (faithful : after.Faithful t.operation) : (p.move k t.phase after).Honest := by
  have untaken : t.taken = false := by
    cases mark : t.taken with
    | false => rfl
    | true =>
      rw [honest.ended k t found mark] at unfinished
      cases unfinished
  have fresh : k ∉ p.done := by
    intro member
    obtain ⟨t', found', finished, -⟩ := honest.ready k member
    cases found.symm.trans found'
    rw [unfinished] at finished
    cases finished
  have kept : ∀ i ∈ p.done, ∃ t', (p.move k t.phase after).tasks[i]? = some t' ∧
      t'.phase.isFinished = true ∧ t'.taken = false := by
    intro i member
    obtain ⟨t', found', ready⟩ := honest.ready i member
    have other : k ≠ i := by
      rintro rfl
      exact fresh member
    exact ⟨t', getElem?_modify_other other found', ready⟩
  have done : (p.move k t.phase after).done =
      if after.outcome?.isSome then p.done ++ [k] else p.done := rfl
  refine ⟨?_, ?_, fun i t' here finished mark => ?_, fun i t' here => ?_,
    fun i t' here mark => ?_⟩
  · unfold Pool.move
    dsimp only
    split
    · exact honest.once.append (List.nodup_singleton k) (by simpa using fresh)
    · exact honest.once
  · cases finishes : after.outcome? with
    | none =>
      have done : (p.move k t.phase after).done = p.done := by simp [Pool.move, finishes]
      rw [done]
      exact kept
    | some outcome =>
      have done : (p.move k t.phase after).done = p.done ++ [k] := by simp [Pool.move, finishes]
      rw [done]
      intro i member
      rcases List.mem_append.mp member with before | new
      · exact kept i before
      · cases List.mem_singleton.mp new
        refine ⟨{ t with phase := after }, by simp [found], ?_, untaken⟩
        cases after <;> first | rfl | cases finishes
  · rw [tasks_move] at here
    rw [done]
    rcases getElem?_modify_some here with ⟨rfl, t'', before, rfl⟩ | ⟨-, before⟩
    · have finishes : after.outcome?.isSome = true := by cases after <;> first | rfl | cases finished
      simp [finishes]
    · have member := honest.listed i t' before finished mark
      split
      · exact List.mem_append_left [k] member
      · exact member
  · rw [tasks_move] at here
    rcases getElem?_modify_some here with ⟨rfl, t'', before, rfl⟩ | ⟨-, before⟩
    · cases found.symm.trans before
      exact faithful
    · exact honest.faithful i t' before
  · rw [tasks_move] at here
    rcases getElem?_modify_some here with ⟨rfl, t'', before, rfl⟩ | ⟨-, before⟩
    · cases found.symm.trans before
      rw [show t.taken = true from mark] at untaken
      cases untaken
    · exact honest.ended i t' before mark

structure Taken (p : Pool β) (collected : List (Nat × Outcome)) : Prop where
  once : (collected.map Prod.fst).Nodup
  ended : ∀ c ∈ collected, ∃ t, p.tasks[c.1]? = some t ∧ t.phase = .finished c.2
  marked : ∀ (k : Nat) (t : Task β), p.tasks[k]? = some t →
    (t.taken = true ↔ k ∈ collected.map Prod.fst)

theorem taken_start (size : Nat) : (start size : Pool β).Taken [] := ⟨.nil, nofun, nofun⟩

variable {collected : List (Nat × Outcome)}

theorem Taken.submit (taken : p.Taken collected) {op : Operation} {writer : Nat} {work : Work β}
    (success : p.submit op writer work = .ok q) : q.Taken collected := by
  obtain ⟨-, -, tasks⟩ := submit_ok success
  refine ⟨taken.once, fun c member => ?_, fun k t found => ?_⟩
  · obtain ⟨t, found, ended⟩ := taken.ended c member
    exact ⟨t, tasks ▸ getElem?_append_some found,
      ended⟩
  · rw [tasks] at found
    rcases getElem?_concat_some found with before | ⟨rfl, rfl⟩
    · exact taken.marked k t before
    · refine ⟨nofun, fun member => ?_⟩
      obtain ⟨c, member, here⟩ := List.mem_map.mp member
      obtain ⟨t, found, -⟩ := taken.ended c member
      rw [here] at found
      exact absurd (List.getElem?_eq_some_iff.mp found).1 (Nat.lt_irrefl _)

theorem Taken.move (taken : p.Taken collected) {k : Nat} {t : Task β} {after : Phase}
    (found : p.tasks[k]? = some t) (unfinished : t.phase.isFinished = false) :
    (p.move k t.phase after).Taken collected := by
  refine ⟨taken.once, fun c member => ?_, fun i t' here => ?_⟩
  · obtain ⟨t', found', ended⟩ := taken.ended c member
    have other : k ≠ c.1 := by
      rintro rfl
      cases found.symm.trans found'
      rw [ended] at unfinished
      cases unfinished
    exact ⟨t', getElem?_modify_other other found', ended⟩
  · rw [tasks_move] at here
    rcases getElem?_modify_some here with ⟨rfl, t'', before, rfl⟩ | ⟨-, before⟩
    · exact taken.marked i t'' before
    · exact taken.marked i t' before

theorem Taken.take (taken : p.Taken collected) (honest : p.Honest) {ticket : Nat}
    {outcome : Outcome} (first : p.first? = some (ticket, outcome))
    (success : p.tryTake = some (outcome, q)) : q.Taken (collected ++ [(ticket, outcome)]) := by
  obtain ⟨ticket', task, first', done, found, ended, tasks⟩ := tryTake_first success
  cases first.symm.trans first'
  obtain ⟨t, found', -, untaken⟩ := honest.ready ticket (by rw [done]; exact List.mem_cons_self)
  cases found.symm.trans found'
  have fresh : ticket ∉ collected.map Prod.fst := by
    intro member
    rw [(taken.marked ticket task found).mpr member] at untaken
    cases untaken
  refine ⟨?_, fun c member => ?_, fun k t here => ?_⟩
  · rw [List.map_append]
    exact taken.once.append (List.nodup_singleton ticket) (by simpa using fresh)
  · rcases List.mem_append.mp member with before | new
    · obtain ⟨t, found', ended'⟩ := taken.ended c before
      have other : ticket ≠ c.1 := by
        rintro rfl
        exact fresh (List.mem_map_of_mem before)
      exact ⟨t, tasks ▸ getElem?_modify_other other found', ended'⟩
    · cases List.mem_singleton.mp new
      exact ⟨{ task with taken := true }, by simp [tasks, found], ended⟩
  · rw [tasks] at here
    rcases getElem?_modify_some here with ⟨rfl, t', before, rfl⟩ | ⟨other, before⟩
    · simp
    · rw [taken.marked k t before, List.map_append, List.mem_append]
      simp [other]

/-- When nothing is in flight, every task was taken once. -/
theorem Taken.all (taken : p.Taken collected) (idle : p.inFlight = 0) :
    (collected.map Prod.fst).Perm (List.range p.tasks.length) := by
  refine (List.perm_ext_iff_of_nodup taken.once List.nodup_range).mpr fun k => ?_
  rw [List.mem_range]
  constructor
  · intro member
    obtain ⟨c, place, rfl⟩ := List.mem_map.mp member
    obtain ⟨t, found, -⟩ := taken.ended c place
    exact (List.getElem?_eq_some_iff.mp found).1
  · intro inside
    have found := List.getElem?_eq_getElem inside
    have none := List.countP_eq_zero.mp idle _ (List.getElem_mem inside)
    exact (taken.marked k _ found).mp (by simpa using none)

/-- When nothing is in flight, every task has the outcome that was collected. -/
theorem Taken.finished (taken : p.Taken collected) (idle : p.inFlight = 0) {t : Task β}
    (member : t ∈ p.tasks) : ∃ c ∈ collected, t.phase = .finished c.2 := by
  have marked : t.taken = true := by simpa using List.countP_eq_zero.mp idle t member
  obtain ⟨k, found⟩ := List.getElem?_of_mem member
  obtain ⟨c, place, rfl⟩ := List.mem_map.mp ((taken.marked k t found).mp marked)
  obtain ⟨t', found', ended⟩ := taken.ended c place
  cases found.symm.trans found'
  exact ⟨c, place, ended⟩

end Pool

end PacedLoad
