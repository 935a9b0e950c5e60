import PacedLoad.Proofs.Entries
import PacedLoad.Proofs.Pool.Outcomes

/-!
# Slots and tasks in flight

Every slot is free or occupied by a task that executes.  So there are never more
of them than slots, and a task that waits for its start has none.
-/

namespace PacedLoad

open Handler

variable {β : Type}

/-- A handler comes to occupy a slot only when it is granted one. -/
theorem Handler.Phase.granted_of_occupies {op : Operation} {tolerated : Span} {phase : Phase}
    {e : Event} (without : phase.occupies = false)
    (occupies : (phase.next op tolerated e).occupies = true) :
    phase.need = some .slot ∧ e = .slot true := by
  cases phase with
  | released r =>
    cases e with
    | slot granted =>
      cases granted with
      | true => exact ⟨rfl, rfl⟩
      | false => cases occupies
    | _ => cases occupies
  | admitted | started | ended | completing => cases without
  | refused delay =>
    cases e with
    | submission s => cases s <;> cases occupies
    | _ => cases occupies
  | _ => cases e <;> simp only [next, due] at occupies <;> (repeat' split at occupies) <;> cases occupies

namespace Pool

variable {p q : Pool β} {k : Nat} {t : Task β}

theorem slotsOf_le_one (phase : Phase) : slotsOf phase ≤ 1 := by
  unfold slotsOf
  split <;> omega

theorem occupied_move (found : p.tasks[k]? = some t) (after : Phase) :
    (p.move k t.phase after).occupied + slotsOf t.phase = p.occupied + slotsOf after := by
  have slots : ∀ phase : Phase, slotsOf phase = phase.occupies.toNat := by
    intro phase
    cases here : phase.occupies <;> simp [slotsOf, here]
  rw [slots, slots]
  exact countP_modify (fun t : Task β => t.phase.occupies) (fun t => { t with phase := after }) found

/-- Of the slots of a pool, those that are not free are occupied. -/
def Slotted (size : Nat) (p : Pool β) : Prop := p.free + p.occupied = max size 1

theorem slotted_start (size : Nat) : (start size : Pool β).Slotted size := rfl

variable {size : Nat}

theorem Slotted.submit (slotted : p.Slotted size) {op : Operation} {writer : Nat} {work : Work β}
    (success : p.submit op writer work = .ok q) : q.Slotted size := by
  unfold Pool.submit at success
  split at success
  · cases success
  · cases success
    simpa [Slotted, occupied, Phase.occupies] using slotted

theorem Slotted.take (slotted : p.Slotted size) {outcome : Outcome}
    (success : p.tryTake = some (outcome, q)) : q.Slotted size := by
  obtain ⟨ticket, task, -, -, found, -, tasks⟩ := tryTake_first success
  have free : q.free = p.free := by
    unfold tryTake at success
    split at success
    · cases success
    · obtain ⟨_, -, same⟩ := Option.map_eq_some_iff.mp success
      cases same
      rfl
  have occupied : q.occupied = p.occupied := by
    have counted := countP_modify (fun t : Task β => t.phase.occupies)
      (fun t => { t with taken := true }) found
    rw [← tasks] at counted
    exact Nat.add_right_cancel counted
  rw [Slotted, free, occupied]
  exact slotted

/-- A task moves on as long as there is a slot for it, if it needs one. -/
theorem Slotted.move (slotted : p.Slotted size) (found : p.tasks[k]? = some t) {after : Phase}
    (room : slotsOf after ≤ p.free + slotsOf t.phase) : (p.move k t.phase after).Slotted size := by
  have occupied := occupied_move found after
  have free : (p.move k t.phase after).free = p.free + slotsOf t.phase - slotsOf after := rfl
  unfold Slotted at slotted ⊢
  omega

/-- Whether a task is in flight does not depend on its phase. -/
theorem inFlight_move (found : p.tasks[k]? = some t) (after : Phase) :
    (p.move k t.phase after).inFlight = p.inFlight := by
  have counted := countP_modify (fun t : Task β => !t.taken) (fun t => { t with phase := after }) found
  exact Nat.add_right_cancel counted

theorem inFlight_submit {op : Operation} {writer : Nat} {work : Work β}
    (success : p.submit op writer work = .ok q) : q.inFlight = p.inFlight + 1 := by
  obtain ⟨-, -, tasks⟩ := submit_ok success
  simp [inFlight, tasks]

/-- What is taken was in flight, unless it had been taken before. -/
theorem inFlight_take {outcome : Outcome} (success : p.tryTake = some (outcome, q)) :
    ∃ ticket task, p.done = ticket :: q.done ∧ p.tasks[ticket]? = some task ∧
      q.inFlight + (!task.taken).toNat = p.inFlight := by
  obtain ⟨ticket, task, -, done, found, -, tasks⟩ := tryTake_first success
  refine ⟨ticket, task, done, found, ?_⟩
  have counted := countP_modify (fun t : Task β => !t.taken) (fun t => { t with taken := true })
    found
  rw [← tasks] at counted
  exact counted

theorem inFlight_take_le {outcome : Outcome} (success : p.tryTake = some (outcome, q)) :
    q.inFlight ≤ p.inFlight := by
  obtain ⟨_, _, _, _, counted⟩ := inFlight_take success
  exact Nat.le.intro counted

theorem Honest.inFlight_take (honest : p.Honest) {outcome : Outcome}
    (success : p.tryTake = some (outcome, q)) : q.inFlight + 1 = p.inFlight := by
  obtain ⟨ticket, task, done, found, counted⟩ := Pool.inFlight_take success
  obtain ⟨t, found', -, untaken⟩ := honest.ready ticket (by rw [done]; exact List.mem_cons_self)
  cases found.symm.trans found'
  rw [untaken] at counted
  exact counted

end Pool

namespace Floor

/-- A step of a task, and why there is a slot for it. -/
theorem stepTask_room {f g : Floor β} {ticket : Nat} {now : Instant}
    (moved : f.stepTask ticket now = some g) :
    ∃ t e, f.pool.tasks[ticket]? = some t ∧ t.phase.isFinished = false ∧
      g.policy = f.policy ∧
      g.pool = f.pool.move ticket t.phase (t.phase.next t.operation f.policy.tolerated e) ∧
      Pool.slotsOf (t.phase.next t.operation f.policy.tolerated e) ≤
        f.pool.free + Pool.slotsOf t.phase := by
  obtain ⟨t, found, moved⟩ := Option.bind_eq_some_iff.mp moved
  obtain ⟨need, needs, moved⟩ := Option.bind_eq_some_iff.mp moved
  obtain ⟨⟨g', e⟩, answered, moved⟩ := Option.bind_eq_some_iff.mp moved
  obtain ⟨-, -, pool, policy⟩ := respond_some answered
  cases moved
  refine ⟨t, e, found, Phase.isFinished_of_need needs, policy, by rw [pool], ?_⟩
  cases without : t.phase.occupies with
  | true =>
    have room := Pool.slotsOf_le_one (t.phase.next t.operation f.policy.tolerated e)
    simp only [Pool.slotsOf, without, if_true] at room ⊢
    omega
  | false =>
    cases occupies : (t.phase.next t.operation f.policy.tolerated e).occupies with
    | false => simp [Pool.slotsOf, occupies]
    | true =>
      obtain ⟨slot, granted⟩ := Phase.granted_of_occupies without occupies
      cases slot.symm.trans needs
      subst granted
      have free : 0 < f.pool.free := by
        simp only [respond] at answered
        split at answered
        · cases answered
        · split at answered
          next admitted =>
            simp only [Pool.admits, Bool.and_eq_true, decide_eq_true_eq] at admitted
            exact admitted.2
          next => cases answered
      have room := Pool.slotsOf_le_one (t.phase.next t.operation f.policy.tolerated (.slot true))
      omega

end Floor

end PacedLoad
