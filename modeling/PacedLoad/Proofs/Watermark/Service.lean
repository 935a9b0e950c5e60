import PacedLoad.Proofs.Entries
import PacedLoad.Proofs.Service.Basic
import PacedLoad.Proofs.Watermark.State
import PacedLoad.Watermark.Service

/-!
# What the worker makes of a message

A message leads to a new state or is refused; a refused one stops the worker and
changes nothing.  The published slot always shows the state that the worker owns.
-/

namespace PacedLoad.Watermark

abbrev Letter := Message Event Request

/-- The books after a message; nothing when the message is refused. -/
def Bookkeeping.heed {σ : Type} [Bookkeeping σ] (s : σ) : Letter → Option σ
  | .event e => (Bookkeeping.apply s e).toOption
  | .request .register _ => some (Bookkeeping.register s).1
  | .request .read _ => some s
  | .terminate _ => some s

theorem Bookkeeping.heed_event {σ : Type} [Bookkeeping σ] {s after : σ} {e : Event} :
    Bookkeeping.heed s (.event e) = some after ↔ Bookkeeping.apply s e = .ok after := by
  simp only [heed]
  cases Bookkeeping.apply s e <;> simp [Except.toOption]

theorem State.heed_event {s after : State} {e : Event} :
    Bookkeeping.heed s (.event e) = some after ↔ Coordinator.apply s e = .ok after :=
  Bookkeeping.heed_event

/-- Without declared peers nothing is reported. -/
theorem State.heed_alone {s after : State} {m : Letter}
    (heeded : Bookkeeping.heed s m = some after) (alone : s.peers = []) : after.peers = [] := by
  cases m with
  | event e =>
    rw [heed_event] at heeded
    cases e with
    | initiated w t | completed w t =>
      obtain ⟨writer, changed, -, -, rfl⟩ := withWriter_ok.mp heeded
      exact alone
    | external p t =>
      obtain ⟨previous, declared, -⟩ := external_ok.mp heeded
      rw [alone] at declared
      cases declared
  | request r ticket => cases r <;> cases heeded <;> exact alone
  | terminate n =>
    cases heeded
    exact alone

/-! The state keeps the completion times as it is. -/

@[simp] theorem Bookkeeping.start_state (peers : List String) :
    (Bookkeeping.start peers : State) = State.start peers := rfl

@[simp] theorem Bookkeeping.register_state (s : State) : Bookkeeping.register s = s.register := rfl

@[simp] theorem Bookkeeping.apply_state (s : State) (e : Event) :
    Bookkeeping.apply s e = Coordinator.apply s e := rfl

@[simp] theorem Bookkeeping.globalCompletionTime_state (s : State) :
    Bookkeeping.globalCompletionTime s = s.globalCompletionTime := rfl

/-- Books that know nothing at first, and that number their writers in the order of registration. -/
class LawfulBookkeeping (σ : Type) [Bookkeeping σ] where
  /-- How many writers are registered. -/
  writers : σ → Nat
  writers_start (peers : List String) : writers (Bookkeeping.start peers) = 0
  writers_register (s : σ) : writers (Bookkeeping.register s).1 = writers s + 1
  writers_apply {s after : σ} {e : Event} :
    Bookkeeping.apply s e = .ok after → writers after = writers s
  number_register (s : σ) : (Bookkeeping.register s).2 = writers s
  unknown_start (peers : List String) :
    Bookkeeping.globalCompletionTime (Bookkeeping.start peers : σ) = none

/-- What the slot can show of a time. -/
def Coordinator.visible (t : Instant) : Instant := min t (.saturate 18446744073709551614)

/-- A time that is put into the slot and taken out again: the last instant can not be told from a
time that is unknown, and is put there as the one before it. -/
theorem Slot.load_store (gct : Option Instant) :
    Slot.load (Slot.store gct) = gct.map Coordinator.visible := by
  cases gct with
  | none => rfl
  | some t =>
    have bound : min t.nanos 18446744073709551614 < 18446744073709551615 := by omega
    have kept : (UInt64.ofNat (min t.nanos 18446744073709551614)).toNat =
        min t.nanos 18446744073709551614 :=
      UInt64.toNat_ofNat_of_lt' (Nat.lt_trans bound (by decide))
    have known : Slot.store (some t) ≠ Slot.unknown := by
      refine UInt64.toNat_inj.not.mp ?_
      rw [Slot.store, kept]
      exact Nat.ne_of_lt bound
    rw [Slot.load, if_neg known, Slot.store, kept, Option.map_some]
    refine congrArg some (Instant.ext ?_)
    rcases Nat.le_total t.nanos 18446744073709551614 with early | late
    · rw [Coordinator.visible, min_eq_left (show t ≤ _ by simpa [Instant.le_iff] using early)]
      simp only [Instant.saturate_nanos]
      omega
    · rw [Coordinator.visible, min_eq_right (show _ ≤ t by simpa [Instant.le_iff] using late)]
      simp only [Instant.saturate_nanos]
      omega

/-- The slot shows the global completion time of the state. -/
def Coordinator.Shown {σ : Type} [Bookkeeping σ] (c : Coordinator σ) : Prop :=
  c.published = (Bookkeeping.globalCompletionTime c.state).map visible

theorem shown_publish {σ : Type} [Bookkeeping σ] (s : σ) : (Coordinator.publish s).Shown :=
  Slot.load_store _

/-- The slot is right from the beginning. -/
theorem shown_start {σ : Type} [Bookkeeping σ] [LawfulBookkeeping σ] (peers : List String) :
    (Coordinator.start peers : Coordinator σ).Shown := by
  rw [Coordinator.Shown, Coordinator.start, LawfulBookkeeping.unknown_start]
  rfl

/-- The slot has reached nothing that the state has not. -/
theorem Coordinator.Shown.reached {σ : Type} [Bookkeeping σ] {c : Coordinator σ} (shown : c.Shown)
    {v : Instant} (read : ∃ gct, c.published = some gct ∧ v ≤ gct) :
    ∃ known, Bookkeeping.globalCompletionTime c.state = some known ∧ v ≤ known := by
  obtain ⟨gct, published, le⟩ := read
  rw [shown] at published
  obtain ⟨known, complete, rfl⟩ := Option.map_eq_some_iff.mp published
  exact ⟨known, complete, le_trans le (min_le_left _ _)⟩

/-- Up to the instant before the last one, the slot has reached all that the state has. -/
theorem Coordinator.Shown.reached_iff {c : Coordinator} (shown : c.Shown) {v : Instant}
    (visible : v < .last) :
    (∃ gct, c.published = some gct ∧ v ≤ gct) ↔
      ∃ known, c.state.globalCompletionTime = some known ∧ v ≤ known := by
  refine ⟨shown.reached, ?_⟩
  rintro ⟨known, complete, le⟩
  have published : c.published = some (Coordinator.visible known) := by
    rw [shown, Bookkeeping.globalCompletionTime_state, complete]
    rfl
  refine ⟨Coordinator.visible known, published, le_min le ?_⟩
  simp only [Instant.le_iff, Instant.lt_iff, Instant.last, Instant.saturate_nanos] at visible ⊢
  omega

/-- The worker makes the step of its books, or stops and leaves them alone. -/
theorem receive_state {σ : Type} [Bookkeeping σ] {now : Instant} {w : Worker (Coordinator σ)}
    {j : Journal} (m : Letter) :
    (w.receive duty now j m).1.state.state =
        (Bookkeeping.heed w.state.state m).getD w.state.state ∧
      ((w.receive duty now j m).1.phase = .running → Bookkeeping.heed w.state.state m ≠ none) := by
  cases m with
  | event e =>
    simp only [Worker.receive, duty, Bookkeeping.heed]
    cases Bookkeeping.apply w.state.state e with
    | error v => simp [Worker.fail, Except.toOption]
    | ok after => simp [Except.toOption, Coordinator.publish]
  | request r ticket =>
    cases r <;> simp [Worker.receive, duty, Bookkeeping.heed, Coordinator.publish]
  | terminate n =>
    simp only [Worker.receive, Bookkeeping.heed]
    cases w.expected <;> simp [Worker.fail]

/-- A worker that goes on after a message has made the step of the state. -/
theorem receive_running {now : Instant} {w : Worker Coordinator} {j : Journal} {m : Letter}
    (running : (w.receive duty now j m).1.phase = .running) :
    Bookkeeping.heed w.state.state m = some (w.receive duty now j m).1.state.state := by
  obtain ⟨state, taken⟩ := @receive_state State _ now w j m
  rw [state]
  obtain ⟨after, heeded⟩ := Option.ne_none_iff_exists'.mp (taken running)
  rw [heeded]
  rfl

/-- Only a request is answered: a registration with the next writer, and a question for the time with
the global completion time. -/
theorem receive_reply {now : Instant} {w : Worker Coordinator} {j : Journal} {m : Letter}
    {ticket : Nat} {a : Answer} (answered : (w.receive duty now j m).2.2 = some (ticket, a)) :
    (m = .request .register ticket ∧ a = .writer w.state.state.writers.length) ∨
      (m = .request .read ticket ∧ a = .time w.state.state.globalCompletionTime) := by
  cases m with
  | event e =>
    simp only [Worker.receive, duty, Bookkeeping.apply_state] at answered
    cases applied : Coordinator.apply w.state.state e <;> simp [applied] at answered
  | request r ticket' =>
    cases r with
    | register =>
      obtain ⟨rfl, rfl⟩ : ticket' = ticket ∧ Answer.writer w.state.state.writers.length = a := by
        simpa [Worker.receive, duty, State.register] using answered
      exact .inl ⟨rfl, rfl⟩
    | read =>
      obtain ⟨rfl, rfl⟩ : ticket' = ticket ∧ Answer.time w.state.state.globalCompletionTime = a := by
        simpa [Worker.receive, duty] using answered
      exact .inr ⟨rfl, rfl⟩
  | terminate n =>
    simp only [Worker.receive] at answered
    cases expected : w.expected <;> simp [expected] at answered

/-- Only a registration is answered with a writer, which is the next one. -/
theorem receive_answer {now : Instant} {w : Worker Coordinator} {j : Journal} {m : Letter}
    {ticket id : Nat} (answered : (w.receive duty now j m).2.2 = some (ticket, .writer id)) :
    m = .request .register ticket ∧ id = w.state.state.writers.length := by
  rcases receive_reply answered with ⟨same, writer⟩ | ⟨-, time⟩
  · exact ⟨same, Answer.writer.inj writer⟩
  · cases time

/-- Whatever a message does, the slot shows the state afterwards. -/
theorem receive_shown {σ : Type} [Bookkeeping σ] {now : Instant} {w : Worker (Coordinator σ)}
    {j : Journal} (m : Letter) (shown : w.state.Shown) :
    (w.receive duty now j m).1.state.Shown := by
  cases m with
  | event e =>
    simp only [Worker.receive, duty]
    cases Bookkeeping.apply w.state.state e with
    | error v => exact shown
    | ok after =>
      simp only [Worker.settle_state]
      exact shown_publish after
  | request r ticket =>
    cases r with
    | register =>
      simp only [Worker.receive, duty, Worker.settle_state]
      exact shown_publish _
    | read =>
      simp only [Worker.receive, duty, Worker.settle_state]
      exact shown
  | terminate n =>
    simp only [Worker.receive]
    cases w.expected with
    | none =>
      simp only [Worker.settle_state]
      exact shown
    | some first => exact shown

/-- A worker that was not told how many events to expect stops only at a refused message. -/
theorem receive_unlimited {now : Instant} {w : Worker Coordinator} {j : Journal} {m : Letter}
    {s : State} (heeded : Bookkeeping.heed w.state.state m = some s)
    (running : w.phase = .running) (unlimited : w.expected = none)
    (other : ∀ n, m ≠ .terminate n) :
    (w.receive duty now j m).1.phase = .running ∧
      (w.receive duty now j m).1.expected = none := by
  cases m with
  | event e =>
    rw [State.heed_event] at heeded
    simp only [Worker.receive, duty, Bookkeeping.apply_state, heeded, Worker.settle,
      Worker.drained, unlimited]
    exact ⟨running, rfl⟩
  | request r ticket =>
    cases r <;> simp only [Worker.receive, duty, Worker.settle, Worker.drained, unlimited] <;>
      exact ⟨running, rfl⟩
  | terminate n => exact absurd rfl (other n)

/-- Every writer holds what the events left outstanding. -/
def Balanced (events : List Event) (s : State) : Prop :=
  ∀ (w : Nat) (writer : Writer), s.writers[w]? = some writer → ∀ t,
    writer.outstanding.count t + events.count (.completed w t) = events.count (.initiated w t)

/-- An accepted event keeps the balance. -/
theorem Balanced.apply {events : List Event} {s after : State} {e : Event}
    (balanced : Balanced events s) (success : Coordinator.apply s e = .ok after) :
    Balanced (events ++ [e]) after := by
  intro w' writer' found' t'
  simp only [List.count_append, List.count_singleton]
  cases e with
  | initiated w t =>
    obtain ⟨writer, changed, found, taken, rfl⟩ := State.withWriter_ok.mp success
    obtain ⟨-, rfl⟩ := Writer.initiated_ok.mp taken
    rcases getElem?_set_some found' with ⟨rfl, rfl⟩ | ⟨other, before⟩
    · have balance := balanced w' writer found t'
      simp only [Writer.count_add, beq_iff_eq, Event.initiated.injEq, true_and, reduceCtorEq,
        if_false]
      omega
    · simpa [Ne.symm other] using balanced w' writer' before t'
  | completed w t =>
    obtain ⟨writer, changed, found, taken, rfl⟩ := State.withWriter_ok.mp success
    rcases getElem?_set_some found' with ⟨rfl, rfl⟩ | ⟨other, before⟩
    · have balance := balanced w' writer found t'
      rw [Writer.count_completed taken] at balance
      simp only [beq_iff_eq, Event.completed.injEq, true_and, reduceCtorEq, if_false]
      omega
    · simpa [Ne.symm other] using balanced w' writer' before t'
  | external p t =>
    obtain ⟨previous, -, -, rfl⟩ := State.external_ok.mp success
    simpa using balanced w' writer' found' t'

end PacedLoad.Watermark
