import PacedLoad.Proofs.Service.Basic

/-!
# Queues and their workers

What one message does to the counters of a worker, and how many last messages a
worker can be sent.  A service that refuses new work before it sends the last
message is never sent a second one.
-/

namespace PacedLoad

namespace Message

variable {ε ρ : Type}

def event? : Message ε ρ → Option ε
  | .event e => some e
  | _ => none

/-- How many events a last message tells the worker to expect. -/
def expected? : Message ε ρ → Option Nat
  | .terminate n => some n
  | _ => none

end Message

namespace Worker

variable {σ ε ρ α : Type} {duty : Duty σ ε ρ α} {now : Instant} {w : Worker σ} {j : Journal}

@[simp] theorem settle_processed (w : Worker σ) : w.settle.processed = w.processed := by
  unfold settle
  split <;> rfl

@[simp] theorem settle_expected (w : Worker σ) : w.settle.expected = w.expected := by
  unfold settle
  split <;> rfl

/-- A worker that settles goes on as before unless it has seen all events it was told of. -/
theorem settle_phase (w : Worker σ) :
    (w.settle.phase = w.phase ∧ w.drained = false) ∨
      (w.settle.phase = .complete ∧ ∃ n, w.expected = some n ∧ n ≤ w.processed) := by
  unfold settle
  cases ready : w.drained with
  | false => exact .inl ⟨rfl, rfl⟩
  | true =>
    refine .inr ⟨rfl, ?_⟩
    unfold drained at ready
    cases expected : w.expected with
    | none => simp [expected] at ready
    | some n => exact ⟨n, rfl, by simpa [expected] using ready⟩

/-- A worker counts the events that it takes, whether it can handle them or not. -/
theorem receive_processed (m : Message ε ρ) :
    (w.receive duty now j m).1.processed = w.processed + m.event?.toList.length := by
  cases m with
  | event e =>
    simp only [receive]
    cases (duty.onEvent w.state j e).2 with
    | none => simp [Message.event?]
    | some message => rfl
  | request r ticket => simp [receive, Message.event?]
  | terminate n =>
    simp only [receive]
    cases w.expected with
    | none => simp [Message.event?]
    | some first => rfl

/-- The first last message tells the worker how many events to expect. -/
theorem receive_expected (m : Message ε ρ) :
    (w.receive duty now j m).1.expected = w.expected.or m.expected? := by
  cases m with
  | event e =>
    simp only [receive]
    cases (duty.onEvent w.state j e).2 with
    | none => simp [Message.expected?]
    | some message => simp [fail, Message.expected?]
  | request r ticket => simp [receive, Message.expected?]
  | terminate n =>
    simp only [receive]
    cases known : w.expected with
    | none => simp [Message.expected?]
    | some first => simp [fail, known]

/-- A running worker completes only when it has seen all events it was told of. -/
theorem receive_complete (m : Message ε ρ) (running : w.phase = .running)
    (complete : (w.receive duty now j m).1.phase = .complete) :
    ∃ n, (w.receive duty now j m).1.expected = some n ∧
      n ≤ (w.receive duty now j m).1.processed := by
  have settled : ∀ v : Worker σ, v.phase = .running → v.settle.phase = .complete →
      ∃ n, v.settle.expected = some n ∧ n ≤ v.settle.processed := by
    intro v before after
    rcases settle_phase v with ⟨same, -⟩ | ⟨-, n, expected, seen⟩
    · rw [same, before] at after
      cases after
    · exact ⟨n, by rw [settle_expected]; exact expected, by rw [settle_processed]; exact seen⟩
  cases m with
  | event e =>
    simp only [receive] at complete ⊢
    cases failed : (duty.onEvent w.state j e).2 with
    | none =>
      simp only [failed] at complete ⊢
      exact settled _ running complete
    | some message => simp [failed, fail] at complete
  | request r ticket => exact settled _ running complete
  | terminate n =>
    simp only [receive] at complete ⊢
    cases known : w.expected with
    | none =>
      simp only [known] at complete ⊢
      exact settled _ running complete
    | some first => simp [known, fail] at complete

/-- Unless the worker fails, only an event that it handles leaves something in the journal. -/
theorem receive_journal {m : Message ε ρ}
    (fine : (w.receive duty now j m).1.phase ≠ .failed) :
    (w.receive duty now j m).2.1 = j ∨
      ∃ e, (w.receive duty now j m).2.1 = (duty.onEvent w.state j e).1.2 := by
  cases m with
  | event e =>
    right
    refine ⟨e, ?_⟩
    simp only [receive] at fine ⊢
    cases failed : (duty.onEvent w.state j e).2 with
    | none => rfl
    | some message => simp [failed, fail] at fine
  | request r ticket => exact .inl rfl
  | terminate n =>
    simp only [receive] at fine ⊢
    cases known : w.expected with
    | none => exact .inl rfl
    | some first => simp [known, fail] at fine

/-- A worker that goes on after an event has handled it. -/
theorem receive_event {e : ε} (after : (w.receive duty now j (.event e)).1.phase = .running) :
    (duty.onEvent w.state j e).2 = none ∧
      (w.receive duty now j (.event e)).1.state = (duty.onEvent w.state j e).1.1 ∧
      (w.receive duty now j (.event e)).2.1 = (duty.onEvent w.state j e).1.2 := by
  simp only [receive] at after ⊢
  cases failed : (duty.onEvent w.state j e).2 with
  | none => simp
  | some message => simp [failed, fail] at after

/-- What no event, no request and no report changes is not changed by any message. -/
theorem receive_keeps {P : σ → Journal → Prop}
    (events : ∀ s j e, P s j → P (duty.onEvent s j e).1.1 (duty.onEvent s j e).1.2)
    (requests : ∀ s j r, P s j → P (duty.onRequest now s r).1 j)
    (reports : ∀ s j text, P s j → P s (j.report duty.name text)) (m : Message ε ρ)
    (before : P w.state j) :
    P (w.receive duty now j m).1.state (w.receive duty now j m).2.1 := by
  cases m with
  | event e =>
    have after := events w.state j e before
    simp only [receive]
    cases (duty.onEvent w.state j e).2 with
    | none => simpa using after
    | some message => exact reports _ _ message after
  | request r ticket => simpa [receive] using requests w.state j r before
  | terminate n =>
    simp only [receive]
    cases w.expected with
    | none => simpa using before
    | some first => exact reports _ _ (secondTermination first n) before

end Worker

namespace Service

variable {σ ε ρ α : Type} {s t : Service σ ε ρ α}

theorem isComplete_iff : s.isComplete = true ↔ s.worker.phase = .complete := by
  simp [isComplete]

/-- A worker that is complete has stopped. -/
theorem isOpen_of_complete (complete : s.isComplete = true) : s.isOpen = false := by
  simp [isOpen, isComplete_iff.mp complete]

/-- What the worker was told to expect and what it will be told. -/
def lasts (s : Service σ ε ρ α) : List Nat :=
  s.worker.expected.toList ++ s.queue.filterMap Message.expected?

/-- Only a service that refuses new work has been sent a last message, and only one. -/
def Sealed (s : Service σ ε ρ α) : Prop := s.lasts.length ≤ if s.shuttingDown then 1 else 0

theorem sealed_start (state : σ) : (start state : Service σ ε ρ α).Sealed := Nat.le_refl _

/-- A message takes what the worker expects from the queue to the worker. -/
theorem lasts_deliver (duty : Duty σ ε ρ α) (now : Instant) (s : Service σ ε ρ α) (j : Journal) :
    (s.deliver duty now j).1.lasts.length ≤ s.lasts.length := by
  cases running : s.isOpen with
  | false => exact Nat.le_of_eq (by rw [deliver_closed running])
  | true =>
    cases queued : s.queue with
    | nil => simp [deliver, running, queued]
    | cons m rest =>
      obtain ⟨worker, queue⟩ := deliver_cons duty now j running queued
      have told : (s.worker.expected.or m.expected?).toList.length ≤
          s.worker.expected.toList.length + m.expected?.toList.length := by
        cases s.worker.expected <;> simp
      have left : ((s.deliver duty now j).1.queue.filterMap Message.expected?).length ≤
          (rest.filterMap Message.expected?).length := by
        rw [queue]
        split <;> simp
      have split : ((m :: rest).filterMap (Message.expected? (ε := ε) (ρ := ρ))).length =
          m.expected?.toList.length + (rest.filterMap Message.expected?).length := by
        cases known : m.expected? with
        | none => simp [known]
        | some n =>
          simp only [List.filterMap_cons, known, List.length_cons, Option.toList_some,
            List.length_nil]
          omega
      simp only [lasts, worker, Worker.receive_expected, List.length_append, queued, split]
      omega

/-- The worker does not touch what clients share. -/
theorem shared_deliver (duty : Duty σ ε ρ α) (now : Instant) (s : Service σ ε ρ α) (j : Journal) :
    (s.deliver duty now j).1.shuttingDown = s.shuttingDown ∧
      (s.deliver duty now j).1.counted = s.counted := by
  unfold deliver
  split
  · dsimp only
    split <;> exact ⟨rfl, rfl⟩
  · exact ⟨rfl, rfl⟩

/-- A wait for the end of the worker that succeeds has seen the end. -/
theorem ended_ok {j : Journal} {doing : String} {timeout : Span} {expired : Bool}
    (polled : s.ended j doing timeout expired = some (.ok ())) : s.isComplete = true := by
  obtain ⟨verdict, polled, mapped⟩ := Option.map_eq_some_iff.mp polled
  unfold pollVerdict at polled
  cases complete : s.isComplete with
  | true => rfl
  | false =>
    simp only [complete, Bool.false_eq_true, if_false] at polled
    split at polled
    · cases polled
      cases mapped
    · split at polled <;> cases polled
      cases mapped

structure Called (s t : Service σ ε ρ α) : Prop where
  worker : t.worker = s.worker
  shuttingDown : t.shuttingDown = s.shuttingDown
  queue : ∃ messages, t.queue = s.queue ++ messages ∧
    messages.filterMap Message.expected? = []

/-- A call that sends nothing. -/
theorem called_silent (worker : t.worker = s.worker) (shuttingDown : t.shuttingDown = s.shuttingDown)
    (queue : t.queue = s.queue) : s.Called t :=
  ⟨worker, shuttingDown, [], by rw [queue, List.append_nil], rfl⟩

theorem called_submit (s : Service σ ε ρ α) (j : Journal) (e : ε) : s.Called (s.submit j e).1 := by
  cases running : s.isOpen with
  | true =>
    rw [submit_of_open running]
    exact ⟨rfl, rfl, [.event e], rfl, rfl⟩
  | false =>
    rw [submit_of_closed running]
    exact called_silent rfl rfl rfl

theorem called_submitWhileUp (s : Service σ ε ρ α) (j : Journal) (e : ε) :
    s.Called (s.submitWhileUp j e).1 := by
  unfold submitWhileUp
  split
  · exact called_silent rfl rfl rfl
  · exact called_submit s j e

theorem called_ask (s : Service σ ε ρ α) (j : Journal) (r : ρ) : s.Called (s.ask j r).1 := by
  cases running : s.isOpen with
  | true =>
    rw [ask_of_open running]
    exact ⟨rfl, rfl, [.request r s.cells.length], rfl, rfl⟩
  | false =>
    rw [ask_of_closed running]
    exact called_silent rfl rfl rfl

theorem Called.sealed (called : s.Called t) (before : s.Sealed) : t.Sealed := by
  obtain ⟨messages, queue, none⟩ := called.queue
  unfold Sealed lasts at before ⊢
  rw [called.worker, called.shuttingDown, queue, List.filterMap_append, none, List.append_nil]
  exact before

/-- The call of the client that stops the service; the last message may not get through. -/
structure Closes (s t : Service σ ε ρ α) : Prop where
  up : s.shuttingDown = false
  worker : t.worker = s.worker
  shuttingDown : t.shuttingDown = true
  queue : ∃ messages, t.queue = s.queue ++ messages ∧
    (messages.filterMap Message.expected?).length ≤ 1

theorem closes_terminate (j : Journal) (up : s.shuttingDown = false) :
    s.Closes (s.refuse.2.terminate j).1 := by
  let refusing := { s with shuttingDown := true }
  change s.Closes (refusing.send j (.terminate s.counted)).1
  cases running : s.isOpen with
  | true =>
    rw [send_of_open (s := refusing) running]
    exact ⟨up, rfl, rfl, [.terminate s.counted], rfl, Nat.le_refl _⟩
  | false =>
    rw [send_of_closed (s := refusing) running]
    exact ⟨up, rfl, rfl, [], (List.append_nil _).symm, Nat.zero_le _⟩

theorem Closes.sealed (closes : s.Closes t) (before : s.Sealed) : t.Sealed := by
  obtain ⟨messages, queue, single⟩ := closes.queue
  unfold Sealed lasts at before ⊢
  rw [closes.up] at before
  rw [closes.worker, closes.shuttingDown, queue, List.filterMap_append, ← List.append_assoc,
    List.length_append, if_pos rfl]
  simp only [Bool.false_eq_true, if_false] at before
  omega

/-- The worker takes messages without regard to what clients do. -/
theorem sealed_deliver (duty : Duty σ ε ρ α) (now : Instant) (j : Journal) (before : s.Sealed) :
    (s.deliver duty now j).1.Sealed := by
  unfold Sealed at before ⊢
  rw [(shared_deliver duty now s j).1]
  exact Nat.le_trans (lasts_deliver duty now s j) before

theorem deliver_nil (duty : Duty σ ε ρ α) (now : Instant) (j : Journal) (empty : s.queue = []) :
    s.deliver duty now j = (s, j) := by
  unfold deliver
  rw [empty]
  split
  next nonempty => cases nonempty
  next => rfl

/-- A worker that is complete does nothing more. -/
theorem isComplete_deliver {duty : Duty σ ε ρ α} {now : Instant} {j : Journal}
    (complete : s.isComplete = true) : (s.deliver duty now j).1.isComplete = true := by
  rw [deliver_closed (isOpen_of_complete complete)]
  exact complete

/-- What the worker does to the journal. -/
theorem journal_deliver {duty : Duty σ ε ρ α} {now : Instant} {j : Journal} {m : Message ε ρ}
    {rest : List (Message ε ρ)} (running : s.isOpen = true) (oldest : s.queue = m :: rest) :
    (s.deliver duty now j).2 = (s.worker.receive duty now j m).2.1 := by
  simp only [deliver, running, oldest]
  split <;> rfl

theorem deliver_failed {duty : Duty σ ε ρ α} {now : Instant} {j : Journal}
    (failed : s.worker.phase = .failed) : s.deliver duty now j = (s, j) :=
  deliver_closed (by simp [isOpen, failed])

/-- What no event, no request and no report changes is not changed by the worker. -/
theorem deliver_keeps {duty : Duty σ ε ρ α} {now : Instant} {j : Journal} {P : σ → Journal → Prop}
    (events : ∀ s j e, P s j → P (duty.onEvent s j e).1.1 (duty.onEvent s j e).1.2)
    (requests : ∀ s j r, P s j → P (duty.onRequest now s r).1 j)
    (reports : ∀ s j text, P s j → P s (j.report duty.name text)) (before : P s.worker.state j) :
    P (s.deliver duty now j).1.worker.state (s.deliver duty now j).2 := by
  cases running : s.isOpen with
  | false =>
    rw [deliver_closed running]
    exact before
  | true =>
    cases oldest : s.queue with
    | nil =>
      rw [deliver_nil duty now j oldest]
      exact before
    | cons m rest =>
      rw [(deliver_cons duty now j running oldest).1, journal_deliver running oldest]
      exact Worker.receive_keeps events requests reports m before

/-- Unless the worker fails, only an event that it handles leaves something in the journal. -/
theorem journal_deliver_fine {duty : Duty σ ε ρ α} {now : Instant} {j : Journal}
    (fine : (s.deliver duty now j).1.worker.phase ≠ .failed) :
    (s.deliver duty now j).2 = j ∨
      ∃ e, (s.deliver duty now j).2 = (duty.onEvent s.worker.state j e).1.2 := by
  cases running : s.isOpen with
  | false => exact .inl (by rw [deliver_closed running])
  | true =>
    cases oldest : s.queue with
    | nil => exact .inl (by rw [deliver_nil duty now j oldest])
    | cons m rest =>
      rw [(deliver_cons duty now j running oldest).1] at fine
      rw [journal_deliver running oldest]
      exact Worker.receive_journal fine

/-- The last message tells the worker to expect `expected` events.  It comes after `before` events,
which the worker has taken once it has taken the last message. -/
inductive Placed (s : Service σ ε ρ α) (expected before : Nat) : Prop
  | queued (first later : List (Message ε ρ)) (untold : s.worker.expected = none)
      (place : s.queue = first ++ .terminate expected :: later)
      (single : (first ++ later).filterMap Message.expected? = [])
      (count : s.worker.processed + (first.filterMap Message.event?).length = before)
  | taken (told : s.worker.expected = some expected)
      (single : s.queue.filterMap Message.expected? = []) (count : before ≤ s.worker.processed)

/-- Messages behind the last one change nothing. -/
theorem Placed.post {expected before : Nat} {messages : List (Message ε ρ)}
    (placed : s.Placed expected before) (worker : t.worker = s.worker)
    (queue : t.queue = s.queue ++ messages)
    (others : messages.filterMap Message.expected? = []) : t.Placed expected before := by
  cases placed with
  | @queued first later untold place single count =>
    refine .queued first (later ++ messages) (worker ▸ untold)
      (by rw [queue, place]; simp) ?_ (worker ▸ count)
    rw [← List.append_assoc, List.filterMap_append, single, others]
    rfl
  | taken told single count =>
    refine .taken (worker ▸ told) ?_ (worker ▸ count)
    rw [queue, List.filterMap_append, single, others]
    rfl

/-- A worker that completes has seen all events it was told of. -/
theorem complete_deliver {duty : Duty σ ε ρ α} {now : Instant} {j : Journal}
    (running : s.isOpen = true) (complete : (s.deliver duty now j).1.isComplete = true) :
    ∃ n, (s.deliver duty now j).1.worker.expected = some n ∧
      n ≤ (s.deliver duty now j).1.worker.processed := by
  cases oldest : s.queue with
  | nil =>
    rw [deliver_nil duty now j oldest] at complete
    cases running.symm.trans (isOpen_of_complete complete)
  | cons m rest =>
    obtain ⟨worker, -⟩ := deliver_cons duty now j running oldest
    rw [isComplete_iff, worker] at complete
    rw [worker]
    exact Worker.receive_complete m (isOpen_iff.mp running) complete

/-- When the worker has been told to stop and completes, it has taken what came before the last
message, and as many events as it was told. -/
theorem Placed.deliver {expected before : Nat} (placed : s.Placed expected before)
    (duty : Duty σ ε ρ α) (now : Instant) (j : Journal) (running : s.isOpen = true) :
    ((s.deliver duty now j).1.isOpen = true → (s.deliver duty now j).1.Placed expected before) ∧
      ((s.deliver duty now j).1.isComplete = true →
        expected ≤ (s.deliver duty now j).1.worker.processed ∧
          before ≤ (s.deliver duty now j).1.worker.processed) := by
  cases oldest : s.queue with
  | nil =>
    rw [deliver_nil duty now j oldest]
    exact ⟨fun _ => placed, fun complete =>
      nomatch running.symm.trans (isOpen_of_complete complete)⟩
  | cons m rest =>
    obtain ⟨worker, queue⟩ := deliver_cons duty now j running oldest
    have stays : (s.deliver duty now j).1.isOpen = true → (s.deliver duty now j).1.queue = rest := by
      intro after
      rw [isOpen_iff, worker] at after
      rw [queue, if_pos after]
    have seen : (s.deliver duty now j).1.worker.processed =
        s.worker.processed + m.event?.toList.length := by rw [worker, Worker.receive_processed]
    have told : (s.deliver duty now j).1.worker.expected = s.worker.expected.or m.expected? := by
      rw [worker, Worker.receive_expected]
    cases placed with
    | @queued first later untold place single count =>
      rw [oldest] at place
      cases first with
      | nil =>
        -- the last message itself
        cases place
        rw [untold] at told
        have count' : s.worker.processed = before := by simpa using count
        refine ⟨fun after => .taken told (by rw [stays after]; simpa using single) (by omega),
          fun done => ?_⟩
        obtain ⟨n, expected', enough⟩ := complete_deliver running done
        cases told.symm.trans expected'
        exact ⟨enough, by omega⟩
      | cons head first =>
        obtain ⟨rfl, rfl⟩ := List.cons.inj place
        obtain ⟨other, single⟩ : m.expected? = none ∧
            (first ++ later).filterMap Message.expected? = [] := by
          cases other : m.expected? with
          | none => exact ⟨rfl, by simpa [other] using single⟩
          | some n => simp [other] at single
        rw [untold, other] at told
        refine ⟨fun after => .queued _ _ told (stays after) single ?_, fun done => ?_⟩
        · rw [seen, ← count]
          cases m.event?.eq_none_or_eq_some with
          | inl none => simp [none]
          | inr some =>
            obtain ⟨e, known⟩ := some
            simp only [known, List.filterMap_cons, Option.toList_some, List.length_cons,
              List.length_nil]
            omega
        · obtain ⟨n, expected', -⟩ := complete_deliver running done
          cases told.symm.trans expected'
    | taken known single count =>
      rw [known] at told
      refine ⟨fun after => .taken told ?_ (by omega), fun done => ?_⟩
      · rw [stays after]
        rw [oldest] at single
        cases other : m.expected? with
        | none => simpa [other] using single
        | some n => simp [other] at single
      · obtain ⟨n, expected', enough⟩ := complete_deliver running done
        cases told.symm.trans expected'
        exact ⟨enough, by omega⟩

end Service

end PacedLoad
