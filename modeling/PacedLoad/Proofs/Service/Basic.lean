import PacedLoad.Service.Basic

/-!
# What clients do to a service

A message reaches the queue exactly as long as the worker runs.  Nothing that a
client does touches the worker.
-/

namespace PacedLoad

/-- A worker that is told to settle keeps what it owns. -/
@[simp] theorem Worker.settle_state {σ : Type} (w : Worker σ) : w.settle.state = w.state := by
  unfold settle
  split <;> rfl

namespace Cell

variable {α : Type}

def valueAt (cells : List (Cell α)) (ticket : Nat) : Option α := cells[ticket]?.bind value

theorem valueAt_append_fresh (cells : List (Cell α)) :
    valueAt (cells ++ [fresh]) = valueAt cells := by
  funext ticket
  unfold valueAt
  rcases Nat.lt_trichotomy ticket cells.length with inside | rfl | beyond
  · rw [List.getElem?_append_left inside]
  · simp [fresh]
  · rw [List.getElem?_append_right (Nat.le_of_lt beyond), List.getElem?_eq_none (by simp; omega),
      List.getElem?_eq_none (Nat.le_of_lt beyond)]

theorem valueAt_length (cells : List (Cell α)) : valueAt cells cells.length = none := by
  simp [valueAt]

/-- The halves of a cell may go away without its value. -/
theorem valueAt_modify (change : Cell α → Cell α) (same : ∀ c, (change c).value = c.value)
    (cells : List (Cell α)) (k : Nat) : valueAt (cells.modify k change) = valueAt cells := by
  funext ticket
  unfold valueAt
  rw [List.getElem?_modify]
  cases cells[ticket]? with
  | none => rfl
  | some c => by_cases here : k = ticket <;> simp [here, same]

/-- What a cell holds after one of them was resolved. -/
theorem valueAt_resolve {cells : List (Cell α)} {k ticket : Nat} {a b : α}
    (held : valueAt (cells.modify k fun c => c.resolve b) ticket = some a) :
    valueAt cells ticket = some a ∨ (k, b) = (ticket, a) := by
  unfold valueAt at held ⊢
  rw [List.getElem?_modify] at held
  obtain ⟨after, found, value⟩ := Option.bind_eq_some_iff.mp held
  obtain ⟨c, content, changed⟩ := Option.map_eq_some_iff.mp found
  rw [content, Option.bind_some]
  by_cases here : k = ticket
  · simp only [here, if_true, resolve] at changed
    split at changed <;> subst changed
    · cases value
      exact .inr (by rw [here])
    · exact .inl value
  · simp only [here, if_false] at changed
    subst changed
    exact .inl value

end Cell

namespace Service

variable {σ ε ρ α : Type} {s : Service σ ε ρ α}

theorem isOpen_iff : s.isOpen = true ↔ s.worker.phase = .running := by
  simp [isOpen]

theorem send_of_open (running : s.isOpen = true) (j : Journal) (m : Message ε ρ) :
    s.send j m = ({ s with queue := s.queue ++ [m] }, .ok ()) := by
  simp [send, send?, running]

theorem send_of_closed (stopped : s.isOpen = false) (j : Journal) (m : Message ε ρ) :
    s.send j m = (s, .error (closedError j)) := by
  simp [send, send?, stopped]

theorem submit_of_open (running : s.isOpen = true) (j : Journal) (e : ε) :
    s.submit j e =
      ({ s with counted := s.counted + 1, queue := s.queue ++ [.event e] }, .ok ()) :=
  send_of_open (s := s.count) running j (.event e)

theorem submit_of_closed (stopped : s.isOpen = false) (j : Journal) (e : ε) :
    s.submit j e = ({ s with counted := s.counted + 1 }, .error (closedError j)) :=
  send_of_closed (s := s.count) stopped j (.event e)

/-- All that a delivery does to the worker and the queue. -/
theorem deliver_cons (duty : Duty σ ε ρ α) (now : Instant) (j : Journal) {m : Message ε ρ}
    {rest : List (Message ε ρ)} (running : s.isOpen = true) (oldest : s.queue = m :: rest) :
    (s.deliver duty now j).1.worker = (s.worker.receive duty now j m).1 ∧
      (s.deliver duty now j).1.queue =
        if (s.worker.receive duty now j m).1.phase = .running then rest else [] := by
  simp only [deliver, running, oldest]
  split <;> exact ⟨rfl, rfl⟩

theorem deliver_closed {duty : Duty σ ε ρ α} {now : Instant} {j : Journal}
    (stopped : s.isOpen = false) : s.deliver duty now j = (s, j) := by
  simp [deliver, stopped]

/-- A delivery adds nothing to the queue. -/
theorem deliver_shorter (duty : Duty σ ε ρ α) (now : Instant) (s : Service σ ε ρ α) (j : Journal) :
    (s.deliver duty now j).1.queue.length ≤ s.queue.length := by
  unfold deliver
  split
  next m rest _ oldest =>
    rw [oldest]
    dsimp only
    split <;> simp
  next => exact Nat.le_refl _

theorem ask_of_open (running : s.isOpen = true) (j : Journal) (r : ρ) :
    s.ask j r = ({ s with
      cells := s.cells ++ [Cell.fresh]
      queue := s.queue ++ [.request r s.cells.length] }, .ok s.cells.length) := by
  have sent := send_of_open (s := { s with cells := s.cells ++ [Cell.fresh] }) running j
    (.request r s.cells.length)
  simp only [ask, sent]
  rfl

theorem ask_of_closed (stopped : s.isOpen = false) (j : Journal) (r : ρ) :
    s.ask j r = ({ s with cells := s.cells ++ [Cell.fresh] }, .error (closedError j)) := by
  have sent := send_of_closed (s := { s with cells := s.cells ++ [Cell.fresh] }) stopped j
    (.request r s.cells.length)
  simp only [ask, sent]
  rfl

theorem abandon_values (cells : List (Cell α)) (queue : List (Message ε ρ)) :
    Cell.valueAt (abandon cells queue) = Cell.valueAt cells := by
  induction queue generalizing cells with
  | nil => rfl
  | cons m rest ih =>
    cases m with
    | request r ticket =>
      rw [abandon, ih]
      exact Cell.valueAt_modify Cell.dropResolver (fun _ => rfl) cells ticket
    | event e => exact ih cells
    | terminate n => exact ih cells

theorem abandon_length (cells : List (Cell α)) (queue : List (Message ε ρ)) :
    (abandon cells queue).length = cells.length := by
  induction queue generalizing cells with
  | nil => rfl
  | cons m rest ih =>
    cases m with
    | request r ticket => rw [abandon, ih, List.length_modify]
    | event e => exact ih cells
    | terminate n => exact ih cells

/-- A delivery answers at most the request that is delivered. -/
theorem deliver_values {duty : Duty σ ε ρ α} {now : Instant} {j : Journal} {m : Message ε ρ}
    {rest : List (Message ε ρ)} (running : s.isOpen = true) (oldest : s.queue = m :: rest)
    {ticket : Nat} {a : α} (held : Cell.valueAt (s.deliver duty now j).1.cells ticket = some a) :
    Cell.valueAt s.cells ticket = some a ∨
      (s.worker.receive duty now j m).2.2 = some (ticket, a) := by
  cases answer : (s.worker.receive duty now j m).2.2 with
  | none =>
    simp only [deliver, running, oldest, answer] at held
    split at held
    · exact .inl held
    · rw [abandon_values] at held
      exact .inl held
  | some given =>
    have resolved : Cell.valueAt (s.cells.modify given.1 fun c => c.resolve given.2) ticket =
        some a := by
      simp only [deliver, running, oldest, answer] at held
      split at held
      · exact held
      · rwa [abandon_values] at held
    rcases Cell.valueAt_resolve resolved with before | same
    · exact .inl before
    · exact .inr (congrArg some same)

/-- An answer that is taken up stands in the cell. -/
theorem answer_ok {j : Journal} {doing : String} {timeout : Span} {expired : Bool} {ticket : Nat}
    {a : α} (answered : s.answer j doing timeout expired ticket = some (.ok a)) :
    Cell.valueAt s.cells ticket = some a := by
  obtain ⟨verdict, polled, mapped⟩ := Option.map_eq_some_iff.mp answered
  cases verdict with
  | error e => cases mapped
  | ok b =>
    cases mapped
    have value : (s.cell ticket).value = some a := by
      unfold Cell.verdict at polled
      split at polled
      · cases polled
      · cases polled
      · unfold Cell.ending at polled
        split at polled
        · next known =>
          cases polled
          exact known
        · split at polled <;> cases polled
    unfold cell at value
    unfold Cell.valueAt
    cases content : s.cells[ticket]? with
    | none => simp [List.getD, content, Cell.fresh, Cell.dropResolver] at value
    | some c => simpa [List.getD, content] using value

/-- A value that stands in the cell is taken up at any poll. -/
theorem answer_of_value {ticket : Nat} {a : α} (value : Cell.valueAt s.cells ticket = some a)
    (j : Journal) (doing : String) (timeout : Span) (expired : Bool) :
    s.answer j doing timeout expired ticket = some (.ok a) := by
  obtain ⟨c, content, known⟩ := Option.bind_eq_some_iff.mp value
  have here : s.cell ticket = c := by simp [cell, content]
  have settled : c.settled = true := by simp [Cell.settled, known]
  have verdict : c.verdict (some j) expired timeout = some (.ok a) := by
    simp [Cell.verdict, pollVerdict, settled, Cell.ending, known]
  rw [answer, here, verdict]
  rfl

end Service

end PacedLoad
