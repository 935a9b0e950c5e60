import Mathlib.Data.List.Induction
import PacedLoad.Proofs.Service.Queue

/-!
# The course of a worker over a queue

A worker takes the messages of a queue in their order.  It stops when it has seen
as many events as a last message told it to expect, or at the first message that
is refused: an event that it can not handle or a second last message.  What comes
behind has no effect.
-/

namespace PacedLoad

namespace Message

variable {ε ρ : Type}

/-- The number of the cell in which a request wants its answer. -/
def ticket? : Message ε ρ → Option Nat
  | .request _ ticket => some ticket
  | _ => none

/-- The messages bring at least as many events as one of them says. -/
def Enough (seen : List (Message ε ρ)) : Prop :=
  ∃ n ∈ seen.filterMap expected?, n ≤ (seen.filterMap event?).length

instance (seen : List (Message ε ρ)) : Decidable (Enough seen) :=
  inferInstanceAs (Decidable (∃ n ∈ seen.filterMap expected?, n ≤ (seen.filterMap event?).length))

/-- A worker may take all these messages without a reason to stop before it has taken the last of
them. -/
structure Continued (seen : List (Message ε ρ)) : Prop where
  single : (seen.filterMap expected?).length ≤ 1
  short : ∀ k, k < seen.length → ¬ Enough (seen.take k)

theorem continued_nil : Continued ([] : List (Message ε ρ)) :=
  ⟨Nat.zero_le _, fun _ inside => absurd inside (Nat.not_lt_zero _)⟩

/-- One message more. -/
theorem Continued.concat {seen : List (Message ε ρ)} (before : Continued seen)
    (short : ¬ Enough seen) (m : Message ε ρ)
    (single : m.expected? = none ∨ seen.filterMap expected? = []) : Continued (seen ++ [m]) := by
  constructor
  · rw [List.filterMap_append, List.length_append]
    rcases single with other | first
    · simpa [other] using before.single
    · rw [first]
      cases known : m.expected? <;> simp [known]
  · intro k inside
    rw [List.length_append, List.length_singleton] at inside
    rw [List.take_append_of_le_length (by omega)]
    rcases Nat.lt_or_ge k seen.length with earlier | last
    · exact before.short k earlier
    · rw [List.take_of_length_le last]
      exact short

/-- Each request has a cell of its own, whose resolving half has not been used.  Nobody needs to
wait at it any more. -/
structure Ticketed {α : Type} (messages : List (Message ε ρ)) (cells : List (Cell α)) : Prop where
  distinct : (messages.filterMap ticket?).Nodup
  unused : ∀ ticket ∈ messages.filterMap ticket?,
    ∃ pending, cells[ticket]? = some ⟨none, true, pending⟩

/-- With at most one last message, there are enough events if there are as many as the first last
message says. -/
theorem enough_iff {seen : List (Message ε ρ)} (single : (seen.filterMap expected?).length ≤ 1) :
    Enough seen ↔
      ∃ n, (seen.filterMap expected?).head? = some n ∧ n ≤ (seen.filterMap event?).length := by
  unfold Enough
  match told : seen.filterMap expected? with
  | [] => simp
  | [n] => simp
  | _ :: _ :: _ =>
    rw [told] at single
    simp at single

end Message

open Message

namespace Cell

variable {α : Type}

def resolveAll (cells : List (Cell α)) (answers : List (Nat × α)) : List (Cell α) :=
  answers.foldl (fun cells given => cells.modify given.1 fun c => c.resolve given.2) cells

theorem resolveAll_concat (cells : List (Cell α)) (answers : List (Nat × α)) (given : Nat × α) :
    resolveAll cells (answers ++ [given]) =
      (resolveAll cells answers).modify given.1 fun c => c.resolve given.2 := by
  simp [resolveAll]

/-- A cell that was not answered is as it was. -/
theorem resolveAll_other (cells : List (Cell α)) {answers : List (Nat × α)} {ticket : Nat}
    (other : ticket ∉ answers.map Prod.fst) :
    (resolveAll cells answers)[ticket]? = cells[ticket]? := by
  induction answers using List.reverseRecOn with
  | nil => rfl
  | append_singleton answers given ih =>
    rw [List.map_append, List.mem_append, not_or] at other
    obtain ⟨earlier, here⟩ := other
    have different : given.1 ≠ ticket := fun same => here (by simp [same])
    simp [resolveAll_concat, different, ih earlier]

/-- What arrives of an answer: nothing where nobody waits any more. -/
def arriving (cells : List (Cell α)) (ticket : Nat) (a : α) : Option α :=
  if (cells[ticket]?).any Cell.pending then some a else none

theorem arriving_of_pending {cells : List (Cell α)} {ticket : Nat} {c : Cell α}
    (found : cells[ticket]? = some c) (waits : c.pending = true) (a : α) :
    arriving cells ticket a = some a := by
  simp [arriving, found, waits]

/-- An unused cell that was answered once holds the answer, if it could arrive. -/
theorem valueAt_resolveAll {cells : List (Cell α)} {answers : List (Nat × α)} {ticket : Nat} {a : α}
    (distinct : (answers.map Prod.fst).Nodup) {pending : Bool}
    (unused : cells[ticket]? = some ⟨none, true, pending⟩) (given : (ticket, a) ∈ answers) :
    valueAt (resolveAll cells answers) ticket = arriving cells ticket a := by
  induction answers using List.reverseRecOn with
  | nil => cases given
  | append_singleton answers last ih =>
    rw [List.map_append, List.nodup_append] at distinct
    obtain ⟨earlier, -, apart⟩ := distinct
    rw [resolveAll_concat, valueAt, List.getElem?_modify]
    rcases List.mem_append.mp given with before | here
    · have different : last.1 ≠ ticket := fun same =>
        apart ticket (List.mem_map_of_mem before) last.1 (by simp) same.symm
      simpa [different, valueAt] using ih earlier before
    · cases List.mem_singleton.mp here
      have free : ticket ∉ answers.map Prod.fst := fun member =>
        apart ticket member ticket (by simp) rfl
      simp [resolveAll_other cells free, unused, arriving, value_resolve]

end Cell

namespace Service

variable {σ ε ρ α : Type} {duty : Duty σ ε ρ α} {now : Nat → Instant} {state : σ} {j : Journal}

def loaded (state : σ) (messages : List (Message ε ρ)) (cells : List (Cell α)) : Service σ ε ρ α :=
  ⟨Worker.fresh state, messages, 0, false, cells⟩

/-- The service and the journal after the worker was told `n` times to take a message.  It reads
the clock each time. -/
def takes (duty : Duty σ ε ρ α) (now : Nat → Instant) (s : Service σ ε ρ α) (j : Journal) :
    Nat → Service σ ε ρ α × Journal
  | 0 => (s, j)
  | n + 1 =>
    let (s, j) := takes duty now s j n
    s.deliver duty (now n) j

/-- A worker that has stopped takes nothing more. -/
theorem takes_stopped {s : Service σ ε ρ α} {n : Nat}
    (stopped : (s.takes duty now j n).1.isOpen = false) {k : Nat} (later : n ≤ k) :
    s.takes duty now j k = s.takes duty now j n := by
  induction later with
  | refl => rfl
  | @step k later ih =>
    rw [takes, ih]
    exact deliver_closed stopped

/-- A worker with nothing to take waits. -/
theorem takes_idle {s : Service σ ε ρ α} {n : Nat} (empty : (s.takes duty now j n).1.queue = [])
    {k : Nat} (later : n ≤ k) : s.takes duty now j k = s.takes duty now j n := by
  induction later with
  | refl => rfl
  | @step k later ih =>
    rw [takes, ih]
    exact deliver_nil duty (now k) _ empty

/-- The worker has taken messages, none was refused, and it had to go on after each but the last:
what it owns afterwards, the journal, and its answers with the numbers of their cells. -/
inductive Took (duty : Duty σ ε ρ α) (now : Nat → Instant) (state : σ) (j : Journal) :
    List (Message ε ρ) → σ → Journal → List (Nat × α) → Prop
  | start : Took duty now state j [] state j []
  | event {seen : List (Message ε ρ)} {s : σ} {k : Journal} {answers : List (Nat × α)} (e : ε)
      (before : Took duty now state j seen s k answers) (short : ¬ Enough seen)
      (fine : (duty.onEvent s k e).2 = none) :
      Took duty now state j (seen ++ [.event e]) (duty.onEvent s k e).1.1 (duty.onEvent s k e).1.2
        answers
  | request {seen : List (Message ε ρ)} {s : σ} {k : Journal} {answers : List (Nat × α)} (r : ρ)
      (ticket : Nat) (before : Took duty now state j seen s k answers) (short : ¬ Enough seen) :
      Took duty now state j (seen ++ [.request r ticket]) (duty.onRequest (now seen.length) s r).1 k
        (answers ++ [(ticket, (duty.onRequest (now seen.length) s r).2)])
  | terminate {seen : List (Message ε ρ)} {s : σ} {k : Journal} {answers : List (Nat × α)} (n : Nat)
      (before : Took duty now state j seen s k answers) (short : ¬ Enough seen)
      (first : seen.filterMap expected? = []) :
      Took duty now state j (seen ++ [.terminate n]) s k answers

/-- The worker refuses a message behind `seen`: what it owns and the journal afterwards, before
the report, and the text of the report. -/
inductive Refused (duty : Duty σ ε ρ α) (seen : List (Message ε ρ)) (s : σ) (k : Journal) :
    Message ε ρ → σ → Journal → String → Prop
  | event (e : ε) {text : String} (failed : (duty.onEvent s k e).2 = some text) :
      Refused duty seen s k (.event e) (duty.onEvent s k e).1.1 (duty.onEvent s k e).1.2 text
  | terminate {first : Nat} (n : Nat) (told : (seen.filterMap expected?).head? = some first) :
      Refused duty seen s k (.terminate n) s k (Worker.secondTermination first n)

variable {seen : List (Message ε ρ)} {s : σ} {k : Journal} {answers : List (Nat × α)}

theorem Took.continued (took : Took duty now state j seen s k answers) : Continued seen := by
  induction took with
  | start => exact continued_nil
  | event e before short fine ih => exact ih.concat short (.event e) (.inl rfl)
  | request r ticket before short ih => exact ih.concat short (.request r ticket) (.inl rfl)
  | terminate n before short first ih => exact ih.concat short (.terminate n) (.inr first)

/-- The worker answers each request once. -/
theorem Took.tickets (took : Took duty now state j seen s k answers) :
    answers.map Prod.fst = seen.filterMap ticket? := by
  induction took with
  | start => rfl
  | event e before short fine ih => simp [ih, ticket?]
  | request r ticket before short ih => simp [ih, ticket?]
  | terminate n before short first ih => simp [ih, ticket?]

/-- The worker settles by what it has seen. -/
theorem settle_told (told : Continued seen) (s : σ) :
    (Worker.settle ⟨s, (seen.filterMap event?).length, (seen.filterMap expected?).head?, .running⟩ :
      Worker σ) =
      ⟨s, (seen.filterMap event?).length, (seen.filterMap expected?).head?,
        if Enough seen then .complete else .running⟩ := by
  have drained : (⟨s, (seen.filterMap event?).length, (seen.filterMap expected?).head?, .running⟩ :
      Worker σ).drained = true ↔ Enough seen := by
    rw [enough_iff told.single]
    unfold Worker.drained
    cases (seen.filterMap expected?).head? <;> simp
  unfold Worker.settle
  by_cases enough : Enough seen
  · rw [if_pos (drained.mpr enough), if_pos enough]
  · rw [if_neg (mt drained.mp enough), if_neg enough]

/-- The service once the worker has taken `seen` and `later` is still ahead. -/
structure Underway (cells : List (Cell α)) (seen later : List (Message ε ρ)) (s : σ)
    (answers : List (Nat × α)) (t : Service σ ε ρ α) : Prop where
  worker : t.worker = ⟨s, (seen.filterMap event?).length, (seen.filterMap expected?).head?,
    if Enough seen then .complete else .running⟩
  queue : t.queue = if Enough seen then [] else later
  cells : t.cells =
    if Enough seen then abandon (Cell.resolveAll cells answers) later
    else Cell.resolveAll cells answers

theorem Underway.isOpen {cells : List (Cell α)} {later : List (Message ε ρ)} {t : Service σ ε ρ α}
    (underway : Underway cells seen later s answers t) (short : ¬ Enough seen) :
    t.isOpen = true := by
  rw [isOpen_iff, underway.worker, if_neg short]

/-- All that a delivery does. -/
theorem deliver_received {t : Service σ ε ρ α} {clock : Instant} {m : Message ε ρ}
    {rest : List (Message ε ρ)} {w : Worker σ} {after : Journal} {given : Option (Nat × α)}
    (running : t.isOpen = true) (oldest : t.queue = m :: rest)
    (received : t.worker.receive duty clock k m = (w, after, given)) :
    t.deliver duty clock k =
      ({ t with
        worker := w
        queue := if w.phase = .running then rest else []
        cells :=
          if w.phase = .running then Cell.resolveAll t.cells given.toList
          else abandon (Cell.resolveAll t.cells given.toList) rest }, after) := by
  simp only [Service.deliver, running, oldest, received]
  cases given <;> split <;> rfl

/-- The worker takes one message more. -/
theorem Underway.deliver {cells : List (Cell α)} {m : Message ε ρ} {later : List (Message ε ρ)}
    {t : Service σ ε ρ α} (underway : Underway cells seen (m :: later) s answers t)
    (short : ¬ Enough seen) (told : Continued (seen ++ [m])) {s' : σ} {after : Journal}
    (given : Option (Nat × α)) {clock : Instant}
    (received : Worker.receive duty clock ⟨s, (seen.filterMap event?).length,
      (seen.filterMap expected?).head?, .running⟩ k m =
        (Worker.settle ⟨s', ((seen ++ [m]).filterMap event?).length,
          ((seen ++ [m]).filterMap expected?).head?, .running⟩, after, given)) :
    Underway cells (seen ++ [m]) later s' (answers ++ given.toList) (t.deliver duty clock k).1 ∧
      (t.deliver duty clock k).2 = after := by
  have worker := underway.worker
  have queue := underway.queue
  have held := underway.cells
  rw [if_neg short] at worker queue held
  rw [settle_told told, ← worker] at received
  rw [deliver_received (underway.isOpen short) queue received]
  have resolved : Cell.resolveAll cells (answers ++ given.toList) =
      Cell.resolveAll t.cells given.toList := by
    rw [held, Cell.resolveAll, List.foldl_append]
    rfl
  by_cases enough : Enough (seen ++ [m])
  · exact ⟨⟨rfl, by simp [enough], by simp [enough, resolved]⟩, rfl⟩
  · exact ⟨⟨rfl, by simp [enough], by simp [enough, resolved]⟩, rfl⟩

/-- The worker takes the message that comes next in the queue. -/
theorem Underway.next {cells : List (Cell α)} {m : Message ε ρ} {later : List (Message ε ρ)}
    (underway : Underway cells seen (m :: later) s answers
        ((loaded state (seen ++ m :: later) cells).takes duty now j seen.length).1 ∧
      ((loaded state (seen ++ m :: later) cells).takes duty now j seen.length).2 = k)
    (short : ¬ Enough seen) (told : Continued (seen ++ [m])) {s' : σ} {after : Journal}
    (given : Option (Nat × α))
    (received : Worker.receive duty (now seen.length) ⟨s, (seen.filterMap event?).length,
      (seen.filterMap expected?).head?, .running⟩ k m =
        (Worker.settle ⟨s', ((seen ++ [m]).filterMap event?).length,
          ((seen ++ [m]).filterMap expected?).head?, .running⟩, after, given)) :
    Underway cells (seen ++ [m]) later s' (answers ++ given.toList)
        ((loaded state (seen ++ [m] ++ later) cells).takes duty now j (seen ++ [m]).length).1 ∧
      ((loaded state (seen ++ [m] ++ later) cells).takes duty now j (seen ++ [m]).length).2 =
        after := by
  obtain ⟨underway, journal⟩ := underway
  rw [List.append_assoc, List.length_append, List.length_singleton, List.singleton_append, takes]
  dsimp only
  rw [journal]
  exact underway.deliver short told given received

/-- What the worker and its service are after the messages that it took. -/
theorem Took.underway (took : Took duty now state j seen s k answers) (cells : List (Cell α))
    (later : List (Message ε ρ)) :
    Underway cells seen later s answers
        ((loaded state (seen ++ later) cells).takes duty now j seen.length).1 ∧
      ((loaded state (seen ++ later) cells).takes duty now j seen.length).2 = k := by
  induction took generalizing later with
  | start => exact ⟨⟨rfl, rfl, rfl⟩, rfl⟩
  | @event seen s k answers e before short fine ih =>
    have told := before.continued.concat short (.event e) (.inl rfl)
    rw [← List.append_nil answers]
    refine Underway.next (ih (.event e :: later)) short told none ?_
    simp [Worker.receive, fine, event?, expected?, List.filterMap_cons]
  | @request seen s k answers r ticket before short ih =>
    have told := before.continued.concat short (.request r ticket) (.inl rfl)
    refine Underway.next (ih (.request r ticket :: later)) short told (some _) ?_
    simp [Worker.receive, event?, expected?, List.filterMap_cons]
  | @terminate seen s k answers n before short first ih =>
    have told := before.continued.concat short (.terminate n) (.inr first)
    rw [← List.append_nil answers]
    refine Underway.next (ih (.terminate n :: later)) short told none ?_
    simp [Worker.receive, event?, expected?, first, List.filterMap_cons]

/-- What the worker and its service are after a message that is refused. -/
theorem Refused.fails {m : Message ε ρ} {s' : σ} {after : Journal} {text : String}
    (refused : Refused duty seen s k m s' after text)
    (took : Took duty now state j seen s k answers) (short : ¬ Enough seen)
    (cells : List (Cell α)) (later : List (Message ε ρ)) :
    let failed := (loaded state (seen ++ m :: later) cells).takes duty now j (seen.length + 1)
    failed.1.worker.state = s' ∧ failed.1.worker.phase = .failed ∧
      failed.2 = after.report duty.name text ∧
      failed.1.cells = abandon (Cell.resolveAll cells answers) later := by
  obtain ⟨underway, journal⟩ := took.underway cells (m :: later)
  have worker := underway.worker
  have queue := underway.queue
  have held := underway.cells
  rw [if_neg short] at worker queue held
  dsimp only [takes]
  rw [journal]
  have received : ∃ w : Worker σ, w.state = s' ∧ w.phase = .failed ∧
      Worker.receive duty (now seen.length) ⟨s, (seen.filterMap event?).length,
        (seen.filterMap expected?).head?, .running⟩ k m =
          (w, after.report duty.name text, none) := by
    cases refused with
    | event e failed => exact ⟨_, rfl, rfl, by simp [Worker.receive, failed, Worker.fail]; rfl⟩
    | terminate n told => exact ⟨_, rfl, rfl, by simp [Worker.receive, told, Worker.fail]; rfl⟩
  obtain ⟨w, state, phase, received⟩ := received
  rw [← worker] at received
  rw [deliver_received (underway.isOpen short) queue received]
  simp [state, phase, held, Cell.resolveAll]

/-- How far the worker gets with a queue. -/
inductive Fate (duty : Duty σ ε ρ α) (now : Nat → Instant) (state : σ) (j : Journal)
    (messages : List (Message ε ρ)) : Prop
  /-- It has taken all messages and waits for more. -/
  | waits {s : σ} {k : Journal} {answers : List (Nat × α)}
      (took : Took duty now state j messages s k answers) (short : ¬ Enough messages)
  /-- It has seen enough after `n` messages. -/
  | completes {n : Nat} {s : σ} {k : Journal} {answers : List (Nat × α)}
      (inside : n ≤ messages.length)
      (took : Took duty now state j (messages.take n) s k answers)
      (enough : Enough (messages.take n))
  /-- It refuses the message behind the first `n`. -/
  | fails {n : Nat} {m : Message ε ρ} {s s' : σ} {k after : Journal} {answers : List (Nat × α)}
      {text : String} (place : messages[n]? = some m)
      (took : Took duty now state j (messages.take n) s k answers)
      (short : ¬ Enough (messages.take n))
      (refused : Refused duty (messages.take n) s k m s' after text)

theorem Took.fate (took : Took duty now state j seen s k answers) :
    Fate duty now state j seen :=
  if enough : Enough seen then
    .completes (Nat.le_refl _) (by rwa [List.take_length]) (by rwa [List.take_length])
  else .waits took enough

theorem Refused.fate {m : Message ε ρ} {s' : σ} {after : Journal} {text : String}
    (refused : Refused duty seen s k m s' after text)
    (took : Took duty now state j seen s k answers) (short : ¬ Enough seen) :
    Fate duty now state j (seen ++ [m]) :=
  .fails (n := seen.length) (m := m) (by simp) (by rwa [List.take_left]) (by rwa [List.take_left])
    (by rwa [List.take_left])

theorem fate (duty : Duty σ ε ρ α) (now : Nat → Instant) (state : σ) (j : Journal)
    (messages : List (Message ε ρ)) : Fate duty now state j messages := by
  induction messages using List.reverseRecOn with
  | nil => exact Took.start.fate
  | append_singleton messages m ih =>
    cases ih with
    | waits took short =>
      cases m with
      | event e =>
        cases failed : (duty.onEvent _ _ e).2 with
        | some text => exact Refused.fate (.event e failed) took short
        | none => exact (took.event e short failed).fate
      | request r ticket => exact (took.request r ticket short).fate
      | terminate n =>
        cases told : (messages.filterMap expected?).head? with
        | some first => exact Refused.fate (.terminate n told) took short
        | none => exact (took.terminate n short (List.head?_eq_none_iff.mp told)).fate
    | completes inside took enough =>
      have same : (messages ++ [m]).take _ = messages.take _ := List.take_append_of_le_length inside
      rw [← same] at took enough
      exact .completes (by simp; omega) took enough
    | fails place took short refused =>
      obtain ⟨inside, -⟩ := List.getElem?_eq_some_iff.mp place
      have same : (messages ++ [m]).take _ = messages.take _ :=
        List.take_append_of_le_length (Nat.le_of_lt inside)
      rw [← same] at took short refused
      exact .fails (by rwa [List.getElem?_append_left inside]) took short refused

/-- The worker took what came first, and gave answers, before it took the rest. -/
theorem Took.take (took : Took duty now state j seen s k answers) (n : Nat) :
    ∃ s₀ k₀ answers₀, Took duty now state j (seen.take n) s₀ k₀ answers₀ ∧
      answers₀ <+: answers := by
  rcases Nat.lt_or_ge n seen.length with inside | whole
  · have step : ∀ {seen : List (Message ε ρ)} {s k answers} {m : Message ε ρ},
        Took duty now state j seen s k answers →
        (n < seen.length → ∃ s₀ k₀ answers₀, Took duty now state j (seen.take n) s₀ k₀ answers₀ ∧
          answers₀ <+: answers) → n < (seen ++ [m]).length →
        ∃ s₀ k₀ answers₀, Took duty now state j ((seen ++ [m]).take n) s₀ k₀ answers₀ ∧
          answers₀ <+: answers := by
      intro seen s k answers m before ih inside
      rw [List.length_append, List.length_singleton] at inside
      rw [List.take_append_of_le_length (by omega)]
      rcases Nat.lt_or_ge n seen.length with earlier | last
      · exact ih earlier
      · rw [List.take_of_length_le last]
        exact ⟨s, k, answers, before, List.prefix_rfl⟩
    induction took with
    | start => exact absurd inside (Nat.not_lt_zero n)
    | event e before short fine ih => exact step before ih inside
    | terminate e before short first ih => exact step before ih inside
    | request r ticket before short ih =>
      obtain ⟨s₀, k₀, answers₀, took, first⟩ := step before ih inside
      exact ⟨s₀, k₀, answers₀, took, first.trans (List.prefix_append _ _)⟩
  · rw [List.take_of_length_le whole]
    exact ⟨s, k, answers, took, List.prefix_rfl⟩

/-- The last answer goes to the last request. -/
theorem Took.last_request {r : ρ} {ticket : Nat}
    (took : Took duty now state j (seen ++ [.request r ticket]) s k answers) :
    ∃ s₀ k₀ answers₀, Took duty now state j seen s₀ k₀ answers₀ ∧
      (ticket, (duty.onRequest (now seen.length) s₀ r).2) ∈ answers := by
  generalize whole : seen ++ [.request r ticket] = all at took
  cases took with
  | start => simp at whole
  | event e before short fine => simp at whole
  | terminate n before short first => simp at whole
  | @request seen' s₀ k₀ answers₀ r' ticket' before short =>
    obtain ⟨rfl, same⟩ := List.append_inj' whole rfl
    cases same
    exact ⟨s₀, _, answers₀, before, by simp⟩

/-- Each request is answered by what the worker owned when it took the request. -/
theorem Took.answered (took : Took duty now state j seen s k answers) {i ticket : Nat} {r : ρ}
    (asked : seen[i]? = some (.request r ticket)) :
    ∃ s₀ k₀ answers₀, Took duty now state j (seen.take i) s₀ k₀ answers₀ ∧
      (ticket, (duty.onRequest (now i) s₀ r).2) ∈ answers := by
  obtain ⟨s₁, k₁, answers₁, upTo, first⟩ := took.take (i + 1)
  obtain ⟨inside, -⟩ := List.getElem?_eq_some_iff.mp asked
  rw [List.take_add_one, asked] at upTo
  obtain ⟨s₀, k₀, answers₀, before, given⟩ := upTo.last_request
  rw [List.length_take_of_le (Nat.le_of_lt inside)] at given
  exact ⟨s₀, k₀, answers₀, before, first.subset given⟩

/-- The cells, which were `cells` at first, hold the answers to those requests that are among the
first `n` messages, each by what the worker owned before it. -/
structure Answered (duty : Duty σ ε ρ α) (now : Nat → Instant) (state : σ) (j : Journal)
    (messages : List (Message ε ρ)) (cells : List (Cell α)) (n : Nat) (after : List (Cell α)) :
    Prop where
  before : ∀ i < n, ∀ r ticket, messages[i]? = some (.request r ticket) →
    ∃ s k answers, Took duty now state j (messages.take i) s k answers ∧
      Cell.valueAt after ticket = Cell.arriving cells ticket (duty.onRequest (now i) s r).2
  behind : ∀ i, n ≤ i → ∀ r ticket, messages[i]? = some (.request r ticket) →
    Cell.valueAt after ticket = none

theorem Answered.congr {messages : List (Message ε ρ)} {n : Nat}
    {cells after after' : List (Cell α)} (answered : Answered duty now state j messages cells n after)
    (same : Cell.valueAt after' = Cell.valueAt after) :
    Answered duty now state j messages cells n after' :=
  ⟨by rw [same]; exact answered.before, by rw [same]; exact answered.behind⟩

/-- The worker has answered what it has taken, and nothing else. -/
theorem Took.answers_given {messages : List (Message ε ρ)} {n : Nat} {cells : List (Cell α)}
    (took : Took duty now state j (messages.take n) s k answers)
    (ticketed : Ticketed messages cells) :
    Answered duty now state j messages cells n (Cell.resolveAll cells answers) := by
  have distinct : (answers.map Prod.fst ++ (messages.drop n).filterMap ticket?).Nodup := by
    rw [took.tickets, ← List.filterMap_append, List.take_append_drop]
    exact ticketed.distinct
  have unused : ∀ {i ticket} {r : ρ}, messages[i]? = some (Message.request r ticket) →
      ∃ pending, cells[ticket]? = some ⟨none, true, pending⟩ := fun asked =>
    ticketed.unused _ (List.mem_filterMap.mpr ⟨_, List.mem_of_getElem? asked, rfl⟩)
  obtain ⟨once, -, apart⟩ := List.nodup_append.mp distinct
  constructor
  · intro i inside r ticket asked
    have taken : (messages.take n)[i]? = some (.request r ticket) := by
      rw [List.getElem?_take_of_lt inside, asked]
    obtain ⟨s₀, k₀, answers₀, before, given⟩ := took.answered taken
    rw [List.take_take, Nat.min_eq_left (Nat.le_of_lt inside)] at before
    obtain ⟨pending, unused⟩ := unused asked
    exact ⟨s₀, k₀, answers₀, before, Cell.valueAt_resolveAll once unused given⟩
  · intro i later r ticket asked
    have ahead : ticket ∈ (messages.drop n).filterMap ticket? := by
      have place : (messages.drop n)[i - n]? = some (.request r ticket) := by
        rw [List.getElem?_drop, Nat.add_sub_cancel' later, asked]
      exact List.mem_filterMap.mpr ⟨_, List.mem_of_getElem? place, rfl⟩
    have other : ticket ∉ answers.map Prod.fst := fun member => apart ticket member ticket ahead rfl
    obtain ⟨pending, unused⟩ := unused asked
    rw [Cell.valueAt, Cell.resolveAll_other cells other, unused]
    rfl

variable {messages : List (Message ε ρ)} {n : Nat} {cells : List (Cell α)}

/-- What is to be seen of the service once the worker has taken `n` messages. -/
theorem Took.shows (took : Took duty now state j (messages.take n) s k answers)
    (inside : n ≤ messages.length) (ticketed : Ticketed messages cells) :
    let t := (loaded state messages cells).takes duty now j n
    t.1.worker.state = s ∧
      t.1.worker.phase = (if Enough (messages.take n) then .complete else .running) ∧ t.2 = k ∧
        Answered duty now state j messages cells n t.1.cells := by
  obtain ⟨underway, journal⟩ := took.underway cells (messages.drop n)
  rw [List.take_append_drop, List.length_take_of_le inside] at underway journal
  refine ⟨by rw [underway.worker], by rw [underway.worker], journal,
    (took.answers_given ticketed).congr ?_⟩
  rw [underway.cells]
  split
  · exact abandon_values _ _
  · rfl

/-- Nothing happens once the worker has taken all messages or has seen enough. -/
theorem Took.rests (took : Took duty now state j (messages.take n) s k answers)
    (inside : n ≤ messages.length) (ended : n = messages.length ∨ Enough (messages.take n))
    {i : Nat} (later : n ≤ i) :
    (loaded state messages cells).takes duty now j i =
      (loaded state messages cells).takes duty now j n := by
  obtain ⟨underway, -⟩ := took.underway cells (messages.drop n)
  rw [List.take_append_drop, List.length_take_of_le inside] at underway
  by_cases enough : Enough (messages.take n)
  · refine takes_stopped ?_ later
    rw [isOpen, underway.worker, if_pos enough]
    rfl
  · refine takes_idle ?_ later
    rw [underway.queue, if_neg enough, ended.resolve_right enough, List.drop_length]

/-- What is to be seen of the service once the worker has refused a message. -/
theorem Refused.shows {m : Message ε ρ} {s' : σ} {after : Journal} {text : String}
    (refused : Refused duty (messages.take n) s k m s' after text)
    (took : Took duty now state j (messages.take n) s k answers) (short : ¬ Enough (messages.take n))
    (place : messages[n]? = some m) (ticketed : Ticketed messages cells) :
    ∀ i > n, let t := (loaded state messages cells).takes duty now j i
      t.1.worker.state = s' ∧ t.1.worker.phase = .failed ∧ t.2 = after.report duty.name text ∧
        Answered duty now state j messages cells n t.1.cells := by
  intro i later
  obtain ⟨inside, here⟩ := List.getElem?_eq_some_iff.mp place
  have whole : messages.take n ++ m :: messages.drop (n + 1) = messages := by
    rw [← here, ← List.drop_eq_getElem_cons inside, List.take_append_drop]
  obtain ⟨owned, phase, journal, values⟩ := refused.fails took short cells (messages.drop (n + 1))
  rw [whole, List.length_take_of_le (Nat.le_of_lt inside)] at owned phase journal values
  rw [takes_stopped (by rw [isOpen, phase]; rfl) later]
  refine ⟨owned, phase, journal, (took.answers_given ticketed).congr ?_⟩
  rw [values]
  exact abandon_values _ _

/-- The worker takes the first `n` messages of a queue.  Then it does nothing more, because there
are no others or because it has seen enough, or it refuses the next one. -/
theorem course (duty : Duty σ ε ρ α) (now : Nat → Instant) (state : σ) (j : Journal)
    (messages : List (Message ε ρ)) (cells : List (Cell α)) :
    let after := (loaded state messages cells).takes duty now j
    ∃ n ≤ messages.length,
      (∀ i ≤ n, ∃ s k answers, Took duty now state j (messages.take i) s k answers) ∧
      (((n = messages.length ∨ Enough (messages.take n)) ∧ ∀ i ≥ n, after i = after n) ∨
        (¬ Enough (messages.take n) ∧
          ∃ m s k answers s' k' text, messages[n]? = some m ∧
            Took duty now state j (messages.take n) s k answers ∧
            Refused duty (messages.take n) s k m s' k' text)) := by
  intro after
  have upTo : ∀ {n s k answers}, Took duty now state j (messages.take n) s k answers →
      ∀ i ≤ n, ∃ s k answers, Took duty now state j (messages.take i) s k answers := by
    intro n s k answers took i first
    obtain ⟨s₀, k₀, answers₀, took, -⟩ := took.take i
    rw [List.take_take, Nat.min_eq_left first] at took
    exact ⟨s₀, k₀, answers₀, took⟩
  cases fate duty now state j messages with
  | waits took short =>
    rw [← List.take_length (l := messages)] at took
    exact ⟨messages.length, Nat.le_refl _, upTo took,
      .inl ⟨.inl rfl, fun _ later => took.rests (Nat.le_refl _) (.inl rfl) later⟩⟩
  | completes inside took enough =>
    exact ⟨_, inside, upTo took,
      .inl ⟨.inr enough, fun _ later => took.rests inside (.inr enough) later⟩⟩
  | fails place took short refused =>
    exact ⟨_, Nat.le_of_lt (List.getElem?_eq_some_iff.mp place).1, upTo took,
      .inr ⟨short, _, _, _, _, _, _, _, place, took, refused⟩⟩

end Service

end PacedLoad
