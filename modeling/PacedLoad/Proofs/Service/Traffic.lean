import PacedLoad.Proofs.Service.Queue

/-!
# Calls in steps

A client that submits an event looks whether the service refuses new work, counts
the event and sends it; a client that stops the service refuses new work, looks at
the count and sends the last message.  Here each of these is a move of its own, and
any number of clients make their moves in any order.  Made in one go they are the
calls of `Service`.
-/

namespace PacedLoad

/-- How far a client has come with an event. -/
inductive Passage
  /-- Looks whether the service refuses new work. -/
  | asking
  /-- Counts the event. -/
  | counting
  /-- Sends the event. -/
  | sending
  | sent
  /-- The service refused new work, or its worker had stopped. -/
  | refused
deriving DecidableEq, Repr

structure Submission (ε : Type) where
  event : ε
  passage : Passage
deriving Repr

/-- How far the client has come that stops the service. -/
inductive Closing
  | up
  /-- New work is refused. -/
  | refusing
  /-- The count has been looked at, when the submissions `early` were counted. -/
  | informed (expected : Nat) (early : List Nat)
  /-- The last message was sent, after the submissions `before`. -/
  | told (expected : Nat) (early before : List Nat)
  /-- The worker had stopped. -/
  | gone
deriving DecidableEq, Repr

/-- A service and what its clients are about to do to it.  Submissions go by number. -/
structure Traffic (σ ε ρ α : Type) where
  service : Service σ ε ρ α
  journal : Journal
  submissions : List (Submission ε)
  /-- The submissions that were counted, in that order. -/
  counted : List Nat
  /-- The submissions that were sent, in that order, with their events. -/
  sent : List (Nat × ε)
  closing : Closing

inductive Traffic.Move (ε ρ : Type)
  /-- A client comes with an event; a `guarded` one is not taken while new work is refused. -/
  | arrive (e : ε) (guarded : Bool)
  | look (i : Nat)
  | count (i : Nat)
  | send (i : Nat)
  /-- A client stops the service, unless another one does already. -/
  | refuse
  | read
  | tell
  | ask (r : ρ)
  | deliver (now : Instant)

namespace Traffic

variable {σ ε ρ α : Type}

def start (state : σ) (journal : Journal) : Traffic σ ε ρ α :=
  ⟨.start state, journal, [], [], [], .up⟩

def pass (t : Traffic σ ε ρ α) (i : Nat) (passage : Passage) : Traffic σ ε ρ α :=
  { t with submissions := t.submissions.modify i fun s => { s with passage } }

def processed (t : Traffic σ ε ρ α) : List Nat :=
  (t.sent.take t.service.worker.processed).map Prod.fst

/-- The traffic after a move, if it is possible. -/
def move (duty : Duty σ ε ρ α) (t : Traffic σ ε ρ α) : Move ε ρ → Option (Traffic σ ε ρ α)
  | .arrive e guarded =>
    some { t with
      submissions := t.submissions ++ [⟨e, if guarded then .asking else .counting⟩] }
  | .look i =>
    match t.submissions[i]? with
    | some ⟨_, .asking⟩ => some (t.pass i (if t.service.shuttingDown then .refused else .counting))
    | _ => none
  | .count i =>
    match t.submissions[i]? with
    | some ⟨_, .counting⟩ =>
      some { t.pass i .sending with service := t.service.count, counted := t.counted ++ [i] }
    | _ => none
  | .send i =>
    match t.submissions[i]? with
    | some ⟨e, .sending⟩ =>
      match t.service.send t.journal (.event e) with
      | (service, .ok ()) => some { t.pass i .sent with service, sent := t.sent ++ [(i, e)] }
      | (service, .error _) => some { t.pass i .refused with service }
    | _ => none
  | .refuse =>
    match t.service.refuse with
    | (true, service) => some { t with service }
    | (false, service) => some { t with service, closing := .refusing }
  | .read =>
    match t.closing with
    | .refusing => some { t with closing := .informed t.service.counted t.counted }
    | _ => none
  | .tell =>
    match t.closing with
    | .informed expected early =>
      match t.service.send t.journal (.terminate expected) with
      | (service, .ok ()) =>
        some { t with service, closing := .told expected early (t.sent.map Prod.fst) }
      | (service, .error _) => some { t with service, closing := .gone }
    | _ => none
  | .ask r => some { t with service := (t.service.ask t.journal r).1 }
  | .deliver now =>
    let (service, journal) := t.service.deliver duty now t.journal
    some { t with service, journal }

def moves (duty : Duty σ ε ρ α) (t : Traffic σ ε ρ α) : List (Move ε ρ) → Option (Traffic σ ε ρ α)
  | [] => some t
  | m :: rest => (t.move duty m).bind fun u => u.moves duty rest

variable {duty : Duty σ ε ρ α} {t u : Traffic σ ε ρ α}

/-! ## Calls in one go -/

/-- A submission that is not refused, made in one go. -/
theorem moves_count_send (duty : Duty σ ε ρ α) {i : Nat} {e : ε}
    (here : t.submissions[i]? = some ⟨e, .counting⟩) :
    ∃ u, t.moves duty [.count i, .send i] = some u ∧
      u.service = (t.service.submit t.journal e).1 := by
  have next : (t.pass i .sending).submissions[i]? = some ⟨e, .sending⟩ := by
    simp [pass, here]
  simp only [moves, move, here, Option.bind_some]
  simp only [pass] at next
  simp only [pass, next, Service.submit]
  cases t.service.count.send t.journal (.event e) with
  | mk service r => cases r <;> exact ⟨_, rfl, rfl⟩

/-- A submission without a look at the service. -/
theorem moves_submit (duty : Duty σ ε ρ α) (t : Traffic σ ε ρ α) (e : ε) :
    ∃ u, t.moves duty [.arrive e false, .count t.submissions.length, .send t.submissions.length] =
      some u ∧ u.service = (t.service.submit t.journal e).1 :=
  moves_count_send (t := { t with submissions := t.submissions ++ [⟨e, .counting⟩] }) duty (by simp)

/-- A submission that the service may refuse. -/
theorem moves_submitWhileUp (duty : Duty σ ε ρ α) (t : Traffic σ ε ρ α) (e : ε) :
    ∃ moves u, t.moves duty
        (.arrive e true :: .look t.submissions.length :: moves) = some u ∧
      u.service = (t.service.submitWhileUp t.journal e).1 := by
  let n := t.submissions.length
  simp only [moves, move, Option.bind_some, List.getElem?_concat_length, if_true,
    Service.submitWhileUp]
  cases t.service.shuttingDown with
  | true => exact ⟨[], _, rfl, rfl⟩
  | false =>
    let asked : Traffic σ ε ρ α := { t with submissions := t.submissions ++ [⟨e, .asking⟩] }
    obtain ⟨u, moved, after⟩ := moves_count_send (t := asked.pass n .counting) (i := n) (e := e)
      duty (by simp [asked, pass, n])
    exact ⟨[.count n, .send n], u, moved, after⟩

/-- The call that stops a service. -/
theorem moves_terminate (duty : Duty σ ε ρ α) (t : Traffic σ ε ρ α)
    (up : t.service.shuttingDown = false) :
    ∃ u, t.moves duty [.refuse, .read, .tell] = some u ∧
      u.service = (t.service.refuse.2.terminate t.journal).1 := by
  simp only [moves, move, Service.refuse, up, Option.bind_some, Service.terminate]
  cases ({ t.service with shuttingDown := true } : Service σ ε ρ α).send t.journal
      (.terminate t.service.counted) with
  | mk service r => cases r <;> exact ⟨_, rfl, rfl⟩

/-! ## What a move can do -/

inductive Step (duty : Duty σ ε ρ α) (t : Traffic σ ε ρ α) : Traffic σ ε ρ α → Prop
  /-- New work is refused already. -/
  | still : Step duty t t
  | arrive {s : Submission ε} (early : s.passage = .asking ∨ s.passage = .counting) :
      Step duty t { t with submissions := t.submissions ++ [s] }
  | letIn {i : Nat} {e : ε} (found : t.submissions[i]? = some ⟨e, .asking⟩) :
      Step duty t (t.pass i .counting)
  | turnAway {i : Nat} {s : Submission ε} (found : t.submissions[i]? = some s)
      (unsent : s.passage ≠ .sent) : Step duty t (t.pass i .refused)
  | count {i : Nat} {e : ε} (found : t.submissions[i]? = some ⟨e, .counting⟩) :
      Step duty t
        { t.pass i .sending with service := t.service.count, counted := t.counted ++ [i] }
  | send {i : Nat} {e : ε} (found : t.submissions[i]? = some ⟨e, .sending⟩)
      (running : t.service.isOpen = true) :
      Step duty t { t.pass i .sent with
        service := { t.service with queue := t.service.queue ++ [.event e] }
        sent := t.sent ++ [(i, e)] }
  | refuse (up : t.service.shuttingDown = false) :
      Step duty t
        { t with service := { t.service with shuttingDown := true }, closing := .refusing }
  | read (here : t.closing = .refusing) :
      Step duty t { t with closing := .informed t.service.counted t.counted }
  | tell {expected : Nat} {early : List Nat} (here : t.closing = .informed expected early)
      (running : t.service.isOpen = true) :
      Step duty t { t with
        service := { t.service with queue := t.service.queue ++ [.terminate expected] }
        closing := .told expected early (t.sent.map Prod.fst) }
  /-- The last message can not be sent. -/
  | unheard {expected : Nat} {early : List Nat} (here : t.closing = .informed expected early) :
      Step duty t { t with closing := .gone }
  | ask {messages : List (Message ε ρ)} {cells : List (Cell α)}
      (requests : ∀ m ∈ messages, m.event? = none ∧ m.expected? = none) :
      Step duty t { t with
        service := { t.service with queue := t.service.queue ++ messages, cells := cells } }
  | deliver {now : Instant} {journal : Journal} :
      Step duty t { t with service := (t.service.deliver duty now t.journal).1, journal := journal }

/-- Every move is one of these. -/
theorem move_step {m : Move ε ρ} (moved : t.move duty m = some u) : Step duty t u := by
  cases m with
  | arrive e guarded =>
    cases moved
    exact .arrive (by cases guarded <;> simp)
  | look i =>
    simp only [move] at moved
    split at moved
    next e found =>
      cases moved
      cases t.service.shuttingDown with
      | true => exact .turnAway found (by simp)
      | false => exact .letIn found
    next => cases moved
  | count i =>
    simp only [move] at moved
    split at moved
    next e found =>
      cases moved
      exact .count found
    next => cases moved
  | send i =>
    simp only [move] at moved
    split at moved
    next e found =>
      cases running : t.service.isOpen with
      | true =>
        rw [Service.send_of_open running] at moved
        cases moved
        exact .send found running
      | false =>
        rw [Service.send_of_closed running] at moved
        cases moved
        exact .turnAway found (by simp)
    next => cases moved
  | refuse =>
    simp only [move, Service.refuse] at moved
    cases refused : t.service.shuttingDown with
    | true =>
      rw [refused] at moved
      cases moved
      rw [← refused]
      exact .still
    | false =>
      rw [refused] at moved
      cases moved
      exact .refuse refused
  | read =>
    simp only [move] at moved
    split at moved
    next here =>
      cases moved
      exact .read here
    next => cases moved
  | tell =>
    simp only [move] at moved
    split at moved
    next expected early here =>
      cases running : t.service.isOpen with
      | true =>
        rw [Service.send_of_open running] at moved
        cases moved
        exact .tell here running
      | false =>
        rw [Service.send_of_closed running] at moved
        cases moved
        exact .unheard here
    next => cases moved
  | ask r =>
    cases moved
    cases running : t.service.isOpen with
    | true =>
      rw [Service.ask_of_open running]
      have requests : ∀ m ∈ [Message.request (ε := ε) r t.service.cells.length],
          m.event? = none ∧ m.expected? = none := by simp [Message.event?, Message.expected?]
      exact .ask requests
    | false =>
      rw [Service.ask_of_closed running, ← List.append_nil t.service.queue]
      exact .ask (by simp)
  | deliver now =>
    cases moved
    exact .deliver

end Traffic

end PacedLoad
