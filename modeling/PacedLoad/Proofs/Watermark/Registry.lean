import PacedLoad.Proofs.Service.Course
import PacedLoad.Proofs.Watermark.Service

/-!
# Clients that register writers

Any number of clients call to register a writer.  A call sends a request and polls
for the answer; it returns the number of its writer, or it gives up when its time is
over or when anybody has reported an error.  Meanwhile the worker takes messages,
writers announce, peers report and the service may be stopped.  Only the handle that
a call has returned announces for its writer.
-/

namespace PacedLoad.Watermark

def enrols? : Letter → Option Nat
  | .request .register ticket => some ticket
  | _ => none

def author? : Letter → Option Nat
  | .event (.initiated w _) => some w
  | .event (.completed w _) => some w
  | _ => none

structure Registration where
  /-- The number of the cell for the answer. -/
  ticket : Nat
  /-- What the call has returned, once it has. -/
  outcome : Option (Except ServiceError Nat)

/-- A service and the calls to register writers, in the order in which they were made. -/
structure Registry where
  service : Service
  journal : Journal
  calls : List Registration
  /-- The tickets of the registrations that the worker has processed, in that order. -/
  processed : List Nat

namespace Registry

inductive Move
  /-- A client calls to register a writer. -/
  | call
  /-- A call looks for its answer; `expired` when its time is over. -/
  | poll (i : Nat) (expired : Bool)
  /-- An error is reported elsewhere. -/
  | report (source message : String)
  /-- The handle that a call has returned announces a start time. -/
  | initiate (i : Nat) (time : Instant)
  /-- The handle that a call has returned completes a start time. -/
  | complete (i : Nat) (time : Instant)
  | external (peer : String) (time : Instant)
  | read
  | stop
  | deliver

def start (peers : List String) (patience : Patience) : Registry :=
  ⟨.start peers patience, .empty, [], []⟩

abbrev core (r : Registry) : PacedLoad.Service Coordinator Event Request Answer := r.service.core

abbrev state (r : Registry) : State := r.core.worker.state.state

def handle? (r : Registry) (i : Nat) : Option Nat :=
  (r.calls[i]?.bind Registration.outcome).bind Except.toOption

def next? (r : Registry) : Option Nat :=
  if r.core.isOpen then r.core.queue.head?.bind enrols? else none

def delivered (r : Registry) : Registry :=
  { r with
    service := (r.service.deliver r.journal).1
    journal := (r.service.deliver r.journal).2
    processed := r.processed ++ r.next?.toList }

/-- The registry after a move, if it is possible. -/
def move (r : Registry) : Move → Option Registry
  | .call =>
    let (service, asked) := r.service.ask r.journal .register
    let outcome : Option (Except ServiceError Nat) :=
      match asked with
      | .ok _ => none
      | .error e => some (.error e)
    some { r with service, calls := r.calls ++ [⟨r.core.cells.length, outcome⟩] }
  | .poll i expired =>
    match r.calls[i]? with
    | some ⟨ticket, none⟩ =>
      match r.service.pollRegistration r.journal expired ticket with
      | some (service, outcome) =>
        some { r with service, calls := r.calls.set i ⟨ticket, some outcome⟩ }
      | none => some r
    | _ => none
  | .report source message => some { r with journal := r.journal.report source message }
  | .initiate i time =>
    (r.handle? i).map fun w => { r with service := (r.service.submitInitiated r.journal w time).1 }
  | .complete i time =>
    (r.handle? i).map fun w => { r with service := (r.service.submitCompleted r.journal w time).1 }
  | .external peer time =>
    some { r with service := (r.service.submitExternal r.journal peer time).1 }
  | .read => some { r with service := (r.service.ask r.journal .read).1 }
  | .stop => some { r with service := (r.service.beginShutdown r.journal).1 }
  | .deliver => some r.delivered

def moves (r : Registry) : List Move → Option Registry
  | [] => some r
  | m :: rest => (r.move m).bind fun u => u.moves rest

/-- The registry with something sent or reported. -/
def post (r : Registry) (core : PacedLoad.Service Coordinator Event Request Answer)
    (journal : Journal) : Registry :=
  { r with service := { r.service with core }, journal }

inductive Step (r : Registry) : Registry → Prop
  /-- A client sends something that is no request, or nothing at all. -/
  | sends {core : PacedLoad.Service Coordinator Event Request Answer} {journal : Journal}
      (messages : List Letter) (plain : messages.filterMap Message.ticket? = [])
      (authors : ∀ m ∈ messages, ∀ w, author? m = some w → ∃ i, r.handle? i = some w)
      (worker : core.worker = r.core.worker) (queue : core.queue = r.core.queue ++ messages)
      (cells : core.cells = r.core.cells) : Step r (r.post core journal)
  /-- A client asks for the time. -/
  | asks {core : PacedLoad.Service Coordinator Event Request Answer} {journal : Journal}
      (messages : List Letter)
      (only : messages = [] ∨ messages = [.request .read r.core.cells.length])
      (worker : core.worker = r.core.worker) (queue : core.queue = r.core.queue ++ messages)
      (cells : core.cells = r.core.cells ++ [Cell.fresh]) : Step r (r.post core journal)
  | calls :
      Step r { r.post { r.core with
          queue := r.core.queue ++ [.request .register r.core.cells.length]
          cells := r.core.cells ++ [Cell.fresh] } r.journal with
        calls := r.calls ++ [⟨r.core.cells.length, none⟩] }
  /-- A call that reaches nobody. -/
  | fails {e : ServiceError} :
      Step r { r.post { r.core with cells := r.core.cells ++ [Cell.fresh] } r.journal with
        calls := r.calls ++ [⟨r.core.cells.length, some (.error e)⟩] }
  | returns {i ticket : Nat} {expired : Bool} {service : Service}
      {outcome : Except ServiceError Nat} (found : r.calls[i]? = some ⟨ticket, none⟩)
      (polled : r.service.pollRegistration r.journal expired ticket = some (service, outcome)) :
      Step r { r with service, calls := r.calls.set i ⟨ticket, some outcome⟩ }
  | delivers : Step r r.delivered

variable {r after : Registry}

/-- Nothing reaches the queue. -/
theorem step_rests (core : PacedLoad.Service Coordinator Event Request Answer) {journal : Journal}
    (worker : core.worker = r.core.worker) (queue : core.queue = r.core.queue)
    (cells : core.cells = r.core.cells) : Step r (r.post core journal) :=
  .sends [] rfl nofun worker (by rw [queue, List.append_nil]) cells

/-- An event is submitted. -/
theorem step_submit {e : Event} (journal : Journal)
    (author : ∀ w, author? (.event e) = some w → ∃ i, r.handle? i = some w) :
    Step r (r.post (r.core.submit journal e).1 r.journal) := by
  cases running : r.core.isOpen with
  | true =>
    rw [Service.submit_of_open running]
    refine .sends [.event e] rfl (fun m member => ?_) rfl rfl rfl
    rw [List.mem_singleton.mp member]
    exact author
  | false =>
    rw [Service.submit_of_closed running]
    exact step_rests _ rfl rfl rfl

/-- The service is stopped. -/
theorem step_stop (r : Registry) :
    Step r { r with service := (r.service.beginShutdown r.journal).1 } := by
  unfold Service.beginShutdown PacedLoad.Service.refuse
  cases r.core.shuttingDown with
  | true => exact step_rests _ rfl rfl rfl
  | false =>
    let refusing := { r.core with shuttingDown := true }
    cases running : r.core.isOpen with
    | true =>
      have sent := PacedLoad.Service.send_of_open (s := refusing) running r.journal
        (.terminate r.core.counted)
      simp only [PacedLoad.Service.terminate, refusing, Bool.false_eq_true, if_false] at sent ⊢
      rw [sent]
      exact .sends [.terminate r.core.counted] rfl (by simp [author?]) rfl rfl rfl
    | false =>
      have sent := PacedLoad.Service.send_of_closed (s := refusing) running r.journal
        (.terminate r.core.counted)
      simp only [PacedLoad.Service.terminate, refusing, Bool.false_eq_true, if_false] at sent ⊢
      rw [sent]
      exact step_rests _ rfl rfl rfl

/-- Every move is one of these. -/
theorem move_step {m : Move} (moved : r.move m = some after) : Step r after := by
  cases m with
  | call =>
    simp only [move, Service.ask] at moved
    cases running : r.core.isOpen with
    | true =>
      rw [Service.ask_of_open running] at moved
      cases moved
      exact .calls
    | false =>
      rw [Service.ask_of_closed running] at moved
      cases moved
      exact .fails
  | poll i expired =>
    simp only [move] at moved
    split at moved
    next ticket found =>
      split at moved
      next service outcome polled =>
        cases moved
        exact .returns found polled
      next =>
        cases moved
        exact step_rests r.core rfl rfl rfl
    next => cases moved
  | report source message =>
    cases moved
    exact step_rests r.core rfl rfl rfl
  | initiate i time =>
    obtain ⟨w, held, rfl⟩ := Option.map_eq_some_iff.mp moved
    simp only [Service.submitInitiated, Service.submitWhileUp]
    split
    · exact step_rests r.core rfl rfl rfl
    · refine step_submit r.journal fun w' author => ?_
      cases author
      exact ⟨i, held⟩
  | complete i time =>
    obtain ⟨w, held, rfl⟩ := Option.map_eq_some_iff.mp moved
    refine step_submit (e := .completed w time) r.journal fun w' author => ?_
    cases author
    exact ⟨i, held⟩
  | external peer time =>
    cases moved
    exact step_submit (e := .external peer time) r.journal nofun
  | read =>
    cases moved
    simp only [Service.ask]
    cases running : r.core.isOpen with
    | true =>
      rw [Service.ask_of_open running]
      exact .asks _ (.inr rfl) rfl rfl rfl
    | false =>
      rw [Service.ask_of_closed running]
      exact .asks [] (.inl rfl) rfl (List.append_nil _).symm rfl
  | stop =>
    cases moved
    exact step_stop r
  | deliver =>
    cases moved
    exact .delivers

end Registry

end PacedLoad.Watermark
