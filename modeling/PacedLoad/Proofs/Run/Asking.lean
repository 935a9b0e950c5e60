import PacedLoad.Proofs.Run.Finish
import PacedLoad.Proofs.Run.Letters

/-!
# What becomes of the driver's question

While the question for the time waits in the queue, the letters in front of it lead
to settled writers.  When the worker takes it, the answer is the global completion
time of the state to which all letters before it have led.
-/

namespace PacedLoad

open Handler Watermark

variable {β : Type}

/-- The one question for the time among the letters, with the state `s` to which those before it
lead. -/
structure Asked (peers : List String) (least : Option Instant) (letters : List Letter)
    (ticket : Nat) (s : State) : Prop where
  placed : ∃ before after, letters = before ++ .request .read ticket :: after ∧
    Unread (before ++ after) ∧ before.foldlM Bookkeeping.heed (State.start peers) = some s
  settled : Settled least s.writers

/-- Another letter after the question. -/
theorem Asked.concat {peers : List String} {least : Option Instant} {letters : List Letter}
    {ticket : Nat} {s : State} {m : Letter} (asked : Asked peers least letters ticket s)
    (other : reads m = false) : Asked peers least (letters ++ [m]) ticket s := by
  obtain ⟨before, after, rfl, unread, led⟩ := asked.placed
  refine ⟨⟨before, after ++ [m], by simp, ?_, led⟩, asked.settled⟩
  rw [unread_append] at unread ⊢
  exact ⟨unread.1, unread_append.mpr ⟨unread.2, unread_cons.mpr ⟨other, unread_nil⟩⟩⟩

namespace Outline

variable {o after : Outline β} {peers : List String} {least : Option Instant}
  {letters rest : List Letter} {look : Look} {m : Letter} {j : Journal}

theorem Delivery.unread (delivery : Delivery o m rest j after) (unread : Unread rest) :
    Unread after.queue := by
  rw [delivery.queue]
  split
  · exact unread
  · exact unread_nil

/-- As long as the worker runs, its state is what the letters that it took have led to. -/
def Heeded (peers : List String) (letters : List Letter) (o : Outline β) : Prop :=
  o.worker.phase = .running →
    letters.foldlM Bookkeeping.heed (State.start peers) = some o.worker.state.state

theorem Heeded.congr (heeded : Heeded peers letters o) (worker : after.worker = o.worker) :
    Heeded peers letters after := by
  unfold Heeded
  rw [worker]
  exact heeded

theorem Heeded.deliver (heeded : Heeded peers letters o) (delivery : Delivery o m rest j after) :
    Heeded peers (letters ++ [m]) after := by
  intro running
  rw [delivery.worker] at running ⊢
  rw [List.foldlM_append, heeded delivery.running]
  simpa using receive_running running

/-- What the driver's question has come to when the worker has taken `letters`. -/
inductive Asking (peers : List String) (least : Option Instant) (letters : List Letter)
    (o : Outline β) : Look → Prop
  | ahead (unread : Unread (letters ++ o.queue)) : Asking peers least letters o .ahead
  /-- The question waits behind the letters `first`. -/
  | queued {ticket : Nat} {first later : List Letter} {ws : List Writer}
      (running : o.worker.phase = .running)
      (split : o.queue = first ++ .request .read ticket :: later)
      (unread : Unread (letters ++ first ++ later)) (seen : foresee o.held first = some ws)
      (settled : Settled least ws) (unanswered : o.answers ticket = none) :
      Asking peers least letters o (.asked ticket)
  /-- The worker has stopped before it came to the question. -/
  | lost {ticket : Nat} (stopped : o.worker.phase ≠ .running)
      (unanswered : o.answers ticket = none) : Asking peers least letters o (.asked ticket)
  | answered {ticket : Nat} {s : State} (asked : Asked peers least letters ticket s)
      (unread : Unread o.queue)
      (answer : ∀ a, o.answers ticket = some a → a = .time s.globalCompletionTime) :
      Asking peers least letters o (.asked ticket)
  | seen {ticket : Nat} {s : State} (asked : Asked peers least letters ticket s)
      (unread : Unread o.queue) : Asking peers least letters o (.seen s.globalCompletionTime)
  | failing : Asking peers least letters o .failing

/-- A letter that neither registers a writer nor asks for the time is not answered. -/
theorem Delivery.unanswered (delivery : Delivery o m rest j after) {ticket : Nat}
    (unregistered : ∀ k, .request .register k ∉ o.queue) (other : reads m = false) {a : Answer}
    (answer : after.answers ticket = some a) : o.answers ticket = some a := by
  rcases delivery.answers ticket a answer with before | now
  · exact before
  · rcases receive_reply now with ⟨rfl, -⟩ | ⟨rfl, -⟩
    · exact absurd (by rw [delivery.oldest]; exact List.mem_cons_self) (unregistered ticket)
    · cases other

/-- The worker takes a letter: the question moves one place to the front, or is answered. -/
theorem Asking.deliver (asking : Asking peers least letters o look)
    (heeded : Heeded peers letters o) (delivery : Delivery o m rest j after)
    (unregistered : ∀ ticket, look = .asked ticket → ∀ k, .request .register k ∉ o.queue) :
    Asking peers least (letters ++ [m]) after look := by
  cases asking with
  | ahead unread =>
    rw [delivery.oldest, unread_append, unread_cons] at unread
    obtain ⟨taken, here, later⟩ := unread
    refine .ahead ?_
    simp only [unread_append, unread_cons]
    exact ⟨⟨taken, here, unread_nil⟩, delivery.unread later⟩
  | @queued ticket first later ws running split unread seen settled unanswered =>
    simp only [unread_append] at unread
    obtain ⟨⟨taken, front⟩, back⟩ := unread
    have order := delivery.oldest.symm.trans split
    cases first with
    | nil =>
      -- the question is the oldest letter
      cases order
      cases seen
      refine .answered (s := o.worker.state.state) ⟨⟨letters, [], rfl, ?_, heeded running⟩, settled⟩
        (delivery.unread back) fun a answer => ?_
      · rw [List.append_nil]
        exact taken
      · rcases delivery.answers ticket a answer with before | now
        · cases unanswered.symm.trans before
        · rcases receive_reply now with ⟨other, -⟩ | ⟨-, same⟩
          · cases other
          · exact same
    | cons head first =>
      cases order
      obtain ⟨here, front⟩ := unread_cons.mp front
      have still : after.answers ticket = none := by
        refine Option.eq_none_iff_forall_ne_some.mpr fun a answer => ?_
        cases unanswered.symm.trans
          (delivery.unanswered (unregistered ticket rfl) here answer)
      obtain ⟨us, attended, seen⟩ := Option.bind_eq_some_iff.mp seen
      by_cases going : after.worker.phase = .running
      · have split' : after.queue = first ++ .request .read ticket :: later := by
          rw [delivery.queue, if_pos going]
          rfl
        have unread' : Unread (letters ++ [m] ++ first ++ later) := by
          simp only [unread_append, unread_cons]
          exact ⟨⟨⟨taken, here, unread_nil⟩, front⟩, back⟩
        refine .queued going split' unread' ?_ settled still
        rw [Outline.held, delivery.worker, receive_writers attended]
        exact seen
      · exact .lost going still
  | lost stopped => exact absurd delivery.running stopped
  | answered asked unread answer =>
    rw [delivery.oldest, unread_cons] at unread
    exact .answered (asked.concat unread.1) (delivery.unread unread.2) fun a given =>
      answer a (delivery.unanswered (unregistered _ rfl) unread.1 given)
  | seen asked unread =>
    rw [delivery.oldest, unread_cons] at unread
    exact .seen (asked.concat unread.1) (delivery.unread unread.2)
  | failing => exact .failing

/-- Letters that are sent behind the question do not change what it comes to. -/
theorem Asking.sent {more : List Letter} (asking : Asking peers least letters o look)
    (worker : after.worker = o.worker) (answers : after.answers = o.answers)
    (queue : after.queue = o.queue ++ more) (silent : Unread more) :
    Asking peers least letters after look := by
  have extended (unread : Unread o.queue) : Unread after.queue := by
    rw [queue]
    exact unread_append.mpr ⟨unread, silent⟩
  cases asking with
  | ahead unread =>
    rw [unread_append] at unread
    exact .ahead (unread_append.mpr ⟨unread.1, extended unread.2⟩)
  | @queued ticket first later ws running split unread seen settled unanswered =>
    have split' : after.queue = first ++ .request .read ticket :: (later ++ more) := by
      rw [queue, split, List.append_assoc]
      rfl
    have unread' : Unread (letters ++ first ++ (later ++ more)) := by
      rw [← List.append_assoc]
      exact unread_append.mpr ⟨unread, silent⟩
    refine .queued (worker ▸ running) split' unread' ?_ settled (answers ▸ unanswered)
    rw [Outline.held, worker]
    exact seen
  | lost stopped unanswered => exact .lost (worker ▸ stopped) (answers ▸ unanswered)
  | answered asked unread answer =>
    exact .answered asked (extended unread) (answers ▸ answer)
  | seen asked unread => exact .seen asked (extended unread)
  | failing => exact .failing

/-- The driver asks when the queue leads to settled writers. -/
theorem Asking.asks {ticket : Nat} (asking : Asking peers least letters o .ahead)
    (final : Final least o) (running : o.worker.phase = .running)
    (unanswered : o.answers ticket = none) (worker : after.worker = o.worker)
    (answers : after.answers = o.answers)
    (queue : after.queue = o.queue ++ [.request .read ticket]) :
    Asking peers least letters after (.asked ticket) := by
  cases asking with
  | ahead unread =>
    obtain ⟨ws, seen, settled⟩ := final.settled running
    have unread' : Unread (letters ++ o.queue ++ []) := by
      rw [List.append_nil]
      exact unread
    refine .queued (worker ▸ running) queue unread' ?_ settled (answers ▸ unanswered)
    rw [Outline.held, worker]
    exact seen

/-- The driver takes up the answer. -/
theorem Asking.sees {ticket : Nat} {a : Answer} (asking : Asking peers least letters o (.asked ticket))
    (answered : o.answers ticket = some a) :
    Asking peers least letters o (.seen (Watermark.Service.timeOf a)) := by
  cases asking with
  | queued running split unread seen settled unanswered => cases unanswered.symm.trans answered
  | lost stopped unanswered => cases unanswered.symm.trans answered
  | answered asked unread answer =>
    rw [answer a answered]
    exact .seen asked unread

/-- What the driver knows comes from the one question among the letters. -/
theorem Asking.known {gct : Option Instant} (asking : Asking peers least letters o (.seen gct)) :
    ∃ ticket s, Asked peers least letters ticket s ∧ gct = s.globalCompletionTime := by
  cases asking with
  | seen asked unread => exact ⟨_, _, asked, rfl⟩

end Outline

end PacedLoad
