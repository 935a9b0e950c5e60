import PacedLoad.Proofs.Service.Course
import PacedLoad.Proofs.Watermark.Board
import PacedLoad.Proofs.Watermark.Service

/-!
# The completion time service over any queue

Whatever stands in the queue, after each letter that the worker takes the slot
shows the global completion time of the letters so far, and each request is
answered by the letters before it.  The worker stops when it has seen as many
events as it was told, or at the first letter that it rejects.  All this holds of the
state with its lists and of the board with its counts, also when these overflow.
-/

namespace PacedLoad.Watermark

open Message (Enough Continued Ticketed)

/-- What a reader of the slot sees of a global completion time: the last instant looks like the one
before it. -/
def shown (gct : Option Instant) : Option Instant :=
  if gct = some .last then Instant.ofNanos? 18446744073709551614 else gct

theorem map_visible (gct : Option Instant) : gct.map Coordinator.visible = shown gct := by
  cases gct with
  | none => rfl
  | some t =>
    by_cases last : t = .last
    · subst last
      rfl
    · have below : t.nanos ≠ Instant.last.nanos := fun same => last (Instant.ext same)
      have bound := t.nanos_lt
      have early : t ≤ Instant.saturate 18446744073709551614 := by
        simp only [Instant.le_iff, Instant.saturate_nanos]
        simp only [Instant.last] at below
        omega
      rw [shown, if_neg (by simpa using last), Option.map_some, Coordinator.visible,
        min_eq_left early]

def registers : Letter → Bool
  | .request .register _ => true
  | _ => false

variable {σ : Type} [Bookkeeping σ]

/-- A worker with declared peers takes all these letters: none is refused, and it has no reason to
stop before the last of them.  They lead to the state `s`. -/
structure Accepted (peers : List String) (letters : List Letter) (s : σ) : Prop where
  state : letters.foldlM Bookkeeping.heed (Bookkeeping.start peers) = some s
  continued : Continued letters

/-- The worker rejects a letter when its state is `s` and it has taken `seen`: an announcement that
breaks a rule, or a second last message. -/
inductive Rejects (seen : List Letter) (s : σ) : Letter → String → Prop
  | violation {e : Event} {v : Violation} (refused : Bookkeeping.apply s e = .error v) :
      Rejects seen s (.event e) v.message
  | again {first n : Nat} (told : first ∈ seen.filterMap Message.expected?) :
      Rejects seen s (.terminate n) (Worker.secondTermination first n)

/-- What the service, whose cells were `cells` at first, shows of the first `n` letters, which lead
to the state `s`. -/
structure Stands (peers : List String) (letters : List Letter) (cells : List (Cell Answer))
    (n : Nat) (s : σ)
    (t : PacedLoad.Service (Coordinator σ) Event Request Answer) : Prop where
  accepted : Accepted peers (letters.take n) s
  state : t.worker.state.state = s
  slot : t.worker.state.published = shown (Bookkeeping.globalCompletionTime s)
  registered : ∀ i < n, ∀ ticket, letters[i]? = some (.request .register ticket) →
    Cell.valueAt t.cells ticket =
      Cell.arriving cells ticket (.writer ((letters.take i).countP registers))
  read : ∀ i < n, ∀ ticket, letters[i]? = some (.request .read ticket) →
    ∃ before : σ, Accepted peers (letters.take i) before ∧
      Cell.valueAt t.cells ticket =
        Cell.arriving cells ticket (.time (Bookkeeping.globalCompletionTime before))
  unanswered : ∀ i, n ≤ i → ∀ r ticket, letters[i]? = some (.request r ticket) →
    Cell.valueAt t.cells ticket = none

variable [LawfulBookkeeping σ]

open LawfulBookkeeping (writers)

/-- A letter registers a writer or leaves their number alone. -/
theorem heed_writers {s after : σ} {m : Letter} (heeded : Bookkeeping.heed s m = some after) :
    writers after = writers s + if registers m then 1 else 0 := by
  cases m with
  | event e =>
    rw [Bookkeeping.heed_event] at heeded
    exact LawfulBookkeeping.writers_apply heeded
  | request r ticket =>
    cases r with
    | register =>
      cases heeded
      exact LawfulBookkeeping.writers_register s
    | read =>
      cases heeded
      rfl
  | terminate n =>
    cases heeded
    rfl

variable {peers : List String} {now : Nat → Instant} {j k : Journal} {seen letters : List Letter}
  {c : Coordinator σ} {answers : List (Nat × Answer)} {cells : List (Cell Answer)}

structure Owned (peers : List String) (seen : List Letter) (c : Coordinator σ) : Prop where
  state : seen.foldlM Bookkeeping.heed (Bookkeeping.start peers) = some c.state
  shown : c.Shown
  writers : writers c.state = seen.countP registers

/-- A letter that is heeded leads on. -/
theorem Owned.concat {m : Letter} {after : Coordinator σ} (owned : Owned peers seen c)
    (heeded : Bookkeeping.heed c.state m = some after.state) (shown : after.Shown) :
    Owned peers (seen ++ [m]) after where
  state := by simp [List.foldlM_append, owned.state, heeded]
  shown := shown
  writers := by
    rw [heed_writers heeded, owned.writers, List.countP_append, List.countP_singleton]

/-- The journal is not touched while nothing is rejected. -/
theorem owned_of_took (took : Service.Took duty now (Coordinator.start peers) j seen c k answers) :
    Owned peers seen c ∧ k = j := by
  induction took with
  | start => exact ⟨⟨rfl, shown_start peers, LawfulBookkeeping.writers_start peers⟩, rfl⟩
  | @event seen c k answers e before short fine ih =>
    obtain ⟨owned, rfl⟩ := ih
    simp only [duty] at fine ⊢
    cases applied : Bookkeeping.apply c.state e with
    | error v => simp [applied] at fine
    | ok after =>
      exact ⟨owned.concat (Bookkeeping.heed_event.mpr applied) (shown_publish after), rfl⟩
  | @request seen c k answers r ticket before short ih =>
    obtain ⟨owned, rfl⟩ := ih
    cases r with
    | register => exact ⟨owned.concat rfl (shown_publish (Bookkeeping.register c.state).1), rfl⟩
    | read => exact ⟨owned.concat rfl owned.shown, rfl⟩
  | terminate n before short first ih =>
    obtain ⟨owned, rfl⟩ := ih
    exact ⟨owned.concat rfl owned.shown, rfl⟩

theorem accepted_of_took
    (took : Service.Took duty now (Coordinator.start peers) j seen c k answers) :
    Accepted peers seen c.state :=
  ⟨(owned_of_took took).1.state, took.continued⟩

/-- The answers in the cells, in the words of the service. -/
theorem stands_of_took {n : Nat} {t : PacedLoad.Service (Coordinator σ) Event Request Answer}
    (took : Service.Took duty now (Coordinator.start peers) j (letters.take n) c k answers)
    (state : t.worker.state = c)
    (answered : Service.Answered duty now (Coordinator.start peers : Coordinator σ) j letters cells n
      t.cells) :
    Stands peers letters cells n c.state t where
  accepted := accepted_of_took took
  state := by rw [state]
  slot := by rw [state, (owned_of_took took).1.shown, map_visible]
  registered i inside ticket asked := by
    obtain ⟨before, _, _, earlier, value⟩ := answered.before i inside .register ticket asked
    rw [value, ← (owned_of_took earlier).1.writers, ← LawfulBookkeeping.number_register]
    rfl
  read i inside ticket asked := by
    obtain ⟨before, _, _, earlier, value⟩ := answered.before i inside .read ticket asked
    exact ⟨before.state, accepted_of_took earlier, value⟩
  unanswered := answered.behind

omit [LawfulBookkeeping σ] in
/-- A letter that the worker refuses is rejected by a rule, and changes nothing. -/
theorem rejects_of_refused {m : Letter} {after : Coordinator σ} {last : Journal} {text : String}
    (refused : Service.Refused duty seen c k m after last text) :
    after = c ∧ last = k ∧ Rejects seen c.state m text := by
  cases refused with
  | event e failed =>
    simp only [duty] at failed ⊢
    cases applied : Bookkeeping.apply c.state e with
    | ok s => simp [applied] at failed
    | error v =>
      simp only [applied, Option.some.injEq] at failed
      subst failed
      exact ⟨rfl, rfl, .violation applied⟩
  | terminate n told => exact ⟨rfl, rfl, .again (List.mem_of_head? told)⟩

variable (σ) in
/-- The service over any queue.  The worker takes the first `n` letters, and the service stands as
they lead to after each of them; it is complete exactly when they bring as many events as a last
message says.  If it does not complete and letters are left, the next one is rejected: one error is
reported, and what the first `n` letters led to stays, without a completion, whatever follows. -/
theorem course_of_letters (peers : List String) (letters : List Letter) (cells : List (Cell Answer))
    (now : Nat → Instant) (j : Journal) (ticketed : Ticketed letters cells) :
    let after :=
      (Service.loaded (Coordinator.start peers : Coordinator σ) letters cells).takes duty now j
    ∃ n ≤ letters.length,
      (∀ k ≤ n, ∃ s, Stands peers letters cells k s (after k).1 ∧ (after k).2 = j ∧
        (after k).1.worker.phase =
          if Enough (letters.take k) then .complete else .running) ∧
      (((n = letters.length ∨ Enough (letters.take n)) ∧ ∀ k ≥ n, after k = after n) ∨
        (¬ Enough (letters.take n) ∧
          ∃ m text s, letters[n]? = some m ∧ Rejects (letters.take n) s m text ∧
            ∀ k > n, Stands peers letters cells n s (after k).1 ∧
              (after k).1.worker.phase = .failed ∧
              (after k).2 = j.report serviceName text)) := by
  intro after
  obtain ⟨n, inside, upTo, ended⟩ :=
    Service.course duty now (Coordinator.start peers : Coordinator σ) j letters cells
  refine ⟨n, inside, fun i first => ?_, ended.imp_right ?_⟩
  · obtain ⟨c, last, answers, took⟩ := upTo i first
    obtain ⟨state, phase, journal, answered⟩ := took.shows (Nat.le_trans first inside) ticketed
    exact ⟨c.state, stands_of_took took state answered, journal.trans (owned_of_took took).2, phase⟩
  · rintro ⟨short, m, c, k, answers, c', k', text, place, took, refused⟩
    obtain ⟨rfl, rfl, rejects⟩ := rejects_of_refused refused
    refine ⟨short, m, text, c'.state, place, rejects, fun i later => ?_⟩
    obtain ⟨state, phase, journal, answered⟩ := refused.shows took short place ticketed i later
    exact ⟨stands_of_took took state answered, phase,
      journal.trans (by rw [(owned_of_took took).2]; rfl)⟩

/-- One writer completes the last instant, the declared peer reports, and then a stranger does. -/
def strayLetters : List Letter :=
  [.request .register 0, .event (.initiated 0 .last), .event (.completed 0 .last),
    .event (.external "near" .last), .request .read 1, .event (.external "far" .first),
    .terminate 3]

/-- Who asked for the time does not wait for it any more. -/
def strayCells : List (Cell Answer) := [Cell.fresh, Cell.fresh.dropPending]

/-- The stranger's report is rejected, and the events before it are enough only for a last message
that comes too late.  The worker keeps a board. -/
theorem course_of_strayLetters :
    Ticketed strayLetters strayCells ∧
      let after := (Service.loaded (Coordinator.start ["near"] : Coordinator Board) strayLetters
        strayCells).takes duty (fun _ => .first) Journal.empty
      ∃ n m text s, strayLetters[n]? = some m ∧ Rejects (strayLetters.take n) s m text ∧
        ∀ k > n, Stands ["near"] strayLetters strayCells n s (after k).1 ∧
          (after k).1.worker.phase = .failed ∧
          (after k).2 = Journal.empty.report serviceName text := by
  have ticketed : Ticketed strayLetters strayCells := by
    constructor <;> decide
  refine ⟨ticketed, ?_⟩
  intro after
  obtain ⟨n, inside, upTo, ⟨-, stays⟩ | ⟨-, m, text, s, place, rejects, fails⟩⟩ :=
    course_of_letters Board ["near"] strayLetters _ (fun _ => .first) Journal.empty ticketed
  · obtain ⟨s, -, -, phase⟩ := upTo n (Nat.le_refl n)
    rw [← stays strayLetters.length inside] at phase
    have failed : (after strayLetters.length).1.worker.phase = .failed := rfl
    split at phase <;> cases failed.symm.trans phase
  · exact ⟨n, m, text, s, place, rejects, fails⟩

end PacedLoad.Watermark
