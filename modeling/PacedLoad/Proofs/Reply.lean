import PacedLoad.Proofs.Entries
import PacedLoad.Reply.Exchange

/-!
# The end of a wait

A wait ends at the first poll that finds something to decide by: a value, a cell that can
get none any more, a reported error, or the deadline.  A value wins over all else, then
come reported errors, and only an open cell with a clean journal runs out of time.  What a
poll sees is what happened before it.  The value of a cell is handed over once, and only
if it was put there.
-/

namespace PacedLoad.Exchange

variable {α : Type}

def Reported (x : Exchange α) (j : Journal) : Prop := x.journal = some j ∧ j.errors ≠ []

/-- There is something that a poll decides by. -/
def Decides (deadline : Nat) (x : Exchange α) : Prop :=
  x.cell.value.isSome = true ∨ x.cell.resolver = false ∨ (∃ j, x.Reported j) ∨ deadline ≤ x.now

/-- Each error with its source in brackets, with a line break between any two of them. -/
def joined : List ReportedError → String
  | [] => ""
  | [e] => "[" ++ e.source ++ "] " ++ e.message
  | e :: errors => "[" ++ e.source ++ "] " ++ e.message ++ "\n" ++ joined errors

/-- What a poll that decides has to answer. -/
inductive Verdict (timeout : Span) (x : Exchange α) : Except WaitError α → Prop
  | value {a : α} : x.cell.value = some a → Verdict timeout x (.ok a)
  | reported {j : Journal} : x.cell.value = none → x.Reported j →
    Verdict timeout x (.error (.reported (joined j.errors)))
  | closed : x.cell.value = none → (¬ ∃ j, x.Reported j) → x.cell.resolver = false →
    Verdict timeout x (.error .closed)
  | timeout : x.cell.value = none → (¬ ∃ j, x.Reported j) → x.cell.resolver = true →
    Verdict timeout x (.error (.timeout timeout))

/-- The exchange at a poll, if no poll before has decided. -/
def atPoll (x : Exchange α) (schedule : PollSchedule) (incidents : List (List (Incident α))) :
    Nat → Exchange α
  | 0 => (incidents.getD 0 []).foldl happen x
  | n + 1 => (incidents.getD (n + 1) []).foldl happen
      ((atPoll x schedule incidents n).happen (.pass schedule.interval.nanos))

/-- What an incident leaves in a cell that is still open: a value, or the certainty that none
comes. -/
def closing? : Incident α → Option (Option α)
  | .resolve a => some (some a)
  | .dropResolver => some none
  | _ => none

def reported? : Incident α → Option ReportedError
  | .report source message => some ⟨source, message⟩
  | _ => none

def elapsed : Incident α → Nat
  | .pass nanos => nanos
  | _ => 0

/-- An exchange that began with a fresh cell, after what happened since: the first use of the
resolving half counts, every report and the time add up. -/
structure After (journal : Option Journal) (now : Nat) (past : List (Incident α))
    (x : Exchange α) : Prop where
  pending : x.cell.pending = true
  value : x.cell.value = (past.findSome? closing?).join
  resolver : x.cell.resolver = (past.findSome? closing?).isNone
  errors : x.journal.map Journal.errors =
    journal.map fun j => j.errors ++ past.filterMap reported?
  now : x.now = now + (past.map elapsed).sum

/-! ## One poll -/

variable {deadline n : Nat} {timeout : Span} {schedule : PollSchedule} {x : Exchange α}
  {incidents : List (List (Incident α))} {verdict : Except WaitError α}

theorem text_eq_joined (j : Journal) : j.text = joined j.errors := by
  suffices lines : ∀ errors : List ReportedError,
      String.intercalate "\n" (errors.map ReportedError.text) = joined errors from lines j.errors
  intro errors
  induction errors with
  | nil => rfl
  | cons e rest ih =>
    cases rest with
    | nil => simp [joined, ReportedError.text, String.intercalate_singleton]
    | cons e' rest =>
      rw [joined, ← ih, List.map_cons, List.map_cons, String.intercalate_cons_cons,
        ReportedError.text]
      exact nofun

theorem reportedText_eq_some {errors : String} :
    reportedText x.journal = some errors ↔ ∃ j, x.Reported j ∧ joined j.errors = errors := by
  unfold reportedText Reported
  cases x.journal with
  | none => simp
  | some j => by_cases clean : j.errors = [] <;> simp [Journal.hasErrors, text_eq_joined, clean]

theorem reportedText_eq_none : reportedText x.journal = none ↔ ¬ ∃ j, x.Reported j := by
  rw [Option.eq_none_iff_forall_ne_some]
  simp only [ne_eq, reportedText_eq_some]
  exact ⟨fun none ⟨j, reported⟩ => none _ ⟨j, reported, rfl⟩,
    fun none _ ⟨j, reported, _⟩ => none ⟨j, reported⟩⟩

/-- The order in which a poll looks at things. -/
theorem poll_snd (deadline : Nat) (timeout : Span) (x : Exchange α) :
    (x.poll deadline timeout).2 =
      match x.cell.value, reportedText x.journal with
      | some a, _ => some (.ok a)
      | none, some errors => some (.error (.reported errors))
      | none, none =>
        if x.cell.resolver = false then some (.error .closed)
        else if deadline ≤ x.now then some (.error (.timeout timeout)) else none := by
  unfold poll Cell.verdict pollVerdict Cell.settled Cell.ending
  cases x.cell.value with
  | some a => rfl
  | none =>
    cases reportedText x.journal with
    | some errors => cases x.cell.resolver <;> rfl
    | none =>
      cases x.cell.resolver with
      | false => rfl
      | true => by_cases late : deadline ≤ x.now <;> simp [late]

/-- A poll decides if there is something to decide by, and gives the verdict that this calls for. -/
theorem poll_eq_some_iff :
    (x.poll deadline timeout).2 = some verdict ↔
      x.Decides deadline ∧ x.Verdict timeout verdict := by
  rw [poll_snd]
  constructor
  · intro decided
    split at decided
    next a _ value =>
      cases decided
      exact ⟨.inl (by simp [value]), .value value⟩
    next errors value reported =>
      cases decided
      obtain ⟨j, found, rfl⟩ := reportedText_eq_some.mp reported
      exact ⟨.inr (.inr (.inl ⟨j, found⟩)), .reported value found⟩
    next value clean =>
      rw [reportedText_eq_none] at clean
      split at decided
      next dropped =>
        cases decided
        exact ⟨.inr (.inl dropped), .closed value clean dropped⟩
      next kept =>
        split at decided
        next late =>
          cases decided
          exact ⟨.inr (.inr (.inr late)), .timeout value clean (by simpa using kept)⟩
        next => cases decided
  · rintro ⟨decides, verdict⟩
    cases verdict with
    | value value => rw [value]
    | reported value found => rw [value, reportedText_eq_some.mpr ⟨_, found, rfl⟩]
    | closed value clean dropped =>
      simp only [value, reportedText_eq_none.mpr clean, if_pos dropped]
    | timeout value clean kept =>
      have late : deadline ≤ x.now := by
        rcases decides with set | dropped | reported | late
        · simp [value] at set
        · simp [kept] at dropped
        · exact absurd reported clean
        · exact late
      simp [value, reportedText_eq_none.mpr clean, kept, late]

theorem poll_eq_none_iff : (x.poll deadline timeout).2 = none ↔ ¬ x.Decides deadline := by
  constructor
  · intro undecided decides
    have some_verdict : ∃ verdict, x.Verdict timeout verdict := by
      cases value : x.cell.value with
      | some a => exact ⟨_, .value value⟩
      | none =>
        by_cases clean : ∃ j, x.Reported j
        · obtain ⟨j, found⟩ := clean
          exact ⟨_, .reported value found⟩
        · cases kept : x.cell.resolver with
          | false => exact ⟨_, .closed value clean kept⟩
          | true => exact ⟨_, .timeout value clean kept⟩
    obtain ⟨verdict, called⟩ := some_verdict
    rw [poll_eq_some_iff.mpr ⟨decides, called⟩] at undecided
    cases undecided
  · intro nothing
    rw [Option.eq_none_iff_forall_ne_some]
    exact fun verdict decided => nothing (poll_eq_some_iff.mp decided).1

/-- A check finds exactly the value that the cell holds. -/
theorem check_of_none (empty : x.cell.value = none) : x.check.1 = x := by
  unfold check Cell.tryGet
  rw [empty]

/-- A poll that does not decide leaves everything as it is. -/
theorem poll_of_not_decides (undecided : ¬ x.Decides deadline) :
    x.poll deadline timeout = (x, none) := by
  have empty : x.cell.value = none := by
    cases value : x.cell.value with
    | none => rfl
    | some a => exact absurd (.inl (by simp [value])) undecided
  exact Prod.ext (check_of_none empty) (poll_eq_none_iff.mpr undecided)

/-! ## The polls of a wait -/

theorem atPoll_cons (before : List (Incident α)) (later : List (List (Incident α)))
    (x : Exchange α) (schedule : PollSchedule) (n : Nat) :
    x.atPoll schedule (before :: later) (n + 1) =
      ((before.foldl happen x).happen (.pass schedule.interval.nanos)).atPoll schedule later n := by
  induction n with
  | zero => rfl
  | succ n ih =>
    rw [atPoll, ih]
    rfl

section Wait

variable {before : List (Incident α)} {later : List (List (Incident α))}

theorem waitUntil_of_some
    (polled : ((before.foldl happen x).poll deadline schedule.timeout).2 = some verdict) :
    waitUntil deadline schedule (before :: later) x =
      ((before.foldl happen x).check.1, some (0, verdict)) := by
  rw [waitUntil, show (before.foldl happen x).poll deadline schedule.timeout =
    ((before.foldl happen x).check.1, some verdict) from Prod.ext rfl polled]

theorem waitUntil_of_none
    (polled : ((before.foldl happen x).poll deadline schedule.timeout).2 = none) :
    waitUntil deadline schedule (before :: later) x =
      let y := (before.foldl happen x).happen (.pass schedule.interval.nanos)
      ((waitUntil deadline schedule later y).1,
        (waitUntil deadline schedule later y).2.map fun (n, verdict) => (n + 1, verdict)) := by
  rw [waitUntil, poll_of_not_decides (poll_eq_none_iff.mp polled)]

/-- A wait ends at the first poll that finds something to decide by, with the verdict that this
calls for. -/
theorem waitUntil_eq_some_iff :
    (waitUntil deadline schedule incidents x).2 = some (n, verdict) ↔
      n < incidents.length ∧
      (∀ k < n, ¬ (x.atPoll schedule incidents k).Decides deadline) ∧
      (x.atPoll schedule incidents n).Decides deadline ∧
      (x.atPoll schedule incidents n).Verdict schedule.timeout verdict := by
  induction incidents generalizing x n with
  | nil => simp [waitUntil]
  | cons before later ih =>
    cases polled : ((before.foldl happen x).poll deadline schedule.timeout).2 with
    | some first =>
      obtain ⟨decides, called⟩ := poll_eq_some_iff.mp polled
      rw [waitUntil_of_some polled]
      constructor
      · intro ended
        cases ended
        exact ⟨Nat.zero_lt_succ _, nofun, decides, called⟩
      · rintro ⟨-, undecided, -, called'⟩
        cases n with
        | zero =>
          have polled' := poll_eq_some_iff.mpr ⟨decides, called'⟩
          rw [polled] at polled'
          cases polled'
          rfl
        | succ n => exact absurd decides (undecided 0 (Nat.zero_lt_succ n))
    | none =>
      have undecided := poll_eq_none_iff.mp polled
      rw [waitUntil_of_none polled]
      cases n with
      | zero =>
        constructor
        · simp
        · rintro ⟨-, -, decides, -⟩
          exact absurd decides undecided
      | succ n =>
        simp only [Option.map_eq_some_iff, Prod.mk.injEq, Prod.exists, Nat.add_right_cancel_iff,
          exists_eq_right_right, exists_eq_right, ih, List.length_cons, Nat.add_lt_add_iff_right,
          Nat.forall_lt_succ_left', atPoll_cons]
        refine and_congr_right fun _ => and_congr_left fun _ => ?_
        exact ⟨fun open_ => ⟨undecided, open_⟩, And.right⟩

theorem waitUntil_eq_none_iff :
    (waitUntil deadline schedule incidents x).2 = none ↔
      ∀ k < incidents.length, ¬ (x.atPoll schedule incidents k).Decides deadline := by
  induction incidents generalizing x with
  | nil => simp [waitUntil]
  | cons before later ih =>
    rw [List.length_cons, Nat.forall_lt_succ_left']
    cases polled : ((before.foldl happen x).poll deadline schedule.timeout).2 with
    | some first =>
      rw [waitUntil_of_some polled]
      refine ⟨nofun, fun ⟨undecided, _⟩ => ?_⟩
      exact absurd (poll_eq_some_iff.mp polled).1 undecided
    | none =>
      rw [waitUntil_of_none polled]
      simp only [Option.map_eq_none_iff, ih, atPoll_cons]
      exact ⟨fun open_ => ⟨poll_eq_none_iff.mp polled, open_⟩, And.right⟩

end Wait

/-! ## What a poll sees -/

section After

variable {journal : Option Journal} {now : Nat} {past : List (Incident α)}

theorem closing?_append (past : List (Incident α)) (i : Incident α) :
    (past ++ [i]).findSome? closing? = (past.findSome? closing?).or (closing? i) := by
  rw [List.findSome?_append, List.findSome?_singleton]

theorem After.cell_happen (after : After journal now past x) (i : Incident α) :
    (x.happen i).cell.pending = true ∧
    (x.happen i).cell.value = ((past ++ [i]).findSome? closing?).join ∧
    (x.happen i).cell.resolver = ((past ++ [i]).findSome? closing?).isNone := by
  obtain ⟨pending, value, resolver, -, -⟩ := after
  rw [closing?_append]
  cases i with
  | resolve a =>
    rw [happen, Cell.pending_resolve, Cell.value_resolve, Cell.resolver_resolve, pending,
      resolver, value]
    cases past.findSome? closing? <;> exact ⟨rfl, rfl, rfl⟩
  | dropResolver =>
    rw [happen, Cell.pending_dropResolver, Cell.value_dropResolver, Cell.resolver_dropResolver,
      pending, value]
    cases past.findSome? closing? <;> exact ⟨rfl, rfl, rfl⟩
  | report source message => simpa [closing?] using ⟨pending, value, resolver⟩
  | pass nanos => simpa [closing?] using ⟨pending, value, resolver⟩

theorem errors_happen (x : Exchange α) (i : Incident α) :
    (x.happen i).journal.map Journal.errors =
      (x.journal.map Journal.errors).map (· ++ (reported? i).toList) := by
  cases i <;> cases found : x.journal <;> simp [happen, reported?, found]

theorem After.happen (after : After journal now past x) (i : Incident α) :
    After journal now (past ++ [i]) (x.happen i) := by
  obtain ⟨pending, value, resolver⟩ := after.cell_happen i
  refine ⟨pending, value, resolver, ?_, ?_⟩
  · rw [errors_happen, after.errors, Option.map_map, List.filterMap_append]
    refine Option.map_congr fun j _ => ?_
    cases i <;> simp [reported?]
  · rw [List.map_append, List.sum_append, ← Nat.add_assoc, ← after.now]
    cases i <;> rfl

theorem After.happenAll (after : After journal now past x) (is : List (Incident α)) :
    After journal now (past ++ is) (is.foldl Exchange.happen x) := by
  induction is generalizing past x with
  | nil => rwa [List.append_nil]
  | cons i is ih =>
    have later := ih (after.happen i)
    rwa [List.append_assoc] at later

theorem after_fresh (journal : Option Journal) (now : Nat) :
    After journal now [] (fresh journal now : Exchange α) :=
  ⟨rfl, rfl, rfl, by cases journal <;> simp [fresh], rfl⟩

/-- A nap is time that passes. -/
theorem After.nap (after : After journal now past x) (nanos : Nat) :
    After journal (now + nanos) past (x.happen (.pass nanos)) :=
  ⟨after.pending, after.value, after.resolver, after.errors, by
    rw [Exchange.happen, after.now, Nat.add_right_comm]⟩

/-- The poll after `n` naps sees all that happened before it, and the time of the naps. -/
theorem after_atPoll (journal : Option Journal) (now : Nat) (schedule : PollSchedule)
    (incidents : List (List (Incident α))) (n : Nat) :
    After journal (now + n * schedule.interval.nanos) (incidents.take (n + 1)).flatten
      ((fresh journal now).atPoll schedule incidents n) := by
  have next (n : Nat) : (incidents.take (n + 1)).flatten =
      (incidents.take n).flatten ++ incidents.getD n [] := by
    rw [List.take_add_one, List.flatten_append, List.getD_eq_getElem?_getD]
    cases incidents[n]? <;> simp
  induction n with
  | zero =>
    rw [next, List.take_zero, Nat.zero_mul]
    exact (after_fresh journal now).happenAll _
  | succ n ih =>
    rw [next, Nat.succ_mul, ← Nat.add_assoc]
    exact (ih.nap _).happenAll _

end After

/-! ## What a cell hands over -/

/-- Something that happens to a cell before anybody waits for it. -/
inductive Move (α : Type)
  | incident (i : Incident α)
  | check

/-- The exchange after several moves, and what the checks found. -/
def live (x : Exchange α) : List (Move α) → Exchange α × List (Except WaitError (Option α))
  | [] => (x, [])
  | .incident i :: rest => (x.happen i).live rest
  | .check :: rest =>
    let (next, got) := x.check
    let (last, found) := next.live rest
    (last, got :: found)

def resolved? : Incident α → Option α
  | .resolve a => some a
  | _ => none

def incidentsOf : List (Move α) → List (Incident α)
  | [] => []
  | .incident i :: rest => i :: incidentsOf rest
  | .check :: rest => incidentsOf rest

/-- The values that checks found. -/
def found (answers : List (Except WaitError (Option α))) : List α :=
  answers.filterMap fun answer => answer.toOption.join

/-- The value that a wait ended with. -/
def gained (ended : Option (Nat × Except WaitError α)) : List α :=
  (ended.bind fun e => e.2.toOption).toList

/-- At most one value was handed over: the first one that the resolving half was used with. -/
def Once (handed resolved : List α) : Prop :=
  handed.length ≤ 1 ∧ ∀ a ∈ handed, resolved.head? = some a

/-- How a cell stands to what was handed over and what its resolving half was used with. -/
structure Kept (c : Cell α) (handed resolved : List α) : Prop where
  pending : c.pending = true
  unused : c.resolver = true → c.value = none ∧ handed = [] ∧ resolved = []
  once : Once (handed ++ c.value.toList) resolved

theorem Once.append {handed resolved : List α} (once : Once handed resolved) (more : List α) :
    Once handed (resolved ++ more) :=
  ⟨once.1, fun a member => by rw [List.head?_append, once.2 a member]; rfl⟩

theorem Once.sublist {handed handed' resolved : List α} (once : Once handed resolved)
    (part : handed'.Sublist handed) : Once handed' resolved :=
  ⟨Nat.le_trans part.length_le once.1, fun a member => once.2 a (part.subset member)⟩

theorem kept_fresh : Kept (Cell.fresh : Cell α) [] [] :=
  ⟨rfl, fun _ => ⟨rfl, rfl, rfl⟩, Nat.zero_le 1, nofun⟩

section Kept

variable {handed resolved : List α}

theorem Kept.happen (kept : Kept x.cell handed resolved) (i : Incident α) :
    Kept (x.happen i).cell handed (resolved ++ (resolved? i).toList) := by
  cases i with
  | resolve a =>
    rw [show (x.happen (.resolve a)).cell = x.cell.resolve a from rfl]
    cases usable : x.cell.resolver with
    | true =>
      obtain ⟨-, rfl, rfl⟩ := kept.unused usable
      have held : (x.cell.resolve a).value = some a := by
        simp [Cell.value_resolve, usable, kept.pending]
      refine ⟨by simpa using kept.pending, by simp, ?_⟩
      rw [held]
      exact ⟨Nat.le_refl 1, by simp [resolved?]⟩
    | false =>
      rw [Cell.resolve_of_used usable]
      exact ⟨kept.pending, fun unused => by simp [usable] at unused, kept.once.append _⟩
  | dropResolver =>
    have dropped : Kept (x.happen .dropResolver).cell handed resolved :=
      ⟨kept.pending, nofun, kept.once⟩
    simpa [resolved?] using dropped
  | report source message => simpa [resolved?, Exchange.happen] using kept
  | pass nanos => simpa [resolved?, Exchange.happen] using kept

theorem Kept.happenAll (kept : Kept x.cell handed resolved) (is : List (Incident α)) :
    Kept (is.foldl Exchange.happen x).cell handed (resolved ++ is.filterMap resolved?) := by
  induction is generalizing x resolved with
  | nil => simpa using kept
  | cons i is ih =>
    have later := ih (kept.happen i)
    rwa [List.append_assoc, ← filterMap_cons_toList] at later

/-- A check hands over what the cell holds. -/
theorem found_check (x : Exchange α) : found [x.check.2] = x.cell.value.toList := by
  unfold Exchange.check Cell.tryGet
  cases x.cell.value with
  | some a => rfl
  | none => cases x.cell.resolver <;> rfl

theorem found_cons (answer : Except WaitError (Option α))
    (answers : List (Except WaitError (Option α))) :
    found (answer :: answers) = found [answer] ++ found answers :=
  List.filterMap_append (l := [answer])

theorem Kept.check (kept : Kept x.cell handed resolved) :
    Kept x.check.1.cell (handed ++ x.cell.value.toList) resolved := by
  cases value : x.cell.value with
  | none =>
    rw [check_of_none value, Option.toList_none, List.append_nil]
    exact kept
  | some a =>
    have after : x.check.1.cell = { x.cell with value := none } := by
      simp [Exchange.check, Cell.tryGet, value]
    have once := kept.once
    rw [value] at once
    rw [after]
    refine ⟨kept.pending, fun usable => ?_, by simpa using once⟩
    rw [(kept.unused usable).1] at value
    cases value

theorem Kept.live (kept : Kept x.cell handed resolved) (moves : List (Move α)) :
    Kept (x.live moves).1.cell (handed ++ found (x.live moves).2)
      (resolved ++ (incidentsOf moves).filterMap resolved?) := by
  induction moves generalizing x handed resolved with
  | nil => simpa [Exchange.live, found, incidentsOf] using kept
  | cons move moves ih =>
    cases move with
    | incident i =>
      have later := ih (kept.happen i)
      rwa [List.append_assoc, ← filterMap_cons_toList] at later
    | check =>
      have later := ih kept.check
      rwa [← found_check, List.append_assoc, ← found_cons] at later

theorem gained_map (ended : Option (Nat × Except WaitError α)) :
    gained (ended.map fun (n, verdict) => (n + 1, verdict)) = gained ended := by
  cases ended <;> rfl

/-- What a wait hands over comes on top of what was handed over before. -/
theorem Kept.waitUntil (kept : Kept x.cell handed resolved) (deadline : Nat)
    (schedule : PollSchedule) (incidents : List (List (Incident α))) :
    Once (handed ++ gained (waitUntil deadline schedule incidents x).2)
      (resolved ++ incidents.flatten.filterMap resolved?) := by
  induction incidents generalizing x resolved with
  | nil =>
    refine Once.append (kept.once.sublist ?_) _
    simp [Exchange.waitUntil, gained]
  | cons before later ih =>
    have kept := kept.happenAll before
    rw [List.flatten_cons, List.filterMap_append, ← List.append_assoc]
    cases polled : ((before.foldl Exchange.happen x).poll deadline schedule.timeout).2 with
    | some verdict =>
      rw [waitUntil_of_some polled]
      refine Once.append (kept.once.sublist ((List.Sublist.refl _).append ?_)) _
      cases (poll_eq_some_iff.mp polled).2 with
      | value value => simp [gained, value, Except.toOption]
      | reported | closed | timeout => exact List.nil_sublist _
    | none =>
      rw [waitUntil_of_none polled]
      have later := ih (kept.happen (.pass schedule.interval.nanos))
      simp only [resolved?, Option.toList_none, List.append_nil] at later
      rw [gained_map]
      exact later

end Kept

/-! ## The deadline -/

theorem now_happen (x : Exchange α) (i : Incident α) : x.now ≤ (x.happen i).now := by
  cases i with
  | pass nanos => exact Nat.le_add_right _ _
  | resolve | dropResolver | report => exact Nat.le_refl _

theorem now_happenAll (x : Exchange α) (is : List (Incident α)) :
    x.now ≤ (is.foldl happen x).now := by
  induction is generalizing x with
  | nil => exact Nat.le_refl _
  | cons i is ih => exact Nat.le_trans (now_happen x i) (ih _)

/-- Each nap takes its time. -/
theorem now_atPoll (x : Exchange α) (schedule : PollSchedule)
    (incidents : List (List (Incident α))) (n : Nat) :
    x.now + n * schedule.interval.nanos ≤ (x.atPoll schedule incidents n).now := by
  induction n with
  | zero =>
    rw [Nat.zero_mul]
    exact now_happenAll x _
  | succ n ih =>
    refine Nat.le_trans ?_ (now_happenAll _ _)
    rw [Nat.succ_mul, ← Nat.add_assoc]
    exact Nat.add_le_add_right ih _

/-- A wait ends at the first poll that finds a value, a cell that can get none any more, a reported
error or the deadline, with the verdict that this calls for, and it ends once its naps reach the
deadline.  On a fresh cell, a poll finds the first use of the resolving half before it, all errors
reported before it and the time that has passed.  Whatever happened to the cell before, its value
is handed over at most once, and it is the first value that the resolving half was used with. -/
theorem wait_of_incidents (schedule : PollSchedule) :
    (∀ (x : Exchange α) (incidents : List (List (Incident α))),
      let at_ := x.atPoll schedule incidents
      let deadline := x.now + schedule.timeout.nanos
      (∀ n verdict, (x.wait schedule incidents).2 = some (n, verdict) ↔
        n < incidents.length ∧ (∀ k < n, ¬ (at_ k).Decides deadline) ∧
        (at_ n).Decides deadline ∧ (at_ n).Verdict schedule.timeout verdict) ∧
      ((x.wait schedule incidents).2 = none ↔
        ∀ k < incidents.length, ¬ (at_ k).Decides deadline) ∧
      ∀ n < incidents.length, schedule.timeout.nanos ≤ n * schedule.interval.nanos →
        (x.wait schedule incidents).2 ≠ none) ∧
    (∀ (journal : Option Journal) (now : Nat) (incidents : List (List (Incident α))) (n : Nat),
      After journal (now + n * schedule.interval.nanos) (incidents.take (n + 1)).flatten
        ((fresh journal now).atPoll schedule incidents n)) ∧
    ∀ (journal : Option Journal) (now : Nat) (moves : List (Move α))
      (incidents : List (List (Incident α))),
      let (x, answers) := (fresh journal now).live moves
      Once (found answers ++ gained (x.wait schedule incidents).2)
        ((incidentsOf moves ++ incidents.flatten).filterMap resolved?) := by
  refine ⟨fun x incidents => ⟨fun n verdict => waitUntil_eq_some_iff, waitUntil_eq_none_iff,
    fun n inside long => ?_⟩,
    fun journal now incidents n => after_atPoll journal now schedule incidents n,
    fun journal now moves incidents => ?_⟩
  · intro open_
    refine waitUntil_eq_none_iff.mp open_ n inside (.inr (.inr (.inr ?_)))
    exact Nat.le_trans (Nat.add_le_add_left long _) (now_atPoll x schedule incidents n)
  · have kept := Kept.live (x := (fresh journal now : Exchange α)) kept_fresh moves
    have once := kept.waitUntil (((fresh journal now).live moves).1.now + schedule.timeout.nanos)
      schedule incidents
    rw [List.filterMap_append]
    rwa [List.nil_append, List.nil_append] at once

end PacedLoad.Exchange
