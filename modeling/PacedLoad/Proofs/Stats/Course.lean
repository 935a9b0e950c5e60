import PacedLoad.Proofs.Service.Course
import PacedLoad.Proofs.Stats.Tally
import PacedLoad.Stats.Service

/-!
# The statistics service over any queue

Whatever stands in the queue, a snapshot shows exactly the earlier results that
pass the filter.  The policy is asked once about each result that needs its
judgement, every result is offered to the log once, and what the log makes of it
has no effect on anything else.
-/

namespace PacedLoad

open Message (Enough Continued Ticketed)

/-- The journal after the policy was asked about several operations. -/
def DelayPolicy.judgeAll (p : DelayPolicy) (ops : List Operation) (j : Journal) : Journal :=
  ops.foldl (fun j op => (p.judge op j).2) j

theorem DelayPolicy.judgeAll_append (p : DelayPolicy) (first second : List Operation)
    (j : Journal) : p.judgeAll (first ++ second) j = p.judgeAll second (p.judgeAll first j) :=
  List.foldl_append

/-- The journal keeps each question. -/
theorem DelayPolicy.judgeAll_judged (p : DelayPolicy) (ops : List Operation) (j : Journal) :
    (p.judgeAll ops j).judged = j.judged ++ ops := by
  induction ops generalizing j with
  | nil => simp [judgeAll]
  | cons op rest ih =>
    rw [judgeAll, List.foldl_cons, ← judgeAll, ih]
    simp [judge]

namespace Stats

def ResultsLog.offerAll (log : ResultsLog) (results : List OperationResult) : ResultsLog :=
  results.foldl (fun log r => (log.write r).1) log

namespace Collector

/-- Whether a result is counted when the policy was asked `asked` times before: the filter is off,
or it did not start too late, or its start was accepted before, or the policy accepts it. -/
def counts (c : Collector) (asked : Nat) (r : OperationResult) : Bool :=
  !c.recordStartDelay || !r.startedTooLate c.policy.tolerated || r.lateStartAccepted ||
    c.policy.accepts asked r.operation

/-- The operations that the policy is asked about: those of the results that need its judgement. -/
def questions (c : Collector) (results : List OperationResult) : List Operation :=
  (results.filter c.needsJudgement).map (·.operation)

/-- Those of several results that are counted when the policy was asked `asked` times before. -/
def counted (c : Collector) (asked : Nat) : List OperationResult → List OperationResult
  | [] => []
  | r :: rest =>
    let later := c.counted (asked + (c.questions [r]).length) rest
    if c.counts asked r then r :: later else later

variable {c : Collector} {j : Journal} {r : OperationResult}

theorem counts_eq (c : Collector) (asked : Nat) (r : OperationResult) :
    c.counts asked r = (!c.needsJudgement r || c.policy.accepts asked r.operation) := by
  simp [counts, needsJudgement, Bool.or_assoc]

theorem questions_append (c : Collector) (first second : List OperationResult) :
    c.questions (first ++ second) = c.questions first ++ c.questions second := by
  simp [questions]

theorem counted_single (c : Collector) (asked : Nat) (r : OperationResult) :
    c.counted asked [r] = if c.counts asked r then [r] else [] := rfl

theorem counted_append (c : Collector) (asked : Nat) (first second : List OperationResult) :
    c.counted asked (first ++ second) =
      c.counted asked first ++ c.counted (asked + (c.questions first).length) second := by
  induction first generalizing asked with
  | nil => rfl
  | cons r rest ih =>
    have more : (c.questions (r :: rest)).length =
        (c.questions [r]).length + (c.questions rest).length := by
      rw [← List.length_append, ← questions_append]
      rfl
    rw [more, ← Nat.add_assoc, List.cons_append, counted, counted, ih]
    split <;> rfl

/-- The policy is asked only about a result that needs its judgement. -/
theorem admits_eq (c : Collector) (r : OperationResult) (j : Journal) :
    c.admits r j = (c.counts j.judged.length r, c.policy.judgeAll (c.questions [r]) j) := by
  rw [counts_eq]
  unfold admits
  cases needed : c.needsJudgement r <;> simp [questions, needed, DelayPolicy.judgeAll, DelayPolicy.judge]

/-- All that a result does. -/
theorem collect_eq (c : Collector) (j : Journal) (r : OperationResult) :
    c.collect j r =
      let asked := c.policy.judgeAll (c.questions [r]) j
      if c.counts j.judged.length r then
        match c.workload.measure r with
        | .ok w => (({ c.offer r with workload := w }, asked), none)
        | .error e => ((c.offer r, asked), some (foldMessage r e))
      else ((c.offer r, asked), none) := by
  have admitted : (c.offer r).admits r j =
      (c.counts j.judged.length r, c.policy.judgeAll (c.questions [r]) j) :=
    (c.offer r).admits_eq r j
  unfold collect
  simp only [admitted]
  cases c.counts j.judged.length r <;> rfl

def withLog (c : Collector) (log : Option ResultsLog) : Collector := { c with log }

/-- A collector that goes by the rules of `c₀`, and whose log was offered several results. -/
structure Offered (c₀ : Collector) (log : Option ResultsLog) (results : List OperationResult)
    (c : Collector) : Prop where
  policy : c.policy = c₀.policy
  recordStartDelay : c.recordStartDelay = c₀.recordStartDelay
  log : c.log = log.map fun log => log.offerAll results

theorem offered_start (c₀ : Collector) (log : Option ResultsLog) :
    c₀.Offered log [] (c₀.withLog log) :=
  ⟨rfl, rfl, by cases log <;> rfl⟩

/-- One result more. -/
theorem Offered.offer {c₀ : Collector} {log : Option ResultsLog} {results : List OperationResult}
    (offered : c₀.Offered log results c) (r : OperationResult) :
    c₀.Offered log (results ++ [r]) (c.offer r) where
  policy := offered.policy
  recordStartDelay := offered.recordStartDelay
  log := by
    have again : ∀ log : ResultsLog, ((log.offerAll results).write r).1 =
        log.offerAll (results ++ [r]) := by simp [ResultsLog.offerAll]
    simp only [Collector.offer, offered.log, Option.map_map, Function.comp_def, again]

/-- The rules do not depend on the log. -/
theorem Offered.rules {c₀ : Collector} {log : Option ResultsLog} {results : List OperationResult}
    (offered : c₀.Offered log results c) (asked : Nat) (r : OperationResult) :
    c.counts asked r = c₀.counts asked r ∧ c.questions [r] = c₀.questions [r] := by
  have needs : c.needsJudgement = c₀.needsJudgement := by
    funext r
    rw [needsJudgement, needsJudgement, offered.policy, offered.recordStartDelay]
  rw [counts_eq, counts_eq, questions, questions, needs, offered.policy]
  exact ⟨rfl, rfl⟩

end Collector

abbrev Parcel := Message OperationResult Request

def resultsOf (seen : List Parcel) : List OperationResult := seen.filterMap Message.event?

theorem resultsOf_concat (seen : List Parcel) (m : Parcel) :
    resultsOf (seen ++ [m]) = resultsOf seen ++ m.event?.toList := by
  simp only [resultsOf, List.filterMap_append, List.filterMap_cons]
  cases m.event? <;> rfl

variable {c₀ c : Collector} {log : Option ResultsLog} {now : Nat → Instant} {j k : Journal}
  {seen parcels : List Parcel} {cells : List (Cell Answer)} {answers : List (Nat × Answer)}

/-- What the worker owns, and the journal, after the messages that it took. -/
structure Owned (c₀ : Collector) (log : Option ResultsLog) (j : Journal) (seen : List Parcel)
    (c : Collector) (k : Journal) : Prop where
  workload : c₀.workload.addAll (c₀.counted j.judged.length (resultsOf seen)) = .ok c.workload
  offered : c₀.Offered log (resultsOf seen) c
  journal : k = c₀.policy.judgeAll (c₀.questions (resultsOf seen)) j

theorem Owned.judged (owned : Owned c₀ log j seen c k) :
    k.judged.length = j.judged.length + (c₀.questions (resultsOf seen)).length := by
  rw [owned.journal, DelayPolicy.judgeAll_judged, List.length_append]

/-- The journal and the log after one result more. -/
theorem Owned.asked (owned : Owned c₀ log j seen c k) (r : OperationResult) :
    c.policy.judgeAll (c.questions [r]) k =
      c₀.policy.judgeAll (c₀.questions (resultsOf seen ++ [r])) j := by
  rw [owned.offered.policy, (owned.offered.rules 0 r).2, owned.journal,
    ← DelayPolicy.judgeAll_append, ← Collector.questions_append]

/-- Which results are counted when there is one more. -/
theorem Owned.counted (owned : Owned c₀ log j seen c k) (r : OperationResult) :
    c₀.counted j.judged.length (resultsOf seen ++ [r]) =
      c₀.counted j.judged.length (resultsOf seen) ++
        if c.counts k.judged.length r then [r] else [] := by
  rw [Collector.counted_append, Collector.counted_single, ← owned.judged,
    (owned.offered.rules k.judged.length r).1]

/-- A result that does not stop the worker. -/
theorem Owned.collect (owned : Owned c₀ log j seen c k) {r : OperationResult}
    (fine : (c.collect k r).2 = none) :
    Owned c₀ log j (seen ++ [.event r]) (c.collect k r).1.1 (c.collect k r).1.2 := by
  have journal := owned.asked r
  have offered := owned.offered.offer r
  have results : resultsOf (seen ++ [.event r]) = resultsOf seen ++ [r] := resultsOf_concat seen _
  have counted := owned.counted r
  rw [Collector.collect_eq] at fine ⊢
  rw [← results] at journal offered counted
  dsimp only at fine ⊢
  cases passes : c.counts k.judged.length r with
  | false =>
    simp only [passes, Bool.false_eq_true, if_false, List.append_nil] at counted ⊢
    exact ⟨by rw [counted]; exact owned.workload, offered, journal⟩
  | true =>
    simp only [passes, if_true] at counted fine ⊢
    cases measured : c.workload.measure r with
    | error e => simp [measured] at fine
    | ok w =>
      refine ⟨?_, ⟨offered.policy, offered.recordStartDelay, offered.log⟩, journal⟩
      rw [counted, Workload.addAll_concat, owned.workload]
      exact measured

/-- Messages other than results leave everything alone. -/
theorem Owned.other (owned : Owned c₀ log j seen c k) {m : Parcel} (other : m.event? = none) :
    Owned c₀ log j (seen ++ [m]) c k := by
  have same : resultsOf (seen ++ [m]) = resultsOf seen := by
    rw [resultsOf_concat, other, Option.toList_none, List.append_nil]
  exact ⟨by rw [same]; exact owned.workload, by rw [same]; exact owned.offered,
    by rw [same]; exact owned.journal⟩

theorem owned_of_took (took : Service.Took duty now (c₀.withLog log) j seen c k answers) :
    Owned c₀ log j seen c k := by
  induction took with
  | start => exact ⟨rfl, Collector.offered_start c₀ log, rfl⟩
  | event r before short fine ih => exact ih.collect fine
  | request r ticket before short ih => cases r <;> exact ih.other rfl
  | terminate n before short first ih => exact ih.other rfl

/-- The worker rejects a message when it has taken `seen`, and the policy was asked `asked` times
before that: a result without a kind that passes the filter, or a second last message. -/
inductive Rejects (c₀ : Collector) (asked : Nat) (seen : List Parcel) : Parcel → String → Prop
  | nameless {r : OperationResult} (nameless : r.operation.kind = "")
      (counted : c₀.counts (asked + (c₀.questions (resultsOf seen)).length) r = true) :
      Rejects c₀ asked seen (.event r) (Collector.foldMessage r (.noKind r.operation.id))
  | again {first n : Nat} (told : first ∈ seen.filterMap Message.expected?) :
      Rejects c₀ asked seen (.terminate n) (Worker.secondTermination first n)

/-- What the service, whose cells were `cells` at first, shows of the first `n` messages: the
results among them that pass the filter, and in the answers those among the messages before each
question. -/
structure Stands (c₀ : Collector) (asked : Nat) (now : Nat → Instant) (parcels : List Parcel)
    (cells : List (Cell Answer)) (n : Nat)
    (t : PacedLoad.Service Collector OperationResult Request Answer) : Prop where
  continued : Continued (parcels.take n)
  workload : c₀.workload.addAll (c₀.counted asked (resultsOf (parcels.take n))) =
    .ok t.worker.state.workload
  snapshot : ∀ i < n, ∀ ticket, parcels[i]? = some (.request .snapshot ticket) →
    ∃ w, c₀.workload.addAll (c₀.counted asked (resultsOf (parcels.take i))) = .ok w ∧
      Cell.valueAt t.cells ticket = Cell.arriving cells ticket (.snapshot w.snapshot)
  status : ∀ i < n, ∀ ticket, parcels[i]? = some (.request .status ticket) →
    ∃ w, c₀.workload.addAll (c₀.counted asked (resultsOf (parcels.take i))) = .ok w ∧
      Cell.valueAt t.cells ticket = Cell.arriving cells ticket (.status (w.status (now i)))
  unanswered : ∀ i, n ≤ i → ∀ r ticket, parcels[i]? = some (.request r ticket) →
    Cell.valueAt t.cells ticket = none

/-- The answers in the cells, in the words of the service. -/
theorem stands_of_took {n : Nat} {t : PacedLoad.Service Collector OperationResult Request Answer}
    (took : Service.Took duty now (c₀.withLog log) j (parcels.take n) c k answers)
    (workload : t.worker.state.workload = c.workload)
    (answered : Service.Answered duty now (c₀.withLog log) j parcels cells n t.cells) :
    Stands c₀ j.judged.length now parcels cells n t where
  continued := took.continued
  workload := by rw [workload, (owned_of_took took).workload]
  snapshot i inside ticket asked := by
    obtain ⟨before, _, _, earlier, value⟩ := answered.before i inside .snapshot ticket asked
    exact ⟨before.workload, (owned_of_took earlier).workload, value⟩
  status i inside ticket asked := by
    obtain ⟨before, _, _, earlier, value⟩ := answered.before i inside .status ticket asked
    exact ⟨before.workload, (owned_of_took earlier).workload, value⟩
  unanswered := answered.behind

/-- A message that the worker refuses is rejected by a rule.  A result is judged and offered to
the log all the same. -/
theorem rejects_of_refused (owned : Owned c₀ log j seen c k) {m : Parcel} {after : Collector}
    {last : Journal} {text : String} (refused : Service.Refused duty seen c k m after last text) :
    after.workload = c.workload ∧ c₀.Offered log (resultsOf (seen ++ [m])) after ∧
      last = c₀.policy.judgeAll (c₀.questions (resultsOf (seen ++ [m]))) j ∧
      Rejects c₀ j.judged.length seen m text := by
  cases refused with
  | terminate n told =>
    have next := owned.other (m := .terminate n) rfl
    exact ⟨rfl, next.offered, next.journal, .again (List.mem_of_head? told)⟩
  | event r failed =>
    have journal := owned.asked r
    have offered := owned.offered.offer r
    have results : resultsOf (seen ++ [.event r]) = resultsOf seen ++ [r] := resultsOf_concat seen _
    have rules := (owned.offered.rules k.judged.length r).1
    rw [← results] at journal offered
    change (c.collect k r).2 = some text at failed
    change (c.collect k r).1.1.workload = c.workload ∧ c₀.Offered log _ (c.collect k r).1.1 ∧
      (c.collect k r).1.2 = _ ∧ _
    rw [Collector.collect_eq] at failed ⊢
    dsimp only at failed ⊢
    cases passes : c.counts k.judged.length r with
    | false => simp [passes] at failed
    | true =>
      simp only [passes, if_true] at failed ⊢
      cases measured : c.workload.measure r with
      | ok w => simp [measured] at failed
      | error e =>
        simp only [measured, Option.some.injEq] at failed ⊢
        subst failed
        refine ⟨rfl, offered, journal, ?_⟩
        unfold Workload.measure at measured
        dsimp only at measured
        split at measured
        · next nameless =>
          cases measured
          exact .nameless nameless (by rw [← owned.judged, ← rules, passes])
        · cases measured

/-- The service over any queue, with any policy and any log.  The worker takes the first `n`
messages.  After each of them the workload holds the results so far that pass the filter, the log
was offered all results so far, and the policy was asked about those that need its judgement; the
service is complete exactly when there are as many results as a last message says.  If it does not
complete and messages are left, the next one is rejected: one error is reported, and nothing
happens after that. -/
theorem course_of_results (started : Instant) (policy : DelayPolicy) (recordStartDelay : Bool)
    (log : Option ResultsLog) (parcels : List Parcel) (cells : List (Cell Answer))
    (now : Nat → Instant) (j : Journal) (ticketed : Ticketed parcels cells) :
    let rules : Collector := ⟨Workload.start started, policy, recordStartDelay, none⟩
    let after := (Service.loaded (rules.withLog log) parcels cells).takes duty now j
    ∃ n ≤ parcels.length,
      (∀ k ≤ n, Stands rules j.judged.length now parcels cells k (after k).1 ∧
        (after k).1.worker.state.log =
          log.map (fun log => log.offerAll (resultsOf (parcels.take k))) ∧
        (after k).2 = policy.judgeAll (rules.questions (resultsOf (parcels.take k))) j ∧
        (after k).1.worker.phase =
          if Enough (parcels.take k) then .complete else .running) ∧
      (((n = parcels.length ∨ Enough (parcels.take n)) ∧ ∀ k ≥ n, after k = after n) ∨
        (¬ Enough (parcels.take n) ∧
          ∃ m text, parcels[n]? = some m ∧ Rejects rules j.judged.length (parcels.take n) m text ∧
            ∀ k > n, Stands rules j.judged.length now parcels cells n (after k).1 ∧
              (after k).1.worker.state.log =
                log.map (fun log => log.offerAll (resultsOf (parcels.take (n + 1)))) ∧
              (after k).2 = (policy.judgeAll
                (rules.questions (resultsOf (parcels.take (n + 1)))) j).report serviceName text ∧
              (after k).1.worker.phase = .failed)) := by
  intro rules after
  obtain ⟨n, inside, upTo, ended⟩ :=
    Service.course duty now (rules.withLog log) j parcels cells
  refine ⟨n, inside, fun i first => ?_, ended.imp_right ?_⟩
  · obtain ⟨c, last, answers, took⟩ := upTo i first
    obtain ⟨state, phase, journal, answered⟩ := took.shows (Nat.le_trans first inside) ticketed
    have owned := owned_of_took took
    exact ⟨stands_of_took took (congrArg Collector.workload state) answered,
      (congrArg Collector.log state).trans owned.offered.log, journal.trans owned.journal, phase⟩
  · rintro ⟨short, m, c, k, answers, c', k', text, place, took, refused⟩
    obtain ⟨workload, offered, asked, rejects⟩ := rejects_of_refused (owned_of_took took) refused
    rw [← Option.toList_some, ← place, ← List.take_add_one] at offered asked
    refine ⟨short, m, text, place, rejects, fun i later => ?_⟩
    obtain ⟨state, phase, journal, answered⟩ := refused.shows took short place ticketed i later
    have same := (congrArg Collector.workload state).trans workload
    exact ⟨stands_of_took took same answered, (congrArg Collector.log state).trans offered.log,
      journal.trans (by rw [asked]; rfl), phase⟩

/-- Accepts nothing but what it is asked second. -/
def second : DelayPolicy := ⟨.zero, fun asked _ => asked == 1, .silent⟩

/-- Three late results, of which the last has no kind, and then one without a kind in time. -/
def namelessParcels : List Parcel :=
  let result (id : Nat) (kind : String) (start : Instant) : OperationResult :=
    ⟨⟨id, kind, .first, none, .null⟩, start, .zero, 0, .null, false⟩
  [.event (result 0 "read" .last), .event (result 1 "read" .last), .request .snapshot 0,
    .event (result 2 "" .last), .event (result 3 "" .first), .terminate 1]

/-- The result without a kind that passes the filter is rejected, with a log that refuses every
write. -/
theorem course_of_namelessParcels :
    Ticketed namelessParcels [(Cell.fresh : Cell Answer)] ∧
      let rules : Collector := ⟨Workload.start .first, second, true, none⟩
      let log : ResultsLog := ⟨",", .bounded 0 none⟩
      let after := (Service.loaded (rules.withLog log) namelessParcels [Cell.fresh]).takes duty
        (fun _ => .first) Journal.empty
      ∃ n m text, namelessParcels[n]? = some m ∧
        Rejects rules 0 (namelessParcels.take n) m text ∧
        ∀ k > n, Stands rules 0 (fun _ => .first) namelessParcels [Cell.fresh] n (after k).1 ∧
          (after k).1.worker.phase = .failed := by
  have ticketed : Ticketed namelessParcels [(Cell.fresh : Cell Answer)] := by
    constructor <;> decide
  refine ⟨ticketed, ?_⟩
  intro rules log after
  obtain ⟨n, inside, upTo, ⟨-, stays⟩ | ⟨-, m, text, place, rejects, fails⟩⟩ :=
    course_of_results .first second true log namelessParcels _ (fun _ => .first) Journal.empty
      ticketed
  · obtain ⟨-, -, -, phase⟩ := upTo n (Nat.le_refl n)
    rw [← stays namelessParcels.length inside] at phase
    have failed : (after namelessParcels.length).1.worker.phase = .failed := rfl
    split at phase <;> cases failed.symm.trans phase
  · refine ⟨n, m, text, place, rejects, fun k later => ?_⟩
    obtain ⟨stands, -, -, phase⟩ := fails k later
    exact ⟨stands, phase⟩

end Stats

end PacedLoad
