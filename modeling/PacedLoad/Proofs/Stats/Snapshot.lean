import Mathlib.Algebra.BigOperators.Group.List.Lemmas
import Mathlib.Order.Bounds.Basic
import PacedLoad.Proofs.Stats.Summary
import PacedLoad.Proofs.Stats.Tally
import PacedLoad.Proofs.Time.Order

/-!
# What a snapshot says

A snapshot describes the results that were counted, whatever their order.  Results without
a kind are turned away one by one and leave no trace.
-/

namespace PacedLoad.Stats

def ofKind (kind : String) (results : List OperationResult) : List OperationResult :=
  results.filter (·.operation.kind = kind)

/-- What the summary of one kind says of the results of that kind. -/
structure KindSummary.Describes (s : KindSummary) (own : List OperationResult) : Prop where
  count : s.count = own.length
  failureCount : s.failureCount = own.countP (·.resultCode ≠ 0)
  runTime : s.runTime = (Recorder.recordAll (own.map (·.runDuration))).summary
  startDelay : s.startDelay = (Recorder.recordAll (own.map (·.startDelay))).summary

/-- What a snapshot says of the results that were counted. -/
structure Snapshot.Describes (s : Snapshot) (counted : List OperationResult) : Prop where
  operationCount : s.operationCount = counted.length
  total : (s.operations.map (·.count)).sum = counted.length
  ascending : (s.operations.map (·.kind)).Pairwise (· < ·)
  kinds : ∀ kind, kind ∈ s.operations.map (·.kind) ↔ ∃ r ∈ counted, r.operation.kind = kind
  operations : ∀ entry ∈ s.operations, entry.Describes (ofKind entry.kind counted)
  startTime : ∀ t, s.startTime = some t ↔ IsLeast {u | ∃ r ∈ counted, r.actualStart = u} t
  latestFinishTime : ∀ t, s.latestFinishTime = some t ↔
    IsGreatest {u | ∃ r ∈ counted,
      u.nanos = min (r.actualStart.nanos + r.runDuration.nanos) 18446744073709551615} t
  runtime : ∀ first latest, s.startTime = some first → s.latestFinishTime = some latest →
    first ≤ latest ∧ s.totalRuntimeMillis = (latest.nanos - first.nanos) / 1000000
  nothing : counted = [] →
    s.startTime = none ∧ s.latestFinishTime = none ∧ s.totalRuntimeMillis = 0
  something : counted ≠ [] → s.startTime.isSome ∧ s.latestFinishTime.isSome

/-! ## Statistics of one kind -/

namespace KindStats

def measureAll (own : List OperationResult) : KindStats := own.foldl measure empty

theorem measureAll_concat (own : List OperationResult) (r : OperationResult) :
    measureAll (own ++ [r]) = (measureAll own).measure r := by
  simp [measureAll]

theorem measureAll_eq (own : List OperationResult) :
    measureAll own = ⟨Recorder.recordAll (own.map (·.runDuration)),
      Recorder.recordAll (own.map (·.startDelay)), own.countP (·.resultCode ≠ 0)⟩ := by
  induction own using List.reverseRecOn with
  | nil => rfl
  | append_singleton own r ih =>
    rw [measureAll_concat, ih]
    by_cases success : r.resultCode = 0 <;>
      simp [measure, Recorder.recordAll, List.countP_append, success]

/-- The number of samples is the number of results. -/
theorem recordAll_count (durations : List Span) :
    (Recorder.recordAll durations).count = durations.length := by
  rw [Recorder.count, (Recorder.holds_recordAll durations).held, List.length_map]

/-- The summary of one kind describes its results. -/
theorem summary_describes (kind : String) (own : List OperationResult) :
    ((measureAll own).summary kind).Describes own := by
  rw [measureAll_eq]
  exact ⟨(recordAll_count _).trans (List.length_map _), rfl, rfl, rfl⟩

/-- The order of the results does not matter. -/
theorem summary_perm {own own' : List OperationResult} (perm : own.Perm own') (kind : String) :
    (measureAll own).summary kind = (measureAll own').summary kind := by
  have same (f : OperationResult → Span) : (Recorder.recordAll (own.map f)).summary =
      (Recorder.recordAll (own'.map f)).summary :=
    (Recorder.holds_recordAll _).summary_congr (Recorder.holds_recordAll _)
      ((perm.map f).map Span.clampedNanos)
  simp only [measureAll_eq, summary, recordAll_count, same, List.length_map, perm.length_eq,
    perm.countP_eq]

end KindStats

/-! ## Workloads -/

namespace Workload

/-- Offers a result.  One that can not be counted changes nothing. -/
def offer (w : Workload) (r : OperationResult) : Workload :=
  match w.measure r with
  | .ok v => v
  | .error _ => w

def offerAll (w : Workload) (results : List OperationResult) : Workload := results.foldl offer w

/-- All that the workload keeps is right for the results that were counted. -/
structure Counted (w : Workload) (counted : List OperationResult) : Prop where
  sorted : Keyed.Sorted w.kinds
  kinds : ∀ kind, Keyed.find? kind w.kinds =
    if ofKind kind counted = [] then none else some (KindStats.measureAll (ofKind kind counted))
  operationCount : w.operationCount = counted.length
  firstStart : w.firstStart = (counted.map (·.actualStart)).min?
  latestFinish : w.latestFinish = (counted.map (·.finish)).max?

variable {w v : Workload} {counted : List OperationResult} {r : OperationResult}

theorem counted_start (now : Instant) : (start now).Counted [] :=
  ⟨List.Pairwise.nil, fun _ => rfl, rfl, rfl, rfl⟩

/-- What was found under a kind, or the statistics of no results. -/
theorem Counted.find?_getD (holds : w.Counted counted) (kind : String) :
    (Keyed.find? kind w.kinds).getD KindStats.empty = KindStats.measureAll (ofKind kind counted) := by
  rw [holds.kinds]
  split
  next none =>
    rw [none]
    rfl
  next => rfl

/-- One result more. -/
theorem Counted.measure (holds : w.Counted counted) (measured : w.measure r = .ok v) :
    v.Counted (counted ++ [r]) := by
  obtain ⟨count, here, others⟩ := measure_ok measured
  have own (kind : String) : ofKind kind (counted ++ [r]) =
      ofKind kind counted ++ if r.operation.kind = kind then [r] else [] := by
    by_cases same : r.operation.kind = kind <;> simp [ofKind, same]
  simp only [Workload.measure] at measured
  split at measured
  · cases measured
  cases measured
  refine ⟨Keyed.sorted_insert holds.sorted _ _, fun kind => ?_, ?_, ?_, ?_⟩
  · rw [own]
    by_cases same : r.operation.kind = kind
    · subst same
      rw [here, holds.find?_getD, if_pos rfl, if_neg (by simp), KindStats.measureAll_concat]
    · rw [others kind (Ne.symm same), if_neg same, List.append_nil]
      exact holds.kinds kind
  · rw [List.length_append, ← holds.operationCount]
    rfl
  · rw [List.map_append, List.map_cons, List.map_nil, min?_concat, ← holds.firstStart]
  · rw [List.map_append, List.map_cons, List.map_nil, max?_concat, ← holds.latestFinish]

/-- A result without a kind can not be counted. -/
theorem offer_nameless (w : Workload) (nameless : r.operation.kind = "") :
    w.measure r = .error (.noKind r.operation.id) ∧ w.offer r = w := by
  have refused : w.measure r = .error (.noKind r.operation.id) := by
    simp only [Workload.measure, nameless, if_true]
  exact ⟨refused, by rw [offer, refused]⟩

/-- A result with a kind is counted. -/
theorem offer_named (w : Workload) (named : r.operation.kind ≠ "") :
    ∃ v, w.measure r = .ok v ∧ w.offer r = v := by
  simp only [offer, Workload.measure, named, if_false]
  exact ⟨_, rfl, rfl⟩

theorem offerAll_concat (w : Workload) (results : List OperationResult) (r : OperationResult) :
    w.offerAll (results ++ [r]) = (w.offerAll results).offer r := by
  simp [offerAll]

/-- A workload has counted the results that have a kind. -/
theorem counted_offerAll (now : Instant) (results : List OperationResult) :
    ((start now).offerAll results).Counted (results.filter (·.operation.kind ≠ "")) := by
  induction results using List.reverseRecOn with
  | nil => exact counted_start now
  | append_singleton results r ih =>
    rw [offerAll_concat, List.filter_append]
    by_cases nameless : r.operation.kind = ""
    · obtain ⟨-, same⟩ := offer_nameless ((start now).offerAll results) nameless
      have none : [r].filter (·.operation.kind ≠ "") = [] := by simp [nameless]
      rw [none, List.append_nil, same]
      exact ih
    · obtain ⟨v, measured, same⟩ := offer_named ((start now).offerAll results) nameless
      have one : [r].filter (·.operation.kind ≠ "") = [r] := by simp [nameless]
      rw [one, same]
      exact ih.measure measured

/-! ### The snapshot of what was counted -/

/-- The entries of the snapshot under their kinds. -/
def shown (w : Workload) : Keyed KindSummary := w.kinds.map fun e => (e.1, e.2.summary e.1)

theorem find?_shown (w : Workload) (kind : String) :
    Keyed.find? kind w.shown = (Keyed.find? kind w.kinds).map (·.summary kind) :=
  Keyed.find?_map KindStats.summary w.kinds kind

theorem Counted.sorted_shown (holds : w.Counted counted) : Keyed.Sorted w.shown :=
  List.pairwise_map.mpr holds.sorted

theorem operations_eq (w : Workload) : w.snapshot.operations = w.shown.map Prod.snd := by
  simp [snapshot, shown]

theorem kinds_eq (w : Workload) : w.snapshot.operations.map (·.kind) = w.kinds.map Prod.fst := by
  simp [snapshot, KindStats.summary]

/-- There are statistics of exactly the kinds that were counted. -/
theorem Counted.mem_kinds (holds : w.Counted counted) (kind : String) :
    kind ∈ w.kinds.map Prod.fst ↔ ∃ r ∈ counted, r.operation.kind = kind := by
  have some : ofKind kind counted ≠ [] ↔ ∃ r ∈ counted, r.operation.kind = kind := by
    simp [ofKind, List.filter_eq_nil_iff]
  rw [← some]
  constructor
  · intro member none
    obtain ⟨⟨kind, stats⟩, stands, rfl⟩ := List.mem_map.mp member
    have found := holds.kinds kind
    rw [if_pos none, Keyed.find?_of_mem holds.sorted stands] at found
    cases found
  · intro some
    have found := holds.kinds kind
    rw [if_neg some] at found
    exact List.mem_map_of_mem (Keyed.mem_of_find? found)

/-- Each entry describes the results of its kind. -/
theorem Counted.describes_kind (holds : w.Counted counted) {entry : KindSummary}
    (member : entry ∈ w.snapshot.operations) : entry.Describes (ofKind entry.kind counted) := by
  obtain ⟨⟨kind, stats⟩, stands, rfl⟩ := List.mem_map.mp member
  have found := holds.kinds kind
  rw [Keyed.find?_of_mem holds.sorted stands] at found
  split at found
  · cases found
  · rw [Option.some.inj found]
    exact KindStats.summary_describes kind _

/-- The kinds divide the results: each result stands under exactly one of them. -/
theorem sum_ofKind {kinds : List String} (nodup : kinds.Nodup)
    (known : ∀ kind, kind ∈ kinds ↔ ∃ r ∈ counted, r.operation.kind = kind) :
    (kinds.map fun kind => (ofKind kind counted).length).sum = counted.length := by
  set present := counted.map (·.operation.kind) with all
  have counts (kind : String) : (ofKind kind counted).length = present.count kind := by
    rw [ofKind, ← List.countP_eq_length_filter, all, List.count, List.countP_map]
    rfl
  have perm : kinds.Perm present.dedup :=
    (List.perm_ext_iff_of_nodup nodup (List.nodup_dedup _)).mpr fun kind => by
      rw [List.mem_dedup, known, all, List.mem_map]
  calc (kinds.map fun kind => (ofKind kind counted).length).sum
      = (kinds.map present.count).sum := by simp only [counts]
    _ = (present.dedup.map present.count).sum := (perm.map _).sum_eq
    _ = present.length := List.sum_map_count_dedup_eq_length present
    _ = counted.length := List.length_map _

theorem Counted.total (holds : w.Counted counted) :
    (w.snapshot.operations.map (·.count)).sum = counted.length := by
  have counts : w.snapshot.operations.map (·.count) =
      (w.kinds.map Prod.fst).map fun kind => (ofKind kind counted).length := by
    rw [← kinds_eq, List.map_map]
    exact List.map_congr_left fun entry member => (holds.describes_kind member).count
  rw [counts]
  exact sum_ofKind (Keyed.nodup_keys holds.sorted) holds.mem_kinds

/-- No result finishes before it starts, so that the latest finish is not before the first start. -/
theorem Counted.first_le_latest (holds : w.Counted counted) {first latest : Instant}
    (known : w.firstStart = some first) (known' : w.latestFinish = some latest) :
    first ≤ latest := by
  rw [holds.firstStart, List.min?_eq_some_iff] at known
  rw [holds.latestFinish, List.max?_eq_some_iff] at known'
  obtain ⟨r, member, rfl⟩ := List.mem_map.mp known.1
  refine le_trans ?_ (known'.2 r.finish (List.mem_map_of_mem member))
  have bound := r.actualStart.nanos_lt
  simp only [OperationResult.finish, Instant.le_iff, Instant.plus_nanos]
  omega

theorem runtime_of_known {first latest : Instant}
    (known : w.firstStart = some first) (known' : w.latestFinish = some latest) :
    w.snapshot.totalRuntimeMillis = (latest.nanos - first.nanos) / 1000000 := by
  have bound := latest.nanos_lt
  simp only [snapshot, totalRuntime, known, known', Span.lowMillis, Span.wholeMillis, nanosPerMilli,
    Instant.since_nanos]
  omega

/-- The snapshot describes the results that were counted. -/
theorem Counted.describes (holds : w.Counted counted) : w.snapshot.Describes counted where
  operationCount := holds.operationCount
  total := holds.total
  ascending := by
    rw [kinds_eq]
    exact List.pairwise_map.mpr holds.sorted
  kinds kind := by
    rw [kinds_eq]
    exact holds.mem_kinds kind
  operations _ member := holds.describes_kind member
  startTime t := by
    change w.firstStart = some t ↔ _
    rw [holds.firstStart, List.min?_eq_some_iff]
    simp [IsLeast, lowerBounds]
  latestFinishTime t := by
    have finish (r : OperationResult) (u : Instant) : r.finish = u ↔
        u.nanos = min (r.actualStart.nanos + r.runDuration.nanos) 18446744073709551615 := by
      rw [Instant.ext_iff, OperationResult.finish, Instant.plus_nanos, eq_comm]
    change w.latestFinish = some t ↔ _
    rw [holds.latestFinish, List.max?_eq_some_iff]
    simp only [← finish]
    simp [IsGreatest, upperBounds]
  runtime _ _ known known' :=
    ⟨holds.first_le_latest known known', runtime_of_known known known'⟩
  nothing empty := by
    have first : w.firstStart = none := by rw [holds.firstStart, empty]; rfl
    have latest : w.latestFinish = none := by rw [holds.latestFinish, empty]; rfl
    refine ⟨first, latest, ?_⟩
    simp [snapshot, totalRuntime, first, Span.lowMillis, Span.wholeMillis, Span.zero]
  something some := by
    constructor
    · change w.firstStart.isSome
      rw [holds.firstStart, Option.isSome_iff_ne_none, Ne, List.min?_eq_none_iff]
      simpa using some
    · change w.latestFinish.isSome
      rw [holds.latestFinish, Option.isSome_iff_ne_none, Ne, List.max?_eq_none_iff]
      simpa using some

/-- The order of what was counted does not matter. -/
theorem Counted.snapshot_perm {counted' : List OperationResult} (holds : w.Counted counted)
    (holds' : v.Counted counted') (perm : counted.Perm counted') : w.snapshot = v.snapshot := by
  have own (kind : String) : (ofKind kind counted).Perm (ofKind kind counted') := perm.filter _
  have shown : w.shown = v.shown := by
    refine Keyed.eq_of_find? holds.sorted_shown holds'.sorted_shown fun kind => ?_
    rw [find?_shown, find?_shown, holds.kinds, holds'.kinds]
    by_cases none : ofKind kind counted = []
    · have none' : ofKind kind counted' = [] := List.Perm.eq_nil (none ▸ (own kind).symm)
      rw [if_pos none, if_pos none']
    · have some' : ofKind kind counted' ≠ [] := fun none' =>
        none (List.Perm.eq_nil (none' ▸ own kind))
      rw [if_neg none, if_neg some', Option.map_some, Option.map_some,
        KindStats.summary_perm (own kind)]
  have operations : w.snapshot.operations = v.snapshot.operations := by
    rw [operations_eq, operations_eq, shown]
  have first : w.firstStart = v.firstStart := by
    rw [holds.firstStart, holds'.firstStart, min?_perm (perm.map _)]
  have latest : w.latestFinish = v.latestFinish := by
    rw [holds.latestFinish, holds'.latestFinish, max?_perm (perm.map _)]
  have count : w.operationCount = v.operationCount := by
    rw [holds.operationCount, holds'.operationCount, perm.length_eq]
  have runtime : w.totalRuntime = v.totalRuntime := by
    rw [totalRuntime, totalRuntime, first, latest]
  have throughput : w.snapshot.throughput = v.snapshot.throughput := by
    simp only [snapshot, count, runtime]
  rw [Snapshot.mk.injEq]
  exact ⟨first, latest, congrArg Span.lowMillis runtime, count, throughput, operations⟩

end Workload

/-- The snapshot after any results were offered.  One without a kind is turned away and changes
nothing; the snapshot describes exactly the others, and does not depend on their order. -/
theorem snapshot_of_results (now : Instant) :
    (∀ (w : Workload) (r : OperationResult),
      (r.operation.kind = "" → w.measure r = .error (.noKind r.operation.id) ∧ w.offer r = w) ∧
      (r.operation.kind ≠ "" → ∃ v, w.measure r = .ok v ∧ w.offer r = v)) ∧
    (∀ results : List OperationResult,
      ((Workload.start now).offerAll results).snapshot.Describes
        (results.filter (·.operation.kind ≠ ""))) ∧
    ∀ results results' : List OperationResult, results.Perm results' →
      ((Workload.start now).offerAll results).snapshot =
        ((Workload.start now).offerAll results').snapshot :=
  ⟨fun w _ => ⟨w.offer_nameless, w.offer_named⟩,
    fun results => (Workload.counted_offerAll now results).describes,
    fun results results' perm => (Workload.counted_offerAll now results).snapshot_perm
      (Workload.counted_offerAll now results') (perm.filter _)⟩

end PacedLoad.Stats
