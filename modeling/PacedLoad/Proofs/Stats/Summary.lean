import Mathlib.Algebra.BigOperators.Group.List.Basic
import Mathlib.Algebra.Order.BigOperators.Group.List
import Mathlib.Data.List.Sort
import PacedLoad.Proofs.Stats.Rank

/-!
# What a summary says

A summary describes the samples that were recorded, whatever their order: how many there
are, the extremes, the mean, and percentiles as order statistics.  A percentile is the
least sample that the given share of the samples does not exceed.
-/

namespace PacedLoad.Stats

/-- The least sample that at least `p` percent of the samples do not exceed. -/
structure IsPercentile (p : ℕ) (samples : List ℕ) (x : ℕ) : Prop where
  member : x ∈ samples
  enough : p * samples.length ≤ 100 * samples.countP (· ≤ x)
  least : ∀ y ∈ samples, p * samples.length ≤ 100 * samples.countP (· ≤ y) → x ≤ y

/-- The sample at position `⌈p * n / 100⌉`, counted from 1, of the `n` samples in ascending
order. -/
def AtRank (p : ℕ) (samples : List ℕ) (x : ℕ) : Prop :=
  ∀ sorted : List ℕ, sorted.Perm samples → sorted.Pairwise (· ≤ ·) →
    sorted[⌈(p * samples.length : ℚ) / 100⌉₊ - 1]? = some x

/-- What a summary says of the samples. -/
structure Summary.Describes (s : Summary) (samples : List ℕ) : Prop where
  count : s.count = samples.length
  least : s.least ∈ samples ∧ ∀ x ∈ samples, s.least ≤ x
  greatest : s.greatest ∈ samples ∧ ∀ x ∈ samples, x ≤ s.greatest
  mean : s.mean = samples.sum / samples.length
  percentile : ∀ p x, (p, x) ∈ [(50, s.p50), (90, s.p90), (95, s.p95), (99, s.p99)] →
    AtRank p samples x ∧ IsPercentile p samples x

/-! ## Extremes of a growing list -/

section Extremes

variable {α : Type} {xs ys : List α}

theorem min?_concat [Min α] (xs : List α) (x : α) :
    (xs ++ [x]).min? = some (xs.min?.elim x fun least => min least x) := by
  cases xs with
  | nil => rfl
  | cons head rest =>
    simp only [List.cons_append, List.min?_cons', List.foldl_append, List.foldl_cons, List.foldl_nil,
      Option.elim_some]

theorem max?_concat [Max α] (xs : List α) (x : α) :
    (xs ++ [x]).max? = some (xs.max?.elim x fun greatest => max greatest x) := by
  cases xs with
  | nil => rfl
  | cons head rest =>
    simp only [List.cons_append, List.max?_cons', List.foldl_append, List.foldl_cons, List.foldl_nil,
      Option.elim_some]

theorem min?_perm [LinearOrder α] (perm : xs.Perm ys) : xs.min? = ys.min? := by
  ext t
  rw [List.min?_eq_some_iff, List.min?_eq_some_iff]
  simp only [perm.mem_iff]

theorem max?_perm [LinearOrder α] (perm : xs.Perm ys) : xs.max? = ys.max? := by
  ext t
  rw [List.max?_eq_some_iff, List.max?_eq_some_iff]
  simp only [perm.mem_iff]

end Extremes

/-! ## Ascending samples -/

section Ascending

variable {sorted samples : List ℕ} {p i x y : ℕ}

/-- As many samples as stand up to a place do not exceed `y` exactly if the one at that place does
not. -/
theorem lt_countP_iff (ascends : sorted.Pairwise (· ≤ ·)) (inside : i < sorted.length) (y : ℕ) :
    i < sorted.countP (· ≤ y) ↔ sorted[i] ≤ y := by
  induction sorted generalizing i with
  | nil => cases inside
  | cons head rest ih =>
    obtain ⟨above, tail⟩ := List.pairwise_cons.mp ascends
    rw [List.countP_cons]
    by_cases first : head ≤ y
    · cases i with
      | zero => simp [first]
      | succ i =>
        rw [List.getElem_cons_succ, ← ih tail (Nat.lt_of_succ_lt_succ inside)]
        simp [first]
    · have none : rest.countP (· ≤ y) = 0 := by
        rw [List.countP_eq_zero]
        intro z member
        simp only [decide_eq_true_eq]
        exact fun le => first ((above z member).trans le)
      have least : head ≤ (head :: rest)[i] := by
        cases i with
        | zero => exact le_rfl
        | succ i => exact above _ (List.getElem_mem (Nat.lt_of_succ_lt_succ inside))
      simp only [none, first, decide_false, Bool.false_eq_true, if_false, Nat.add_zero, Nat.not_lt_zero,
        false_iff]
      exact fun le => first (least.trans le)

theorem ascending_perm (samples : List ℕ) : (ascending samples).Perm samples :=
  List.mergeSort_perm samples _

theorem ascending_pairwise (samples : List ℕ) : (ascending samples).Pairwise (· ≤ ·) := by
  have sorted : (ascending samples).Pairwise fun a b => decide (a ≤ b) = true :=
    List.pairwise_mergeSort (fun a b c ab bc => by simp only [decide_eq_true_eq] at *; exact ab.trans bc)
      (fun a b => by simpa using le_total a b) samples
  exact sorted.imp fun le => of_decide_eq_true le

/-- There is one way to put samples in ascending order. -/
theorem eq_ascending (perm : sorted.Perm samples) (ascends : sorted.Pairwise (· ≤ ·)) :
    sorted = ascending samples :=
  (perm.trans (ascending_perm samples).symm).eq_of_pairwise
    (fun _ _ _ _ below above => le_antisymm below above) ascends (ascending_pairwise samples)

/-- The rank of a percentile is a place in the list. -/
theorem rank_bounds {n : ℕ} (least : 0 < p) (greatest : p ≤ 100) (some : 0 < n) :
    0 < ⌈(p * n : ℚ) / 100⌉₊ ∧ ⌈(p * n : ℚ) / 100⌉₊ ≤ n := by
  constructor
  · rw [← Nat.not_le, ceil_hundredths_le_iff]
    exact not_le_of_gt (Nat.mul_pos least some)
  · rw [ceil_hundredths_le_iff]
    exact Nat.mul_le_mul_right n greatest

/-- The sample at the rank of a percentile. -/
theorem nearestRank_atRank (least : 0 < p) (greatest : p ≤ 100) (some : samples ≠ [])
    (exact : (((Binary64.ofNat p).div (Binary64.ofNat 100)).mul
      (Binary64.ofNat samples.length)).ceilNat = ⌈(p * samples.length : ℚ) / 100⌉₊) :
    AtRank p samples (nearestRank (ascending samples) (Binary64.ofNat p)) := by
  obtain ⟨lo, hi⟩ := rank_bounds least greatest (List.length_pos_iff.mpr some)
  intro sorted perm ascends
  have length : (ascending samples).length = samples.length := (ascending_perm samples).length_eq
  rw [eq_ascending perm ascends, nearestRank, rank, length, exact, Nat.min_eq_right hi,
    Nat.max_eq_right lo, List.getD_eq_getElem?_getD]
  rw [List.getElem?_eq_getElem (by omega), Option.getD_some]

/-- The sample at the rank of a percentile is the least that enough samples do not exceed. -/
theorem AtRank.isPercentile (least : 0 < p) (greatest : p ≤ 100) (some : samples ≠ [])
    (atRank : AtRank p samples x) : IsPercentile p samples x := by
  obtain ⟨lo, hi⟩ := rank_bounds least greatest (List.length_pos_iff.mpr some)
  have perm := ascending_perm samples
  obtain ⟨inside, here⟩ := List.getElem?_eq_some_iff.mp
    (atRank _ perm (ascending_pairwise samples))
  have enough (y : ℕ) : p * samples.length ≤ 100 * samples.countP (· ≤ y) ↔ x ≤ y := by
    rw [← ceil_hundredths_le_iff, ← perm.countP_eq, ← here,
      ← lt_countP_iff (ascending_pairwise samples) inside]
    omega
  exact ⟨perm.mem_iff.mp (here ▸ List.getElem_mem inside), (enough x).mpr le_rfl,
    fun y _ => (enough y).mp⟩

/-- Greater percentiles are not below smaller ones. -/
theorem IsPercentile.mono {q : ℕ} (le : p ≤ q) (first : IsPercentile p samples x)
    (second : IsPercentile q samples y) : x ≤ y :=
  first.least y second.member ((Nat.mul_le_mul_right _ le).trans second.enough)

end Ascending

/-! ## Recorders -/

namespace Recorder

def recordAll (durations : List Span) : Recorder := durations.foldl record empty

/-- The recorder holds the samples, and what it keeps along the way is right. -/
structure Holds (r : Recorder) (samples : List ℕ) : Prop where
  held : r.samples = samples
  total : r.total = samples.sum
  least : samples ≠ [] → samples.min? = some r.least
  greatest : samples ≠ [] → samples.max? = some r.greatest

variable {r r' : Recorder} {samples samples' : List ℕ}

theorem holds_empty : empty.Holds [] :=
  ⟨rfl, rfl, fun some => absurd rfl some, fun some => absurd rfl some⟩

theorem Holds.record (holds : r.Holds samples) (d : Span) :
    (r.record d).Holds (samples ++ [d.clampedNanos]) := by
  obtain ⟨same, total, least, greatest⟩ := holds
  subst same
  refine ⟨rfl, ?_, fun _ => ?_, fun _ => ?_⟩
  · rw [List.sum_append, ← total]
    simp [Recorder.record]
  · rw [min?_concat]
    by_cases first : r.samples = []
    · simp [Recorder.record, first]
    · simp [Recorder.record, first, least first]
  · rw [max?_concat]
    by_cases first : r.samples = []
    · simp [Recorder.record, first]
    · simp [Recorder.record, first, greatest first]

theorem holds_recordAll (durations : List Span) :
    (recordAll durations).Holds (durations.map Span.clampedNanos) := by
  induction durations using List.reverseRecOn with
  | nil => exact holds_empty
  | append_singleton durations d ih =>
    rw [recordAll, List.foldl_append, List.map_append]
    exact ih.record d

/-- Samples of 64 bits have a mean of 64 bits. -/
theorem mean_lt (some : samples ≠ []) (small : ∀ x ∈ samples, x < 18446744073709551616) :
    samples.sum / samples.length < 18446744073709551616 := by
  have pos := List.length_pos_iff.mpr some
  have bound := List.sum_le_card_nsmul samples 18446744073709551615
    fun x member => Nat.le_of_lt_succ (small x member)
  rw [smul_eq_mul] at bound
  refine Nat.div_lt_of_lt_mul (bound.trans_lt ?_)
  exact Nat.mul_lt_mul_of_pos_left (by decide) pos

theorem clampedNanos_lt (durations : List Span) :
    ∀ x ∈ durations.map Span.clampedNanos, x < 18446744073709551616 := by
  simp only [List.mem_map, Span.clampedNanos]
  omega

/-- No sum needs more than 128 bits. -/
theorem total_lt {durations : List Span} (few : durations.length ≤ 2 ^ 64) :
    (recordAll durations).total < 2 ^ 128 := by
  have bound := List.sum_le_card_nsmul (durations.map Span.clampedNanos) 18446744073709551615
    fun x member => Nat.le_of_lt_succ (clampedNanos_lt durations x member)
  rw [smul_eq_mul, List.length_map] at bound
  rw [(holds_recordAll durations).total]
  omega

/-- The summary of samples of which the ranks are exact. -/
theorem Holds.describes (holds : r.Holds samples) (some : samples ≠ [])
    (small : ∀ x ∈ samples, x < 18446744073709551616) (exact : ExactRanks samples.length) :
    r.summary.Describes samples := by
  obtain ⟨rfl, total, least, greatest⟩ := holds
  have full : r.samples.isEmpty = false := by simpa using some
  have atRank (p : ℕ) (member : p ∈ percentiles) (least : 0 < p) (greatest : p ≤ 100) :
      AtRank p r.samples (nearestRank (ascending r.samples) (Binary64.ofNat p)) :=
    nearestRank_atRank least greatest some (exact p member)
  simp only [summary, full, Bool.false_eq_true, if_false]
  refine ⟨rfl, List.min?_eq_some_iff.mp (least some), List.max?_eq_some_iff.mp (greatest some), ?_,
    fun p x member => ?_⟩
  · rw [total]
    exact Nat.mod_eq_of_lt (mean_lt some small)
  · have here : 0 < p ∧ p ≤ 100 ∧ AtRank p r.samples x := by
      simp only [List.mem_cons, List.not_mem_nil, or_false, Prod.mk.injEq] at member
      rcases member with ⟨rfl, rfl⟩ | ⟨rfl, rfl⟩ | ⟨rfl, rfl⟩ | ⟨rfl, rfl⟩
      all_goals exact ⟨by decide, by decide, atRank _ (by decide) (by decide) (by decide)⟩
    exact ⟨here.2.2, here.2.2.isPercentile here.1 here.2.1 some⟩

/-- The summary depends on which samples were recorded, and not on their order. -/
theorem Holds.summary_congr (first : r.Holds samples) (second : r'.Holds samples')
    (perm : samples.Perm samples') : r.summary = r'.summary := by
  obtain ⟨rfl, total, least, greatest⟩ := first
  obtain ⟨rfl, total', least', greatest'⟩ := second
  by_cases none : r.samples = []
  · have none' : r'.samples = [] := List.Perm.eq_nil (none ▸ perm.symm)
    simp [summary, none, none']
  · have some' : r'.samples ≠ [] := fun none' => none (List.Perm.eq_nil (none' ▸ perm))
    have sorted : ascending r.samples = ascending r'.samples :=
      eq_ascending ((ascending_perm _).trans perm) (ascending_pairwise _)
    have leastSame : r.least = r'.least :=
      Option.some.inj ((least none).symm.trans ((min?_perm perm).trans (least' some')))
    have greatestSame : r.greatest = r'.greatest :=
      Option.some.inj ((greatest none).symm.trans ((max?_perm perm).trans (greatest' some')))
    have totalSame : r.total = r'.total := by rw [total, total', perm.sum_eq]
    have full : r.samples.isEmpty = false := by simpa using none
    have full' : r'.samples.isEmpty = false := by simpa using some'
    simp only [summary, full, full', Bool.false_eq_true, if_false, count, perm.length_eq, sorted,
      leastSame, greatestSame, totalSame]

end Recorder

/-- The order of what a summary says. -/
theorem Summary.Describes.ordered {s : Summary} {samples : List ℕ} (describes : s.Describes samples)
    (some : samples ≠ []) :
    (s.least ≤ s.p50 ∧ s.p50 ≤ s.p90 ∧ s.p90 ≤ s.p95 ∧ s.p95 ≤ s.p99 ∧ s.p99 ≤ s.greatest) ∧
      s.least ≤ s.mean ∧ s.mean ≤ s.greatest := by
  have p50 := (describes.percentile 50 s.p50 (by simp)).2
  have p90 := (describes.percentile 90 s.p90 (by simp)).2
  have p95 := (describes.percentile 95 s.p95 (by simp)).2
  have p99 := (describes.percentile 99 s.p99 (by simp)).2
  refine ⟨⟨describes.least.2 _ p50.member, p50.mono (by decide) p90, p90.mono (by decide) p95,
    p95.mono (by decide) p99, describes.greatest.2 _ p99.member⟩, ?_, ?_⟩
  · have bound := List.card_nsmul_le_sum samples s.least describes.least.2
    rw [describes.mean, Nat.le_div_iff_mul_le (List.length_pos_iff.mpr some), Nat.mul_comm]
    exact bound
  · have bound := List.sum_le_card_nsmul samples s.greatest describes.greatest.2
    rw [describes.mean]
    exact Nat.div_le_of_le_mul bound

/-- The summary of durations, of which those that do not fit 64 bits of nanoseconds count as the
greatest that does.  It is exact whenever the ranks are, which they are for up to `2 ^ 45`
durations.  The sum fits 128 bits and the mean 64 bits, and the order of the durations does not
matter. -/
theorem summary_of_durations :
    (∀ n, 0 < n → n ≤ 2 ^ 45 → ExactRanks n) ∧
    (∀ durations : List Span, durations ≠ [] → ExactRanks durations.length →
      let samples := durations.map fun d => min d.nanos 18446744073709551615
      let s := (Recorder.recordAll durations).summary
      s.Describes samples ∧
        (s.least ≤ s.p50 ∧ s.p50 ≤ s.p90 ∧ s.p90 ≤ s.p95 ∧ s.p95 ≤ s.p99 ∧ s.p99 ≤ s.greatest) ∧
        s.least ≤ s.mean ∧ s.mean ≤ s.greatest ∧ s.greatest < 2 ^ 64) ∧
    (∀ durations : List Span, durations.length ≤ 2 ^ 64 →
      (Recorder.recordAll durations).total =
        (durations.map fun d => min d.nanos 18446744073709551615).sum ∧
      (Recorder.recordAll durations).total < 2 ^ 128) ∧
    ∀ durations durations' : List Span,
      (durations.map fun d => min d.nanos 18446744073709551615).Perm
        (durations'.map fun d => min d.nanos 18446744073709551615) →
      (Recorder.recordAll durations).summary = (Recorder.recordAll durations').summary := by
  refine ⟨fun n some few => exactRanks some few, fun durations some exact => ?_,
    fun durations few => ⟨(Recorder.holds_recordAll durations).total, Recorder.total_lt few⟩,
    fun durations durations' perm =>
      (Recorder.holds_recordAll durations).summary_congr (Recorder.holds_recordAll durations') perm⟩
  have small := Recorder.clampedNanos_lt durations
  have some' : durations.map Span.clampedNanos ≠ [] := by simpa using some
  have describes := (Recorder.holds_recordAll durations).describes some' small
    (by rwa [List.length_map])
  obtain ⟨ranks, low, high⟩ := describes.ordered some'
  exact ⟨describes, ranks, low, high, small _ describes.greatest.1⟩

/-- Four durations, of which one does not fit 64 bits of nanoseconds and two are equal. -/
def wideDurations : List Span :=
  [⟨30, by decide⟩, ⟨10, by decide⟩, ⟨36893488147419103232, by decide⟩, ⟨10, by decide⟩]

/-- The summary of the four durations, and the same one in reverse. -/
theorem summary_of_durations_wide :
    ExactRanks wideDurations.length ∧
      (Recorder.recordAll wideDurations).summary.Describes [30, 10, 18446744073709551615, 10] ∧
      (Recorder.recordAll wideDurations).summary.mean = 4611686018427387916 ∧
      (Recorder.recordAll wideDurations).summary.p50 = 10 ∧
      (Recorder.recordAll wideDurations.reverse).summary =
        (Recorder.recordAll wideDurations).summary := by
  obtain ⟨exact, describes, -, anyOrder⟩ := summary_of_durations
  have ranks : ExactRanks wideDurations.length := exact 4 (by decide) (by decide)
  have summary : (Recorder.recordAll wideDurations).summary.Describes
      [30, 10, 18446744073709551615, 10] := (describes wideDurations (by decide) ranks).1
  have second := (summary.percentile 50 (Recorder.recordAll wideDurations).summary.p50
    (by simp)).1 [10, 10, 30, 18446744073709551615] (by decide) (by decide)
  have place : ⌈((50 : ℕ) * (4 : ℕ) : ℚ) / 100⌉₊ - 1 = 1 := by norm_num
  refine ⟨ranks, summary, summary.mean, ?_, ?_⟩
  · simp only [List.length_cons, List.length_nil, Nat.reduceAdd, place] at second
    exact (Option.some.inj second).symm
  · exact anyOrder _ _ ((List.reverse_perm wideDurations).map _)

end PacedLoad.Stats
