import Mathlib.Data.List.Basic
import PacedLoad.Proofs.Time.Order
import PacedLoad.Watermark.Writer

/-!
# What a writer has outstanding

The outstanding times of a writer ascend up to its last initiated time.  Its
completion time is then the greatest time that is not above the last initiated
one and lies below all that is outstanding.
-/

namespace PacedLoad.Watermark.Writer

/-- Outstanding times ascend, and none is above the last initiated one. -/
structure Ordered (w : Writer) : Prop where
  ascending : w.outstanding.Pairwise (· ≤ ·)
  bounded : ∀ t ∈ w.outstanding, ∃ last, w.lastInitiated = some last ∧ t ≤ last

/-- An announcement is accepted exactly if it is not below the last one. -/
theorem initiated_ok {w after : Writer} {t : Instant} :
    w.initiated t = .ok after ↔
      (∀ last, w.lastInitiated = some last → last ≤ t) ∧ after = w.add t := by
  unfold initiated
  cases w.lastInitiated with
  | none => simp [eq_comm]
  | some last =>
    by_cases early : t < last
    · simp [early]
    · simp [early, le_of_not_gt early, eq_comm]

/-- A completion is accepted exactly if its time is outstanding. -/
theorem completed_ok {w after : Writer} {t : Instant} :
    w.completed t = .ok after ↔
      t ∈ w.outstanding ∧ after = { w with outstanding := w.outstanding.erase t } := by
  unfold completed
  by_cases member : t ∈ w.outstanding <;> simp [member, eq_comm]

theorem count_add (w : Writer) (t u : Instant) :
    (w.add t).outstanding.count u = w.outstanding.count u + if t = u then 1 else 0 := by
  simp [add, List.count_append, List.count_singleton]

/-- A completion takes one copy away. -/
theorem count_completed {w after : Writer} {t : Instant} (success : w.completed t = .ok after)
    (u : Instant) :
    w.outstanding.count u = after.outstanding.count u + if t = u then 1 else 0 := by
  obtain ⟨member, rfl⟩ := completed_ok.mp success
  have positive := List.count_pos_iff.mpr member
  simp only [List.count_erase, beq_iff_eq]
  split
  next same =>
    subst same
    omega
  next => omega

theorem Ordered.fresh : Ordered fresh := ⟨.nil, nofun⟩

theorem Ordered.initiated {w after : Writer} {t : Instant} (ordered : w.Ordered)
    (success : w.initiated t = .ok after) : after.Ordered := by
  obtain ⟨late, rfl⟩ := initiated_ok.mp success
  have below : ∀ u ∈ w.outstanding, u ≤ t := by
    intro u member
    obtain ⟨last, known, le⟩ := ordered.bounded u member
    exact le_trans le (late last known)
  constructor
  · exact List.pairwise_append.mpr ⟨ordered.ascending, List.pairwise_singleton _ t,
      fun u member v single => List.mem_singleton.mp single ▸ below u member⟩
  · intro u member
    rcases List.mem_append.mp member with earlier | single
    · exact ⟨t, rfl, below u earlier⟩
    · exact ⟨t, rfl, le_of_eq (List.mem_singleton.mp single)⟩

theorem Ordered.completed {w after : Writer} {t : Instant} (ordered : w.Ordered)
    (success : w.completed t = .ok after) : after.Ordered := by
  obtain ⟨-, rfl⟩ := completed_ok.mp success
  exact ⟨ordered.ascending.sublist List.erase_sublist,
    fun u member => ordered.bounded u (List.mem_of_mem_erase member)⟩

/-- The completion time is unknown before the first announcement, and while the first instant
is outstanding. -/
theorem completionTime_eq_none {w : Writer} (ordered : w.Ordered) :
    w.completionTime = none ↔ w.lastInitiated = none ∨ Instant.first ∈ w.outstanding := by
  unfold completionTime
  cases content : w.outstanding with
  | nil => simp
  | cons earliest rest =>
    have ascending := ordered.ascending
    rw [content] at ascending
    have initiated : w.lastInitiated ≠ none := by
      obtain ⟨last, known, -⟩ := ordered.bounded earliest (by simp [content])
      simp [known]
    simp only [initiated, false_or, Instant.stepBack_eq_none, List.mem_cons]
    constructor
    · exact fun zero => .inl zero.symm
    · rintro (zero | later)
      · exact zero.symm
      · exact le_antisymm ((List.pairwise_cons.mp ascending).1 _ later) (Instant.first_le _)

/-- What lies below a known completion time. -/
theorem le_completionTime {w : Writer} (ordered : w.Ordered) {known : Instant}
    (complete : w.completionTime = some known) (v : Instant) :
    v ≤ known ↔
      (∀ last, w.lastInitiated = some last → v ≤ last) ∧ ∀ t ∈ w.outstanding, v < t := by
  unfold completionTime at complete
  cases content : w.outstanding with
  | nil =>
    rw [content] at complete
    simp only at complete
    simp [complete]
  | cons earliest rest =>
    rw [content] at complete
    have ascending := ordered.ascending
    rw [content] at ascending
    rw [Instant.le_stepBack complete]
    constructor
    · intro below
      constructor
      · intro last initiated
        obtain ⟨last', initiated', bound⟩ := ordered.bounded earliest (by simp [content])
        rw [initiated] at initiated'
        cases initiated'
        exact le_trans (le_of_lt below) bound
      · intro t member
        rcases List.mem_cons.mp member with rfl | later
        · exact below
        · exact lt_of_lt_of_le below ((List.pairwise_cons.mp ascending).1 t later)
    · exact fun bounds => bounds.2 earliest List.mem_cons_self

/-- What a writer has reached. -/
theorem reached_iff {w : Writer} (ordered : w.Ordered) (v : Instant) :
    (∃ known, w.completionTime = some known ∧ v ≤ known) ↔
      (∃ last, w.lastInitiated = some last ∧ v ≤ last) ∧ ∀ t ∈ w.outstanding, v < t := by
  constructor
  · rintro ⟨known, complete, le⟩
    obtain ⟨below, above⟩ := (le_completionTime ordered complete v).mp le
    refine ⟨?_, above⟩
    cases initiated : w.lastInitiated with
    | none =>
      rw [(completionTime_eq_none ordered).mpr (.inl initiated)] at complete
      cases complete
    | some last => exact ⟨last, rfl, below last initiated⟩
  · rintro ⟨⟨last, initiated, le⟩, above⟩
    cases complete : w.completionTime with
    | none =>
      rcases (completionTime_eq_none ordered).mp complete with never | zero
      · rw [never] at initiated
        cases initiated
      · exact absurd (above _ zero) (not_lt_of_ge (Instant.first_le v))
    | some known =>
      refine ⟨known, rfl, (le_completionTime ordered complete v).mpr ⟨?_, above⟩⟩
      intro last' initiated'
      cases initiated.symm.trans initiated'
      exact le

end PacedLoad.Watermark.Writer
