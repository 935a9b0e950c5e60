import Mathlib.Data.List.Basic
import PacedLoad.Proofs.Watermark.Writer
import PacedLoad.Watermark.Tracker

/-!
# What a tracker stands for

The times of a tracker ascend up to its last initiated time.  As long as no number of
copies exceeds its 32 bits, a tracker stands for the writer that has every copy in a
place of its own, and each call does the same to both.
-/

namespace PacedLoad.Watermark

namespace Copies

variable {m : Copies} {t u : Instant}

/-- The times ascend strictly. -/
def Ascending (m : Copies) : Prop := m.Pairwise fun a b => a.1 < b.1

/-- No time stands there without a copy. -/
def Positive (m : Copies) : Prop := ∀ e ∈ m, 0 < e.2.toNat

/-- Each copy in a place of its own. -/
def expand (m : Copies) : List Instant := m.flatMap fun e => List.replicate e.2.toNat e.1

theorem expand_cons (e : Instant × UInt32) (m : Copies) :
    expand (e :: m) = List.replicate e.2.toNat e.1 ++ expand m :=
  List.flatMap_cons

theorem mem_add {e : Instant × UInt32} (member : e ∈ m.add t) : e.1 = t ∨ e ∈ m := by
  induction m with
  | nil => exact .inl (congrArg Prod.fst (List.mem_singleton.mp member))
  | cons head rest ih =>
    simp only [add] at member
    split at member
    · rcases List.mem_cons.mp member with rfl | old
      · exact .inl rfl
      · exact .inr old
    · split at member
      next same =>
        rcases List.mem_cons.mp member with rfl | old
        · exact .inl same.symm
        · exact .inr (List.mem_cons_of_mem _ old)
      next =>
        rcases List.mem_cons.mp member with rfl | later
        · exact .inr List.mem_cons_self
        · exact (ih later).imp_right (List.mem_cons_of_mem _)

theorem Ascending.add (ascending : m.Ascending) (t : Instant) : (m.add t).Ascending := by
  induction m with
  | nil => exact List.pairwise_singleton _ _
  | cons head rest ih =>
    obtain ⟨above, tail⟩ := List.pairwise_cons.mp ascending
    simp only [Copies.add]
    split
    next smaller =>
      refine List.pairwise_cons.mpr ⟨fun e member => ?_, ascending⟩
      rcases List.mem_cons.mp member with rfl | later
      · exact smaller
      · exact lt_trans smaller (above e later)
    next notSmaller =>
      split
      next => exact List.pairwise_cons.mpr ⟨above, tail⟩
      next different =>
        refine List.pairwise_cons.mpr ⟨fun e member => ?_, ih tail⟩
        rcases mem_add member with here | old
        · rw [here]
          exact lt_of_le_of_ne (le_of_not_gt notSmaller) (Ne.symm different)
        · exact above e old

theorem mem_remove {e : Instant × UInt32} (member : e ∈ m.remove t) :
    ∃ e' ∈ m, e'.1 = e.1 := by
  induction m with
  | nil => cases member
  | cons head rest ih =>
    simp only [remove] at member
    split at member
    · split at member
      · rcases List.mem_cons.mp member with rfl | old
        · exact ⟨head, List.mem_cons_self, rfl⟩
        · exact ⟨e, List.mem_cons_of_mem _ old, rfl⟩
      · exact ⟨e, List.mem_cons_of_mem _ member, rfl⟩
    · rcases List.mem_cons.mp member with rfl | later
      · exact ⟨_, List.mem_cons_self, rfl⟩
      · obtain ⟨e', old, same⟩ := ih later
        exact ⟨e', List.mem_cons_of_mem _ old, same⟩

theorem Ascending.remove (ascending : m.Ascending) (t : Instant) : (m.remove t).Ascending := by
  induction m with
  | nil => exact .nil
  | cons head rest ih =>
    obtain ⟨above, tail⟩ := List.pairwise_cons.mp ascending
    simp only [Copies.remove]
    split
    · split
      · exact List.pairwise_cons.mpr ⟨above, tail⟩
      · exact tail
    · refine List.pairwise_cons.mpr ⟨fun e member => ?_, ih tail⟩
      obtain ⟨e', old, same⟩ := mem_remove member
      exact same ▸ above e' old

/-- Where one copy more still fits, adding a time adds its copy. -/
theorem expand_add (ascending : m.Ascending) (below : ∀ e ∈ m, e.1 ≤ t)
    (room : m.expand.count t + 1 < 4294967296) : (m.add t).expand = m.expand ++ [t] := by
  induction m with
  | nil => rfl
  | cons head rest ih =>
    obtain ⟨above, tail⟩ := List.pairwise_cons.mp ascending
    obtain ⟨here, later⟩ := List.forall_mem_cons.mp below
    rw [expand_cons, List.count_append] at room
    simp only [add, if_neg (not_lt_of_ge here)]
    split
    next same =>
      subst same
      -- nothing stands behind the greatest time
      have ended : rest = [] := List.eq_nil_iff_forall_not_mem.mpr fun e member =>
        absurd (above e member) (not_lt_of_ge (later e member))
      subst ended
      rw [List.count_replicate_self] at room
      have number : (head.2 + 1).toNat = head.2.toNat + 1 := by
        rw [UInt32.toNat_add, UInt32.toNat_one]
        omega
      rw [expand_cons, expand_cons, number, List.replicate_succ']
      simp [expand]
    next =>
      rw [expand_cons, expand_cons, ih tail later (by omega), List.append_assoc]

/-- Removing a time takes one of its copies away. -/
theorem expand_remove (positive : m.Positive) (t : Instant) :
    (m.remove t).expand = m.expand.erase t := by
  induction m with
  | nil => rfl
  | cons head rest ih =>
    obtain ⟨here, later⟩ := List.forall_mem_cons.mp positive
    simp only [remove]
    rw [expand_cons]
    split
    next same =>
      subst same
      obtain ⟨n, number⟩ : ∃ n, head.2.toNat = n + 1 := ⟨head.2.toNat - 1, by omega⟩
      rw [number, List.replicate_succ, List.cons_append, List.erase_cons_head]
      split
      next more =>
        have fewer : (head.2 - 1).toNat = n := by
          rw [UInt32.toNat_sub_of_le _ _ (UInt32.le_of_lt more), UInt32.toNat_one]
          omega
        rw [expand_cons, fewer]
      next single =>
        have none : n = 0 := by
          rw [UInt32.lt_iff_toNat_lt, UInt32.toNat_one] at single
          omega
        rw [none]
        rfl
    next different =>
      have foreign : t ∉ List.replicate head.2.toNat head.1 :=
        fun member => different (List.eq_of_mem_replicate member)
      rw [expand_cons, ih later, List.erase_append_right _ foreign]

theorem mem_expand (positive : m.Positive) : t ∈ m.expand ↔ ∃ n, m.find? t = some n := by
  induction m with
  | nil => simp [expand, find?]
  | cons head rest ih =>
    obtain ⟨here, later⟩ := List.forall_mem_cons.mp positive
    rw [expand_cons, List.mem_append, ih later, List.mem_replicate]
    simp only [find?]
    split
    next same =>
      subst same
      simp [Nat.ne_of_gt here]
    next different => simp [different]

theorem Positive.add (positive : m.Positive) (room : m.expand.count t + 1 < 4294967296) :
    (m.add t).Positive := by
  induction m with
  | nil =>
    intro e member
    rw [List.mem_singleton.mp member]
    exact Nat.one_pos
  | cons head rest ih =>
    obtain ⟨here, later⟩ := List.forall_mem_cons.mp positive
    rw [expand_cons, List.count_append] at room
    simp only [Copies.add]
    split
    · exact List.forall_mem_cons.mpr ⟨Nat.one_pos, positive⟩
    · split
      next same =>
        subst same
        rw [List.count_replicate_self] at room
        refine List.forall_mem_cons.mpr ⟨?_, later⟩
        simp only [UInt32.toNat_add, UInt32.toNat_one]
        omega
      next => exact List.forall_mem_cons.mpr ⟨here, ih later (by omega)⟩

theorem Positive.remove (positive : m.Positive) (t : Instant) : (m.remove t).Positive := by
  induction m with
  | nil => exact positive
  | cons head rest ih =>
    obtain ⟨here, later⟩ := List.forall_mem_cons.mp positive
    simp only [Copies.remove]
    split
    · split
      next more =>
        refine List.forall_mem_cons.mpr ⟨?_, later⟩
        simp only [UInt32.toNat_sub_of_le _ _ (UInt32.le_of_lt more), UInt32.toNat_one]
        rw [UInt32.lt_iff_toNat_lt, UInt32.toNat_one] at more
        omega
      next => exact later
    · exact List.forall_mem_cons.mpr ⟨here, ih later⟩

theorem size_eq (m : Copies) : m.size = m.expand.length := by
  induction m with
  | nil => rfl
  | cons e rest ih => simp [size, expand_cons, ih]

end Copies

namespace Tracker

variable {w : Tracker} {t : Instant}

/-- Times ascend, and none is above the last initiated one. -/
structure Ordered (w : Tracker) : Prop where
  ascending : w.outstanding.Ascending
  bounded : ∀ e ∈ w.outstanding, ∃ last, w.lastInitiated = some last ∧ e.1 ≤ last

/-- The writer with every copy in a place of its own. -/
def plain (w : Tracker) : Writer := ⟨w.outstanding.expand, w.lastInitiated⟩

@[simp] theorem plain_lastInitiated : w.plain.lastInitiated = w.lastInitiated := rfl

theorem Ordered.fresh : fresh.Ordered := ⟨.nil, nofun⟩

/-- No outstanding time is above one that may be initiated next. -/
theorem Ordered.below (ordered : w.Ordered)
    (late : ∀ last, w.lastInitiated = some last → last ≤ t) : ∀ e ∈ w.outstanding, e.1 ≤ t := by
  intro e member
  obtain ⟨last, known, le⟩ := ordered.bounded e member
  exact le_trans le (late last known)

theorem Ordered.add (ordered : w.Ordered)
    (late : ∀ last, w.lastInitiated = some last → last ≤ t) : (w.add t).Ordered := by
  refine ⟨ordered.ascending.add t, fun e member => ⟨t, rfl, ?_⟩⟩
  rcases Copies.mem_add member with here | old
  · exact le_of_eq here
  · exact ordered.below late e old

theorem Ordered.remove (ordered : w.Ordered) (t : Instant) :
    Ordered { w with outstanding := w.outstanding.remove t } := by
  refine ⟨ordered.ascending.remove t, fun e member => ?_⟩
  obtain ⟨e', old, same⟩ := Copies.mem_remove member
  exact same ▸ ordered.bounded e' old

/-- A time is accepted exactly if it is not below the last one. -/
theorem initiated_ok {after : Tracker} :
    w.initiated t = (after, .ok ()) ↔
      (∀ last, w.lastInitiated = some last → last ≤ t) ∧ after = w.add t := by
  unfold initiated
  cases w.lastInitiated with
  | none => simp [eq_comm]
  | some last =>
    by_cases early : t < last
    · simp [early]
    · simp [early, le_of_not_gt early, eq_comm]

/-- A completion is accepted exactly if its time has an entry. -/
theorem completed_ok {after : Tracker} :
    w.completed t = (after, .ok ()) ↔
      (∃ n, w.outstanding.find? t = some n) ∧
        after = { w with outstanding := w.outstanding.remove t } := by
  unfold completed
  cases w.outstanding.find? t <;> simp [eq_comm]

theorem initiated_refused {after : Tracker} {v : Violation}
    (refused : w.initiated t = (after, .error v)) : after = w := by
  unfold initiated at refused
  split at refused
  · cases refused
  · split at refused <;> cases refused
    rfl

theorem completed_refused {after : Tracker} {v : Violation}
    (refused : w.completed t = (after, .error v)) : after = w := by
  unfold completed at refused
  split at refused <;> cases refused
  rfl

/-! ## Completion times before and after a call -/

/-- An accepted time moves the completion time only when nothing else is outstanding. -/
theorem completionTime_add (ordered : w.Ordered)
    (late : ∀ last, w.lastInitiated = some last → last ≤ t) :
    (w.add t).completionTime = if w.outstanding = [] then t.stepBack else w.completionTime := by
  unfold completionTime add
  cases content : w.outstanding with
  | nil => rfl
  | cons head rest =>
    have notSmaller : ¬ t < head.1 :=
      not_lt_of_ge (ordered.below late head (content ▸ List.mem_cons_self))
    rw [if_neg (List.cons_ne_nil head rest), Copies.add, if_neg notSmaller]
    by_cases same : t = head.1
    · rw [if_pos same]
    · rw [if_neg same]

/-- The writer has nothing outstanding, and `t` is its last time. -/
def ClosedAt (w : Tracker) (t : Instant) : Prop := w.lastInitiated = some t ∧ w.outstanding = []

/-- A completion time goes back only when a closed time is opened again. -/
theorem completionTime_le_add (ordered : w.Ordered)
    (late : ∀ last, w.lastInitiated = some last → last ≤ t) (notClosed : ¬ w.ClosedAt t) :
    w.completionTime ≤ (w.add t).completionTime := by
  rw [completionTime_add ordered late]
  split
  next empty =>
    refine Instant.le_of_reached fun v reached => Instant.some_le_stepBack.mpr ?_
    rw [completionTime, empty] at reached
    cases known : w.lastInitiated with
    | none =>
      rw [known] at reached
      exact absurd reached Option.not_some_le_none
    | some last =>
      rw [known] at reached
      have different : last ≠ t := fun same => notClosed ⟨same ▸ known, empty⟩
      exact lt_of_le_of_lt (Option.some_le_some.mp reached)
        (lt_of_le_of_ne (late last known) different)
  next => exact Instant.le_of_reached fun v reached => reached

/-- All that is left is later than the earliest time. -/
theorem stepBack_le_rest (ordered : w.Ordered) {e : Instant × UInt32} {rest : Copies}
    (content : w.outstanding = e :: rest) :
    e.1.stepBack ≤ completionTime { w with outstanding := rest } := by
  refine Instant.le_of_reached fun v reached => ?_
  have below : v < e.1 := Instant.some_le_stepBack.mp reached
  cases rest with
  | nil =>
    obtain ⟨last, known, le⟩ := ordered.bounded e (content ▸ List.mem_cons_self)
    simp only [completionTime, known]
    exact Option.some_le_some.mpr (le_trans (le_of_lt below) le)
  | cons next later =>
    have ascending := ordered.ascending
    rw [content] at ascending
    have above := (List.pairwise_cons.mp ascending).1 next List.mem_cons_self
    exact Instant.some_le_stepBack.mpr (lt_trans below above)

/-- Completing a time never takes the completion time back. -/
theorem completionTime_le_remove (ordered : w.Ordered) (t : Instant) :
    w.completionTime ≤
      completionTime { w with outstanding := w.outstanding.remove t } := by
  have unchanged (v : Option Instant) : v ≤ v := Instant.le_of_reached fun _ reached => reached
  cases content : w.outstanding with
  | nil =>
    simp only [completionTime, content]
    exact unchanged _
  | cons e rest =>
    rw [Copies.remove, completionTime, content]
    by_cases same : t = e.1
    · rw [if_pos same]
      by_cases more : 1 < e.2
      · rw [if_pos more]
        exact unchanged _
      · rw [if_neg more]
        exact stepBack_le_rest ordered content
    · rw [if_neg same]
      exact unchanged _

/-! ## The writer that a tracker stands for -/

theorem plain_add (ordered : w.Ordered) (late : ∀ last, w.lastInitiated = some last → last ≤ t)
    (room : w.plain.outstanding.count t + 1 < 4294967296) : (w.add t).plain = w.plain.add t := by
  unfold plain add Writer.add
  rw [Copies.expand_add ordered.ascending (ordered.below late) room]

/-- Both accept a time, or both refuse it for the same reason. -/
theorem plain_initiated (ordered : w.Ordered)
    (room : (∀ last, w.lastInitiated = some last → last ≤ t) →
      w.plain.outstanding.count t + 1 < 4294967296) :
    w.plain.initiated t = (w.initiated t).2.map fun _ => (w.initiated t).1.plain := by
  have added (late : ∀ last, w.lastInitiated = some last → last ≤ t) :=
    plain_add ordered late (room late)
  unfold initiated Writer.initiated
  rw [plain_lastInitiated]
  cases known : w.lastInitiated with
  | none =>
    refine congrArg Except.ok (added ?_).symm
    rw [known]
    exact nofun
  | some last =>
    by_cases early : t < last
    · simp only [if_pos early]
      rfl
    · simp only [if_neg early]
      refine congrArg Except.ok (added ?_).symm
      rw [known]
      rintro _ ⟨⟩
      exact le_of_not_gt early

theorem plain_completed (positive : w.outstanding.Positive) (t : Instant) :
    w.plain.completed t = (w.completed t).2.map fun _ => (w.completed t).1.plain := by
  unfold completed Writer.completed
  cases found : w.outstanding.find? t with
  | none =>
    have absent : t ∉ w.plain.outstanding := by
      intro member
      obtain ⟨n, there⟩ := (Copies.mem_expand positive).mp member
      cases found.symm.trans there
    rw [if_neg absent]
    rfl
  | some n =>
    have present : t ∈ w.plain.outstanding := (Copies.mem_expand positive).mpr ⟨n, found⟩
    rw [if_pos present]
    refine congrArg Except.ok ?_
    unfold plain
    rw [Copies.expand_remove positive]

theorem plain_completionTime (positive : w.outstanding.Positive) :
    w.plain.completionTime = w.completionTime := by
  unfold completionTime Writer.completionTime plain
  cases content : w.outstanding with
  | nil => rfl
  | cons e rest =>
    have first : 0 < e.2.toNat := positive e (content ▸ List.mem_cons_self)
    obtain ⟨n, number⟩ : ∃ n, e.2.toNat = n + 1 := ⟨e.2.toNat - 1, by omega⟩
    rw [Copies.expand_cons, number, List.replicate_succ]
    rfl

end Tracker

end PacedLoad.Watermark
