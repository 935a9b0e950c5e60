import Mathlib.Order.MinMax
import PacedLoad.Time.Basic

/-!
# The order of instants

Instants are ordered as their nanoseconds are.  The instant just before another
one is the greatest of all that lie below it.
-/

namespace PacedLoad.Instant

instance : LinearOrder Instant where
  le_refl a := Nat.le_refl a.nanos
  le_trans _ _ _ first second := Nat.le_trans first second
  le_antisymm _ _ below above := ext (Nat.le_antisymm below above)
  le_total a b := Nat.le_total a.nanos b.nanos
  lt_iff_le_not_ge a b := Nat.lt_iff_le_and_not_ge (m := a.nanos) (n := b.nanos)
  toDecidableLE := inferInstance
  toDecidableLT := inferInstance
  toDecidableEq := inferInstance
  min_def _ _ := rfl
  max_def _ _ := rfl
  compare_eq_compareOfLessAndEq a b := by
    change compare a.nanos b.nanos = compareOfLessAndEq a b
    simp only [Nat.compare_eq_ite_lt, compareOfLessAndEq, lt_iff, Instant.ext_iff]
    split
    · rfl
    · split <;> split <;> first | rfl | omega

theorem first_le (t : Instant) : first ≤ t := Nat.zero_le _

theorem le_last (t : Instant) : t ≤ last := Nat.le_of_lt_succ t.nanos_lt

theorem stepBack_eq (t : Instant) :
    t.stepBack = if t.nanos = 0 then none else ofNanos? (t.nanos - 1) := by
  have bound := t.nanos_lt
  unfold stepBack ofNanos?
  rw [dif_pos (show t.nanos - 1 < 18446744073709551616 by omega)]

/-- Only the first instant has none before it. -/
theorem stepBack_eq_none {t : Instant} : t.stepBack = none ↔ t = first := by
  unfold stepBack
  split
  next zero => simpa [Instant.ext_iff, first] using zero
  next positive => simpa [Instant.ext_iff, first] using positive

/-- The instant just before `t` bounds exactly what lies below `t`. -/
theorem le_stepBack {t before : Instant} (stepped : t.stepBack = some before) (v : Instant) :
    v ≤ before ↔ v < t := by
  unfold stepBack at stepped
  split at stepped
  · cases stepped
  · cases stepped
    simp only [le_iff, lt_iff]
    omega

/-! ## Instants that may be unknown

An unknown instant stands below every known one. -/

theorem some_le_stepBack {t v : Instant} : some v ≤ t.stepBack ↔ v < t := by
  cases stepped : t.stepBack with
  | none =>
    rw [stepBack_eq_none.mp stepped]
    exact ⟨fun le => absurd le Option.not_some_le_none,
      fun below => absurd (first_le v) (not_le_of_gt below)⟩
  | some before => rw [Option.some_le_some, le_stepBack stepped]

theorem le_of_reached {a b : Option Instant} (reached : ∀ v, some v ≤ a → some v ≤ b) : a ≤ b := by
  cases a with
  | none => exact Option.none_le
  | some t => exact reached t (Option.some_le_some.mpr le_rfl)

theorem eq_of_reached {a b : Option Instant} (reached : ∀ v, some v ≤ a ↔ some v ≤ b) : a = b := by
  have below := le_of_reached fun v => (reached v).mp
  have above := le_of_reached fun v => (reached v).mpr
  cases a with
  | none =>
    cases b with
    | none => rfl
    | some u => exact absurd above Option.not_some_le_none
  | some t =>
    cases b with
    | none => exact absurd below Option.not_some_le_none
    | some u =>
      exact congrArg some
        (le_antisymm (Option.some_le_some.mp below) (Option.some_le_some.mp above))

theorem reached_trans {v : Instant} {a b : Option Instant} (reached : some v ≤ a) (le : a ≤ b) :
    some v ≤ b := by
  cases a with
  | none => exact absurd reached Option.not_some_le_none
  | some t =>
    cases b with
    | none => exact absurd le Option.not_some_le_none
    | some u =>
      exact Option.some_le_some.mpr
        (le_trans (Option.some_le_some.mp reached) (Option.some_le_some.mp le))

end PacedLoad.Instant
