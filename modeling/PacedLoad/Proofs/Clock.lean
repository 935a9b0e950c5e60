import Mathlib.Data.List.Basic
import PacedLoad.Clock
import PacedLoad.Proofs.Time.Order

/-!
# Simulated time never goes back

A clock that is read, moved forward and given other paces shows times that never
decrease, as long as the real moments of its calls do not.  What carries this over a
change of pace is that no later moment shows less than the last one that was looked at.
-/

namespace PacedLoad.WorldClock

/-- A call on a clock, with the real moments at which it looks at the machine's monotonic clock. -/
inductive Call
  | now (real : Nat)
  | advance (d : Span)
  | rescale (measured anchored : Nat) (scale : TimeScale)
deriving DecidableEq, Repr

def Call.moments : Call → List Nat
  | .now real => [real]
  | .advance _ => []
  | .rescale measured anchored _ => [measured, anchored]

/-- The real moments of several calls do not decrease. -/
def Chronological (calls : List Call) : Prop := (calls.flatMap Call.moments).Pairwise (· ≤ ·)

instance (calls : List Call) : Decidable (Chronological calls) :=
  inferInstanceAs (Decidable (List.Pairwise _ _))

def call (c : WorldClock) : Call → WorldClock
  | .now _ => c
  | .advance d => c.advance d
  | .rescale measured anchored scale => c.rescale measured anchored scale

def calls (c : WorldClock) (cs : List Call) : WorldClock := cs.foldl call c

/-- What the readings among several calls show. -/
def readings (c : WorldClock) : List Call → List Instant
  | [] => []
  | .now real :: rest => c.now real :: c.readings rest
  | .advance d :: rest => (c.advance d).readings rest
  | .rescale measured anchored scale :: rest => (c.rescale measured anchored scale).readings rest

/-- A call does not let a clock run that stands still. -/
def Call.keepsFixed : Call → Bool
  | .rescale _ _ scale => scale = .fixed
  | _ => true

/-- The spans by which several calls move a clock forward. -/
def advances (cs : List Call) : List Span :=
  cs.filterMap fun
    | .advance d => some d
    | _ => none

/-! ## One call -/

variable {c : WorldClock}

theorem apply_mono (scale : TimeScale) {a b : Span} (le : a ≤ b) :
    scale.apply a ≤ scale.apply b := by
  rw [Span.le_iff] at le ⊢
  cases scale with
  | normal => exact le
  | fast n =>
    have scaled : a.nanos * n ≤ b.nanos * n := Nat.mul_le_mul_right n le
    simp only [TimeScale.apply, Span.saturate]
    omega
  | slow n =>
    have scaled : a.nanos / n ≤ b.nanos / n := Nat.div_le_div_right le
    simp only [TimeScale.apply]
    split
    · exact Nat.le_refl _
    · simp only [Span.saturate]
      omega
  | fixed => exact Nat.le_refl _

theorem apply_zero (scale : TimeScale) : scale.apply (Span.saturate 0) = Span.zero := by
  cases scale with
  | normal | fixed => rfl
  | fast n => simp [TimeScale.apply, Span.saturate, Span.zero]
  | slow n => simp [TimeScale.apply, Span.saturate, Span.zero]

theorem plus_zero (t : Instant) : t.plus Span.zero = t := by
  have bound := t.nanos_lt
  ext
  simp only [Instant.plus_nanos, Span.zero]
  omega

theorem le_plus (t : Instant) (d : Span) : t ≤ t.plus d := by
  have bound := t.nanos_lt
  simp only [Instant.le_iff, Instant.plus_nanos]
  omega

/-- A clock that is left alone does not go back. -/
theorem now_mono (c : WorldClock) {real later : Nat} (le : real ≤ later) :
    c.now real ≤ c.now later := by
  have elapsed : Span.saturate (real - c.real) ≤ Span.saturate (later - c.real) := by
    simp only [Span.le_iff, Span.saturate]
    omega
  have scaled := Span.le_iff.mp (apply_mono c.scale elapsed)
  simp only [now, Instant.le_iff, Instant.plus_nanos]
  omega

/-- A change of pace goes on from what the clock shows. -/
theorem now_rescale (c : WorldClock) (measured anchored : Nat) (scale : TimeScale) :
    (c.rescale measured anchored scale).now anchored = c.now measured := by
  simp only [now, rescale, Nat.sub_self, apply_zero, plus_zero]

theorem now_advance (c : WorldClock) (real : Nat) (d : Span) :
    (c.advance d).now real = (c.now real).plus d := by
  ext
  simp only [now, advance, Instant.plus_nanos]
  omega

/-! ## Several calls -/

/-- From some real moment on the clock shows no less than some time. -/
def FromOn (c : WorldClock) (real : Nat) (t : Instant) : Prop := ∀ r, real ≤ r → t ≤ c.now r

theorem fromOn_now (c : WorldClock) (real : Nat) : c.FromOn real (c.now real) :=
  fun _ le => c.now_mono le

theorem FromOn.advance {real : Nat} {t : Instant} (from_ : c.FromOn real t) (d : Span) :
    (c.advance d).FromOn real t := by
  intro r le
  rw [now_advance]
  exact le_trans (from_ r le) (le_plus _ d)

theorem FromOn.rescale {real : Nat} {t : Instant} (from_ : c.FromOn real t) {measured : Nat}
    (later : real ≤ measured) (anchored : Nat) (scale : TimeScale) :
    (c.rescale measured anchored scale).FromOn anchored t := by
  intro r le
  have shown := now_mono (c.rescale measured anchored scale) le
  rw [now_rescale] at shown
  exact le_trans (from_ measured later) shown

/-- Readings at later moments show no less. -/
theorem FromOn.le_of_mem_readings {real : Nat} {t u : Instant} {cs : List Call}
    (from_ : c.FromOn real t) (chronological : Chronological cs)
    (after : ∀ r ∈ cs.flatMap Call.moments, real ≤ r) (member : u ∈ c.readings cs) : t ≤ u := by
  induction cs generalizing c real with
  | nil => cases member
  | cons k rest ih =>
    rw [Chronological, List.flatMap_cons] at chronological
    rw [List.flatMap_cons] at after
    have rest_chronological : Chronological rest := (List.pairwise_append.mp chronological).2.1
    cases k with
    | now r =>
      rcases List.mem_cons.mp member with rfl | member
      · exact from_ r (after r List.mem_cons_self)
      · exact ih from_ rest_chronological
          (fun r' inside => after r' (List.mem_append_right _ inside)) member
    | advance d =>
      exact ih (from_.advance d) rest_chronological
        (fun r' inside => after r' (List.mem_append_right _ inside)) member
    | rescale measured anchored scale =>
      refine ih (from_.rescale (after measured List.mem_cons_self) anchored scale)
        rest_chronological (fun r' inside => ?_) member
      exact (List.pairwise_append.mp chronological).2.2 anchored (by simp [Call.moments]) r' inside

/-- The readings among calls in the order of time never decrease. -/
theorem pairwise_readings (c : WorldClock) {cs : List Call} (chronological : Chronological cs) :
    (c.readings cs).Pairwise (· ≤ ·) := by
  induction cs generalizing c with
  | nil => exact List.Pairwise.nil
  | cons k rest ih =>
    have split := chronological
    rw [Chronological, List.flatMap_cons, List.pairwise_append] at split
    obtain ⟨-, later, across⟩ := split
    cases k with
    | now real =>
      refine List.pairwise_cons.mpr ⟨fun u member => ?_, ih c later⟩
      exact (c.fromOn_now real).le_of_mem_readings later
        (fun r inside => across real List.mem_cons_self r inside) member
    | advance d => exact ih _ later
    | rescale measured anchored scale => exact ih _ later

/-! ## A clock that stands still -/

theorem now_of_fixed (fixed : c.scale = .fixed) (real : Nat) : c.now real = c.simulated := by
  rw [now, fixed]
  exact plus_zero c.simulated

/-- A clock that stands still shows only what it is moved forward by. -/
theorem calls_of_fixed {cs : List Call} (fixed : c.scale = .fixed)
    (kept : ∀ k ∈ cs, k.keepsFixed = true) :
    (c.calls cs).scale = .fixed ∧
      (c.calls cs).simulated = (advances cs).foldl Instant.plus c.simulated := by
  induction cs generalizing c with
  | nil => exact ⟨fixed, rfl⟩
  | cons k rest ih =>
    obtain ⟨here, later⟩ := List.forall_mem_cons.mp kept
    cases k with
    | now real => exact ih fixed later
    | advance d => exact ih (c := c.advance d) ((c.scale_advance d).trans fixed) later
    | rescale measured anchored scale =>
      have same : (c.rescale measured anchored scale).simulated = c.simulated :=
        now_of_fixed fixed measured
      have ended := ih (c := c.rescale measured anchored scale)
        ((c.scale_rescale measured anchored scale).trans (of_decide_eq_true here)) later
      rw [same] at ended
      exact ended

/-- After any calls in the order of time: no reading has shown less than an earlier one, a change of
pace changes no time, a move forward is exact up to the last instant, and while the clock stands
still only such moves change what it shows. -/
theorem continuous_of_calls (c : WorldClock) (cs : List Call) (chronological : Chronological cs) :
    let reached := c.calls cs
    (c.readings cs).Pairwise (· ≤ ·) ∧
    (∀ real scale, (reached.setScale real scale).now real = reached.now real) ∧
    (∀ real d, ((reached.advance d).now real).nanos =
      min ((reached.now real).nanos + d.nanos) Instant.last.nanos) ∧
    (reached.scale = .fixed → ∀ later : List Call, (∀ k ∈ later, k.keepsFixed = true) →
      ∀ real real', (reached.calls later).now real' =
        (advances later).foldl Instant.plus (reached.now real)) := by
  refine ⟨c.pairwise_readings chronological, fun real scale => now_rescale _ real real scale,
    fun real d => ?_, fun fixed later kept real real' => ?_⟩
  · rw [now_advance]
    exact Instant.plus_nanos _ d
  · obtain ⟨still, shown⟩ := calls_of_fixed fixed kept
    rw [now_of_fixed still, now_of_fixed fixed, shown]

/-- A clock that runs, is slowed down to a stand, moved forward, sped up again and stopped. -/
def mixedCalls : List Call :=
  [.now 5, .rescale 10 12 (.slow 0), .now 20, .advance ⟨7, by decide⟩, .rescale 30 30 (.fast 3),
    .now 40, .rescale 40 40 .fixed, .now 90]

theorem continuous_of_calls_mixed :
    let reached := (start 0 Instant.first).calls mixedCalls
    Chronological mixedCalls ∧
    (readings (start 0 Instant.first) mixedCalls).map Instant.nanos = [5, 10, 47, 47] ∧
    (readings (start 0 Instant.first) mixedCalls).Pairwise (· ≤ ·) ∧
    reached.scale = .fixed ∧
    (reached.calls [.now 95, .advance ⟨2, by decide⟩]).now 100 =
      (reached.now 90).plus ⟨2, by decide⟩ := by
  intro reached
  have chronological : Chronological mixedCalls := by decide
  have stopped : reached.scale = .fixed :=
    ((start 0 Instant.first).calls (mixedCalls.take 6)).scale_rescale 40 40 .fixed
  obtain ⟨mono, -, -, still⟩ := continuous_of_calls (start 0 Instant.first) mixedCalls chronological
  exact ⟨chronological, by decide, mono, stopped, still stopped _ (by decide) 90 100⟩

end PacedLoad.WorldClock
