import PacedLoad.Proofs.Keyed
import PacedLoad.Proofs.Watermark.Writer
import PacedLoad.Watermark.State

/-!
# The least of all completion times

The global completion time is known when that of every writer and of every
declared peer is, and there is one of them at all.  It is then the greatest time
that is above none of theirs.
-/

namespace PacedLoad.Watermark

theorem lowest_eq_none {times : List (Option Instant)} :
    lowest times = none ↔ times = [] ∨ none ∈ times := by
  induction times with
  | nil => simp [lowest]
  | cons head rest ih =>
    cases rest with
    | nil => cases head <;> simp [lowest]
    | cons next rest =>
      simp only [reduceCtorEq, false_or] at ih
      cases head with
      | none => simp [lowest]
      | some t =>
        simp only [lowest, List.mem_cons, reduceCtorEq, false_or] at ih ⊢
        rw [← ih]
        cases lowest (next :: rest) <;> simp

/-- What lies below the least of several times. -/
theorem le_lowest {times : List (Option Instant)} {least : Instant}
    (known : lowest times = some least) (v : Instant) :
    v ≤ least ↔ ∀ t, some t ∈ times → v ≤ t := by
  induction times generalizing least with
  | nil => simp [lowest] at known
  | cons head rest ih =>
    cases rest with
    | nil =>
      simp only [lowest] at known
      simp [known]
    | cons next rest =>
      cases head with
      | none => simp [lowest] at known
      | some t =>
        simp only [lowest] at known
        cases tail : lowest (next :: rest) with
        | none => simp [tail] at known
        | some u =>
          simp only [tail, Option.some.injEq] at known
          rw [← known, le_min_iff, ih tail]
          constructor
          · rintro ⟨head, later⟩ x member
            rcases List.mem_cons.mp member with same | member
            · exact Option.some.inj same ▸ head
            · exact later x member
          · exact fun bound => ⟨bound t List.mem_cons_self,
              fun x member => bound x (List.mem_cons_of_mem _ member)⟩

/-- The least of several times has reached what all of them have. -/
theorem some_le_lowest {times : List (Option Instant)} {v : Instant} :
    some v ≤ lowest times ↔ times ≠ [] ∧ ∀ t ∈ times, some v ≤ t := by
  cases known : lowest times with
  | none =>
    refine ⟨fun le => absurd le Option.not_some_le_none, fun ⟨nonempty, all⟩ => ?_⟩
    rcases lowest_eq_none.mp known with empty | unknown
    · exact absurd empty nonempty
    · exact absurd (all none unknown) Option.not_some_le_none
  | some least =>
    have notNone : ¬ (times = [] ∨ none ∈ times) := by
      rw [← lowest_eq_none, known]
      exact Option.some_ne_none least
    rw [Option.some_le_some, le_lowest known]
    constructor
    · refine fun below => ⟨fun empty => notNone (.inl empty), fun t member => ?_⟩
      cases t with
      | none => exact absurd (.inr member) notNone
      | some u => exact Option.some_le_some.mpr (below u member)
    · exact fun ⟨_, all⟩ t member => Option.some_le_some.mp (all (some t) member)

/-- The least of several times is one of them. -/
theorem lowest_mem {times : List (Option Instant)} {least : Instant}
    (known : lowest times = some least) : some least ∈ times := by
  induction times generalizing least with
  | nil => cases known
  | cons head rest ih =>
    cases rest with
    | nil =>
      simp only [lowest] at known
      simp [known]
    | cons next rest =>
      cases head with
      | none => simp [lowest] at known
      | some t =>
        cases tail : lowest (next :: rest) with
        | none => simp [lowest, tail] at known
        | some u =>
          simp only [lowest, tail, Option.some.injEq] at known
          rw [← known]
          rcases min_choice t u with here | later
          · rw [here]
            exact List.mem_cons_self
          · rw [later]
            exact List.mem_cons_of_mem _ (ih tail)

namespace State

/-- A writer's call succeeds exactly if the writer is registered and takes it. -/
theorem withWriter_ok {s after : State} {w : Nat} {f : Writer → Except Violation Writer} :
    s.withWriter w f = .ok after ↔
      ∃ before changed, s.writers[w]? = some before ∧ f before = .ok changed ∧
        after = { s with writers := s.writers.set w changed } := by
  unfold withWriter
  cases s.writers[w]? with
  | none => simp
  | some before => cases accepted : f before <;> simp [Except.map, accepted, eq_comm]

/-- A report is taken exactly if the peer is declared and did not report a later time. -/
theorem external_ok {s after : State} {p : String} {t : Instant} :
    s.external p t = .ok after ↔
      ∃ previous, Keyed.find? p s.peers = some previous ∧
        (∀ r, previous = some r → r ≤ t) ∧
        after = { s with peers := Keyed.insert p (some t) s.peers } := by
  unfold external
  cases Keyed.find? p s.peers with
  | none => simp
  | some previous =>
    cases previous with
    | none => simp [eq_comm]
    | some r =>
      by_cases regressed : t < r
      · simp [regressed]
      · simp [regressed, le_of_not_gt regressed, eq_comm]

theorem globalCompletionTime_eq_none {s : State} :
    s.globalCompletionTime = none ↔
      (s.writers = [] ∧ s.peers = []) ∨ (∃ w ∈ s.writers, w.completionTime = none) ∨
        ∃ e ∈ s.peers, e.2 = none := by
  unfold globalCompletionTime sources
  rw [lowest_eq_none]
  simp

theorem le_globalCompletionTime {s : State} {known : Instant}
    (complete : s.globalCompletionTime = some known) (v : Instant) :
    v ≤ known ↔
      (∀ w ∈ s.writers, ∀ t, w.completionTime = some t → v ≤ t) ∧
        ∀ e ∈ s.peers, ∀ t, e.2 = some t → v ≤ t := by
  rw [le_lowest complete]
  unfold sources
  simp only [List.mem_append, List.mem_map]
  constructor
  · intro bound
    exact ⟨fun w member t time => bound t (.inl ⟨w, member, time⟩),
      fun e member t time => bound t (.inr ⟨e, member, time⟩)⟩
  · rintro ⟨writers, peers⟩ t (⟨w, member, time⟩ | ⟨e, member, time⟩)
    · exact writers w member t time
    · exact peers e member t time

/-- A known global completion time is that of a writer or the last report of a peer. -/
theorem mem_of_globalCompletionTime {s : State} {known : Instant}
    (complete : s.globalCompletionTime = some known) :
    (∃ w ∈ s.writers, w.completionTime = some known) ∨ ∃ p, (p, some known) ∈ s.peers := by
  rcases List.mem_append.mp (lowest_mem complete) with writer | peer
  · exact .inl (List.mem_map.mp writer)
  · obtain ⟨⟨p, t⟩, member, rfl⟩ := List.mem_map.mp peer
    exact .inr ⟨p, member⟩

/-- The global completion time has reached what all writers and peers have. -/
theorem reached_iff {s : State} (v : Instant) :
    (∃ known, s.globalCompletionTime = some known ∧ v ≤ known) ↔
      (s.writers ≠ [] ∨ s.peers ≠ []) ∧
        (∀ w ∈ s.writers, ∃ t, w.completionTime = some t ∧ v ≤ t) ∧
        ∀ e ∈ s.peers, ∃ t, e.2 = some t ∧ v ≤ t := by
  constructor
  · rintro ⟨known, complete, le⟩
    have notUnknown : ¬ s.globalCompletionTime = none := by simp [complete]
    rw [globalCompletionTime_eq_none, not_or, not_or] at notUnknown
    obtain ⟨some, writers, peers⟩ := notUnknown
    obtain ⟨ofWriters, ofPeers⟩ := (le_globalCompletionTime complete v).mp le
    refine ⟨not_and_or.mp some, fun w member => ?_, fun e member => ?_⟩
    · obtain ⟨t, time⟩ := Option.ne_none_iff_exists'.mp fun none => writers ⟨w, member, none⟩
      exact ⟨t, time, ofWriters w member t time⟩
    · obtain ⟨t, time⟩ := Option.ne_none_iff_exists'.mp fun none => peers ⟨e, member, none⟩
      exact ⟨t, time, ofPeers e member t time⟩
  · rintro ⟨some, ofWriters, ofPeers⟩
    cases complete : s.globalCompletionTime with
    | none =>
      rcases globalCompletionTime_eq_none.mp complete with
        ⟨noWriters, noPeers⟩ | ⟨w, member, unknown⟩ | ⟨e, member, unknown⟩
      · exact absurd some (by simp [noWriters, noPeers])
      · obtain ⟨t, time, -⟩ := ofWriters w member
        cases unknown.symm.trans time
      · obtain ⟨t, time, -⟩ := ofPeers e member
        cases unknown.symm.trans time
    | some known =>
      refine ⟨known, rfl, (le_globalCompletionTime complete v).mpr ⟨?_, ?_⟩⟩
      · intro w member t time
        obtain ⟨t', time', le⟩ := ofWriters w member
        cases time.symm.trans time'
        exact le
      · intro e member t time
        obtain ⟨t', time', le⟩ := ofPeers e member
        cases time.symm.trans time'
        exact le

end State

end PacedLoad.Watermark
