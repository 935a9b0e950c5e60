import Mathlib.Data.List.Pairwise
import PacedLoad.Proofs.Watermark.Foresight

/-!
# Starts and the writers that hold them

A ledger lists the starts that were announced, each with its writer and whether
it is complete.  Writers that agree with it hold exactly the starts that are not,
and what was announced last.
-/

namespace PacedLoad.Watermark

/-- An announced start. -/
structure Entry where
  writer : Nat
  start : Instant
  done : Bool
deriving DecidableEq

def startsOf (w : Nat) (entries : List Entry) : List Instant :=
  entries.filterMap fun e => if e.writer = w then some e.start else none

/-- The writers hold what the entries, the oldest first, leave outstanding. -/
structure Ledger (entries : List Entry) (ws : List Writer) : Prop where
  known : ∀ e ∈ entries, e.writer < ws.length
  outstanding : ∀ (w : Nat) (writer : Writer), ws[w]? = some writer → ∀ t,
    writer.outstanding.count t = entries.count ⟨w, t, false⟩
  last : ∀ (w : Nat) (writer : Writer), ws[w]? = some writer →
    writer.lastInitiated = (startsOf w entries).getLast?

variable {entries : List Entry} {ws : List Writer}

theorem ledger_nil : Ledger [] [] := ⟨nofun, nofun, nofun⟩

theorem startsOf_absent {w : Nat} (absent : ∀ e ∈ entries, e.writer < w) :
    startsOf w entries = [] := by
  refine List.filterMap_eq_nil_iff.mpr fun e member => ?_
  rw [if_neg (Nat.ne_of_lt (absent e member))]

theorem mem_startsOf {w : Nat} {t : Instant} :
    t ∈ startsOf w entries ↔ ∃ e ∈ entries, e.writer = w ∧ e.start = t := by
  simp [startsOf, List.mem_filterMap]

/-- A new writer has nothing outstanding. -/
theorem Ledger.register (ledger : Ledger entries ws) : Ledger entries (ws ++ [Writer.fresh]) := by
  refine ⟨fun e member => ?_, fun w writer found t => ?_, fun w writer found => ?_⟩
  · rw [List.length_append]
    exact Nat.lt_add_right _ (ledger.known e member)
  · rcases getElem?_concat_some found with before | ⟨rfl, rfl⟩
    · exact ledger.outstanding w writer before t
    · rw [List.count_eq_zero.mpr fun member => Nat.lt_irrefl _ (ledger.known _ member)]
      rfl
  · rcases getElem?_concat_some found with before | ⟨rfl, rfl⟩
    · exact ledger.last w writer before
    · rw [startsOf_absent ledger.known]
      rfl

/-- Writers take a start that is not below the others. -/
theorem Ledger.announce (ledger : Ledger entries ws) {w : Nat} {t : Instant}
    (known : w < ws.length) (late : ∀ e ∈ entries, e.start ≤ t) :
    ∃ vs, attend ws (.event (.initiated w t)) = some vs ∧ vs.length = ws.length ∧
      Ledger (entries ++ [⟨w, t, false⟩]) vs := by
  obtain ⟨held, found⟩ : ∃ held, ws[w]? = some held := ⟨_, List.getElem?_eq_getElem known⟩
  have accepted : ∀ last, held.lastInitiated = some last → last ≤ t := by
    intro last initiated
    rw [ledger.last w held found] at initiated
    obtain ⟨e, member, -, rfl⟩ := mem_startsOf.mp (List.mem_of_getLast? initiated)
    exact late e member
  refine ⟨_, attend_initiated.mpr ⟨held, found, accepted, rfl⟩, List.length_set, ?_⟩
  refine ⟨fun e member => ?_, fun w' writer found' u => ?_, fun w' writer found' => ?_⟩
  · rw [List.length_set]
    rcases List.mem_append.mp member with before | new
    · exact ledger.known e before
    · rw [List.mem_singleton.mp new]
      exact known
  · rw [List.count_append, List.count_singleton]
    rcases getElem?_set_some found' with ⟨rfl, rfl⟩ | ⟨other, before⟩
    · rw [Writer.count_add, ledger.outstanding w' held found]
      simp
    · rw [ledger.outstanding w' writer before u]
      simp [Ne.symm other]
  · simp only [startsOf, List.filterMap_append, List.filterMap_cons, List.filterMap_nil]
    rcases getElem?_set_some found' with ⟨rfl, rfl⟩ | ⟨other, before⟩
    · simp [Writer.add]
    · rw [ledger.last w' writer before]
      simp [startsOf, Ne.symm other]

/-- Whether a start is complete does not decide which starts were announced. -/
theorem startsOf_set {k w : Nat} {t : Instant} {before after : Bool}
    (entry : entries[k]? = some ⟨w, t, before⟩) (v : Nat) :
    startsOf v (entries.set k ⟨w, t, after⟩) = startsOf v entries := by
  induction entries generalizing k with
  | nil => rfl
  | cons head rest ih =>
    cases k with
    | zero =>
      cases entry
      rfl
    | succ k =>
      have tail := ih (k := k) (by simpa using entry)
      simp only [startsOf, List.set_cons_succ, List.filterMap_cons] at tail ⊢
      rw [tail]

/-- Writers take the completion of a start that is outstanding. -/
theorem Ledger.complete (ledger : Ledger entries ws) {k w : Nat} {t : Instant}
    (entry : entries[k]? = some ⟨w, t, false⟩) :
    ∃ vs, attend ws (.event (.completed w t)) = some vs ∧ vs.length = ws.length ∧
      Ledger (entries.set k ⟨w, t, true⟩) vs := by
  have member := List.mem_of_getElem? entry
  obtain ⟨held, found⟩ : ∃ held, ws[w]? = some held :=
    ⟨_, List.getElem?_eq_getElem (ledger.known _ member)⟩
  have outstanding : t ∈ held.outstanding := by
    rw [← List.count_pos_iff, ledger.outstanding w held found]
    exact List.count_pos_iff.mpr member
  have taken := Writer.completed_ok.mpr ⟨outstanding, rfl⟩
  obtain ⟨inside, here⟩ := List.getElem?_eq_some_iff.mp entry
  refine ⟨_, attend_completed.mpr ⟨held, found, outstanding, rfl⟩, List.length_set, ?_⟩
  refine ⟨fun e member' => ?_, fun w' writer found' u => ?_, fun w' writer found' => ?_⟩
  · rw [List.length_set]
    rcases List.mem_or_eq_of_mem_set member' with before | new
    · exact ledger.known e before
    · rw [new]
      exact ledger.known ⟨w, t, false⟩ member
  · rw [List.count_set inside, here]
    rcases getElem?_set_some found' with ⟨rfl, rfl⟩ | ⟨other, before⟩
    · have copies : held.outstanding.count u = (held.outstanding.erase t).count u +
          if t = u then 1 else 0 := Writer.count_completed taken u
      rw [ledger.outstanding w' held found] at copies
      simp only [beq_iff_eq, Entry.mk.injEq, and_true, true_and, reduceCtorEq, and_false, if_false]
      omega
    · rw [ledger.outstanding w' writer before u]
      simp [Ne.symm other]
  · rw [startsOf_set entry]
    rcases getElem?_set_some found' with ⟨rfl, rfl⟩ | ⟨other, before⟩
    · exact ledger.last w' held found
    · exact ledger.last w' writer before

/-- A writer has reached what some start of its own has and no open one precedes. -/
theorem Ledger.reached_iff (ledger : Ledger entries ws)
    (ascending : (entries.map Entry.start).Pairwise (· ≤ ·)) {w : Nat} {writer : Writer}
    (found : ws[w]? = some writer) (ordered : writer.Ordered) (v : Instant) :
    (∃ known, writer.completionTime = some known ∧ v ≤ known) ↔
      (∃ e ∈ entries, e.writer = w ∧ v ≤ e.start) ∧
        ∀ e ∈ entries, e.writer = w → e.done = false → v < e.start := by
  rw [Writer.reached_iff ordered]
  refine and_congr ?_ ?_
  · rw [ledger.last w writer found]
    constructor
    · rintro ⟨last, announced, le⟩
      obtain ⟨e, member, mine, rfl⟩ := mem_startsOf.mp (List.mem_of_getLast? announced)
      exact ⟨e, member, mine, le⟩
    · rintro ⟨e, member, mine, le⟩
      have sorted : (startsOf w entries).Pairwise (· ≤ ·) := by
        refine (List.pairwise_map.mp ascending).filterMap _ fun a b le x here y there => ?_
        split at here <;> cases here
        split at there <;> cases there
        exact le
      have listed : e.start ∈ startsOf w entries := mem_startsOf.mpr ⟨e, member, mine, rfl⟩
      exact ⟨_, List.getLast?_eq_some_getLast (List.ne_nil_of_mem listed),
        le_trans le (sorted.rel_getLast listed)⟩
  · have outstanding : ∀ t, t ∈ writer.outstanding ↔ ⟨w, t, false⟩ ∈ entries := fun t => by
      rw [← List.count_pos_iff, ledger.outstanding w writer found, List.count_pos_iff]
    constructor
    · rintro above ⟨w', t, done⟩ member rfl rfl
      exact above t ((outstanding t).mpr member)
    · exact fun above t member => above _ ((outstanding t).mp member) rfl rfl

end PacedLoad.Watermark
