import PacedLoad.Proofs.Keyed
import PacedLoad.Stats.Workload

/-!
# What a workload counts

A workload to which results were added one after another has counted each of them
once, under the kind of its operation, and so has its snapshot.
-/

namespace PacedLoad.Stats

namespace Workload

/-- The workload after several results, all of which can be counted. -/
def addAll (w : Workload) (results : List OperationResult) : Except FoldError Workload :=
  results.foldlM measure w

theorem addAll_concat (w : Workload) (results : List OperationResult) (r : OperationResult) :
    w.addAll (results ++ [r]) = (w.addAll results).bind fun v => v.measure r := by
  simp only [addAll, List.foldlM_append, List.foldlM_cons, List.foldlM_nil, bind_pure]
  rfl

/-- A result is counted under the kind of its operation, and only there. -/
theorem measure_ok {w v : Workload} {r : OperationResult} (counted : w.measure r = .ok v) :
    v.operationCount = w.operationCount + 1 ∧
      Keyed.find? r.operation.kind v.kinds =
        some (((Keyed.find? r.operation.kind w.kinds).getD KindStats.empty).measure r) ∧
      ∀ kind, kind ≠ r.operation.kind → Keyed.find? kind v.kinds = Keyed.find? kind w.kinds := by
  simp only [measure] at counted
  split at counted
  · cases counted
  · cases counted
    exact ⟨rfl, Keyed.find?_insert_self _ _ _, fun _ other => Keyed.find?_insert_of_ne other _ _⟩

def countOf (w : Workload) (kind : String) : Nat :=
  ((Keyed.find? kind w.kinds).getD KindStats.empty).runTime.count

theorem countOf_measure {w v : Workload} {r : OperationResult} (counted : w.measure r = .ok v)
    (kind : String) :
    v.countOf kind = w.countOf kind + if r.operation.kind = kind then 1 else 0 := by
  obtain ⟨-, here, others⟩ := measure_ok counted
  by_cases same : r.operation.kind = kind
  · subst same
    simp [countOf, here, KindStats.measure, Recorder.count, Recorder.record]
  · simp [countOf, others kind (Ne.symm same), same]

/-- Every result that was added is counted once. -/
theorem addAll_counts {w v : Workload} {results : List OperationResult}
    (added : w.addAll results = .ok v) :
    v.operationCount = w.operationCount + results.length ∧
      ∀ kind, v.countOf kind = w.countOf kind + results.countP (·.operation.kind = kind) := by
  induction results generalizing w with
  | nil =>
    cases added
    exact ⟨rfl, fun _ => rfl⟩
  | cons r rest ih =>
    cases counted : w.measure r with
    | error e =>
      simp only [addAll, List.foldlM_cons, counted] at added
      cases added
    | ok u =>
      simp only [addAll, List.foldlM_cons, counted] at added
      obtain ⟨count, kinds⟩ := ih added
      obtain ⟨one, -⟩ := measure_ok counted
      refine ⟨by rw [count, one, List.length_cons]; omega, fun kind => ?_⟩
      rw [kinds kind, countOf_measure counted, List.countP_cons]
      simp only [decide_eq_true_eq]
      omega

/-- The snapshot shows each kind as the workload has it. -/
theorem snapshot_find? (w : Workload) (kind : String) :
    w.snapshot.find? kind = (Keyed.find? kind w.kinds).map (·.summary kind) := by
  simp only [snapshot, Snapshot.find?]
  generalize w.kinds = kinds
  induction kinds with
  | nil => rfl
  | cons entry rest ih =>
    by_cases same : kind = entry.1
    · subst same
      simp [Keyed.find?, KindStats.summary]
    · have other : (entry.2.summary entry.1).kind ≠ kind := Ne.symm same
      simp [Keyed.find?, same, other, ih]

end Workload

/-- How many results of a kind a snapshot shows. -/
def Snapshot.countOf (s : Snapshot) (kind : String) : Nat := (s.find? kind).elim 0 (·.count)

/-- The snapshot of a new workload shows exactly the results that were added. -/
theorem snapshot_counts {now : Instant} {w : Workload} {results : List OperationResult}
    (added : (Workload.start now).addAll results = .ok w) :
    w.snapshot.operationCount = results.length ∧
      ∀ kind, w.snapshot.countOf kind = results.countP (·.operation.kind = kind) := by
  obtain ⟨count, kinds⟩ := Workload.addAll_counts added
  have none : ∀ kind, (Workload.start now).countOf kind = 0 := fun _ => rfl
  refine ⟨count.trans (Nat.zero_add _), fun kind => ?_⟩
  have here := kinds kind
  rw [none, Nat.zero_add] at here
  rw [Snapshot.countOf, Workload.snapshot_find?, ← here, Workload.countOf]
  cases Keyed.find? kind w.kinds <;> rfl

end PacedLoad.Stats
