import Mathlib.Algebra.GroupWithZero.Nat
import Mathlib.Data.List.Basic

/-!
# Entries of changed lists

What stands in a list after one entry was added, replaced or changed.
-/

namespace PacedLoad

variable {α γ : Type} {l : List α} {k i : Nat} {a b : α}

theorem getElem?_concat_some (found : (l ++ [b])[i]? = some a) :
    l[i]? = some a ∨ (i = l.length ∧ a = b) := by
  rcases Nat.lt_or_ge i l.length with inside | beyond
  · rw [List.getElem?_append_left inside] at found
    exact .inl found
  · rw [List.getElem?_append_right beyond] at found
    obtain ⟨zero, same⟩ : i - l.length = 0 ∧ b = a := by
      simpa [List.getElem?_singleton] using found
    exact .inr ⟨by omega, same.symm⟩

theorem getElem?_set_some (found : (l.set k b)[i]? = some a) :
    (i = k ∧ a = b) ∨ (i ≠ k ∧ l[i]? = some a) := by
  by_cases same : k = i
  · subst same
    rw [List.getElem?_set_self'] at found
    obtain ⟨-, -, rfl⟩ := Option.map_eq_some_iff.mp found
    exact .inl ⟨rfl, rfl⟩
  · rw [List.getElem?_set_ne same] at found
    exact .inr ⟨Ne.symm same, found⟩

/-- An entry may be replaced by itself. -/
theorem set_of_getElem? (found : l[k]? = some a) : l.set k a = l := by
  obtain ⟨inside, rfl⟩ := List.getElem?_eq_some_iff.mp found
  exact List.set_getElem_self inside

theorem getElem?_modify_some {change : α → α} (found : (l.modify k change)[i]? = some a) :
    (i = k ∧ ∃ b, l[i]? = some b ∧ a = change b) ∨ (i ≠ k ∧ l[i]? = some a) := by
  rw [List.getElem?_modify] at found
  obtain ⟨b, before, changed⟩ := Option.map_eq_some_iff.mp found
  by_cases same : k = i
  · rw [if_pos same] at changed
    exact .inl ⟨same.symm, b, before, changed.symm⟩
  · rw [if_neg same] at changed
    exact .inr ⟨Ne.symm same, by rw [before, ← changed]⟩

theorem getElem?_modify_other {change : α → α} (other : k ≠ i) (found : l[i]? = some a) :
    (l.modify k change)[i]? = some a := by
  simp [found, other]

theorem getElem?_append_some {m : List α} (found : l[i]? = some a) : (l ++ m)[i]? = some a := by
  rw [List.getElem?_append_left (List.getElem?_eq_some_iff.mp found).1, found]

/-- The first entry of a filtered list. -/
theorem filterMap_cons_toList (f : α → Option γ) (a : α) (l : List α) :
    (a :: l).filterMap f = (f a).toList ++ l.filterMap f := by
  cases known : f a <;> simp [known]

/-- Lists that look the same through a function are equal where it is injective. -/
theorem eq_of_map_eq {P : α → Prop} {f : α → γ} (inj : ∀ {a b}, P a → P b → f a = f b → a = b)
    {l m : List α} (first : ∀ a ∈ l, P a) (second : ∀ a ∈ m, P a) (same : l.map f = m.map f) :
    l = m := by
  induction l generalizing m with
  | nil => exact (List.map_eq_nil_iff.mp same.symm).symm
  | cons a l ih =>
    obtain ⟨b, rest, rfl, head, tail⟩ := List.map_eq_cons_iff.mp same.symm
    obtain ⟨here, later⟩ := List.forall_mem_cons.mp first
    obtain ⟨here', later'⟩ := List.forall_mem_cons.mp second
    rw [inj here here' head.symm, ih later later' tail.symm]

/-- A change of one entry that a function does not see. -/
theorem map_modify_same {f : α → γ} {g : α → α} (same : ∀ a, f (g a) = f a)
    (l : List α) (k : Nat) : (l.modify k g).map f = l.map f := by
  refine List.ext_getElem? fun i => ?_
  simp only [List.getElem?_map, List.getElem?_modify]
  cases l[i]? with
  | none => rfl
  | some a => by_cases here : k = i <;> simp [here, same]

/-- A sum over the entries after one of them was changed. -/
theorem sum_map_modify (f : α → Nat) (change : α → α) (found : l[k]? = some a) :
    ((l.modify k change).map f).sum + f a = (l.map f).sum + f (change a) := by
  induction l generalizing k with
  | nil => cases found
  | cons head rest ih =>
    cases k with
    | zero =>
      cases found
      simp only [List.modify_zero_cons, List.map_cons, List.sum_cons]
      omega
    | succ k =>
      have later := ih (List.getElem?_cons_succ.symm.trans found)
      simp only [List.modify_succ_cons, List.map_cons, List.sum_cons]
      omega

/-- How many entries have a property after one of them was changed. -/
theorem countP_modify (p : α → Bool) (change : α → α) (found : l[k]? = some a) :
    (l.modify k change).countP p + (p a).toNat = l.countP p + (p (change a)).toNat := by
  have sums : ∀ l : List α, l.countP p = (l.map fun a => (p a).toNat).sum := by
    intro l
    induction l with
    | nil => rfl
    | cons head rest ih => cases here : p head <;> simp [here, ih, Nat.add_comm]
  rw [sums, sums]
  exact sum_map_modify (fun a => (p a).toNat) change found

end PacedLoad
