import Mathlib.Data.List.Basic
import PacedLoad.Keyed

/-!
# Entries with ascending keys

Insertion keeps the keys in ascending order, so that an entry is found under its
key exactly if it stands in the list.
-/

namespace PacedLoad.Keyed

variable {β : Type}

theorem mem_insert {k : String} {v : β} {m : Keyed β} {e : String × β}
    (member : e ∈ insert k v m) : e = (k, v) ∨ e ∈ m := by
  induction m with
  | nil => simpa [insert] using member
  | cons head rest ih =>
    simp only [insert] at member
    split at member
    · simp only [List.mem_cons] at member ⊢
      exact member.imp_right .inr
    · split at member
      · simpa only [List.mem_cons] using member
      · simp only [List.mem_cons] at member ⊢
        rcases member with here | later
        · exact .inr (.inl here)
        · exact (ih later).imp_right .inr

theorem sorted_insert {m : Keyed β} (sorted : Sorted m) (k : String) (v : β) :
    Sorted (insert k v m) := by
  induction m with
  | nil => simp [insert, Sorted]
  | cons head rest ih =>
    obtain ⟨above, tail⟩ := List.pairwise_cons.mp sorted
    simp only [insert]
    split
    next same =>
      refine List.pairwise_cons.mpr ⟨?_, tail⟩
      rw [same]
      exact above
    next different =>
      split
      next smaller =>
        refine List.pairwise_cons.mpr ⟨?_, sorted⟩
        intro e member
        rcases List.mem_cons.mp member with rfl | later
        · exact smaller
        · exact String.lt_trans smaller (above e later)
      next notSmaller =>
        refine List.pairwise_cons.mpr ⟨?_, ih tail⟩
        intro e member
        rcases mem_insert member with rfl | later
        · exact String.not_le.mp fun le => different
            (String.le_antisymm le (String.not_lt.mp notSmaller))
        · exact above e later

theorem sorted_ofList (entries : List (String × β)) : Sorted (ofList entries) := by
  have grown : ∀ (news : List (String × β)) (m : Keyed β), Sorted m →
      Sorted (news.foldl (fun m e => insert e.1 e.2 m) m) := by
    intro news
    induction news with
    | nil => exact fun _ sorted => sorted
    | cons e rest ih => exact fun m sorted => ih _ (sorted_insert sorted e.1 e.2)
  exact grown entries [] List.Pairwise.nil

theorem mem_of_find? {k : String} {v : β} {m : Keyed β} (found : find? k m = some v) :
    (k, v) ∈ m := by
  induction m with
  | nil => cases found
  | cons head rest ih =>
    simp only [find?] at found
    split at found
    next same =>
      cases found
      rw [same]
      exact List.mem_cons_self
    next => exact List.mem_cons_of_mem _ (ih found)

theorem find?_of_mem {k : String} {v : β} {m : Keyed β} (sorted : Sorted m)
    (member : (k, v) ∈ m) : find? k m = some v := by
  induction m with
  | nil => cases member
  | cons head rest ih =>
    obtain ⟨above, tail⟩ := List.pairwise_cons.mp sorted
    simp only [find?]
    rcases List.mem_cons.mp member with rfl | later
    · simp
    · have different : k ≠ head.1 := by
        intro same
        have ascending := above _ later
        rw [same] at ascending
        exact String.lt_irrefl _ ascending
      rw [if_neg different]
      exact ih tail later

theorem nodup_of_sorted {m : Keyed β} (sorted : Sorted m) : m.Nodup := by
  refine List.Pairwise.imp ?_ sorted
  rintro a b below rfl
  exact String.lt_irrefl _ below

/-- No key stands twice. -/
theorem nodup_keys {m : Keyed β} (sorted : Sorted m) : (m.map Prod.fst).Nodup := by
  refine List.pairwise_map.mpr (sorted.imp ?_)
  exact fun below same => String.lt_irrefl _ (same ▸ below)

/-- Sorted entries are determined by what is found under each key. -/
theorem eq_of_find? {m m' : Keyed β} (sorted : Sorted m) (sorted' : Sorted m')
    (same : ∀ k, find? k m = find? k m') : m = m' := by
  have members : ∀ e, e ∈ m ↔ e ∈ m' := by
    rintro ⟨k, v⟩
    exact ⟨fun member => mem_of_find? ((same k).symm.trans (find?_of_mem sorted member)),
      fun member => mem_of_find? ((same k).trans (find?_of_mem sorted' member))⟩
  have perm := (List.perm_ext_iff_of_nodup (nodup_of_sorted sorted) (nodup_of_sorted sorted')).mpr
    members
  exact perm.eq_of_pairwise
    (fun _ _ _ _ below above => absurd (String.lt_trans below above) (String.lt_irrefl _))
    sorted sorted'

theorem find?_eq_none {k : String} {m : Keyed β} (absent : ∀ e ∈ m, e.1 ≠ k) :
    find? k m = none := by
  induction m with
  | nil => rfl
  | cons head rest ih =>
    rw [find?, if_neg (Ne.symm (absent head List.mem_cons_self))]
    exact ih fun e member => absent e (List.mem_cons_of_mem _ member)

theorem erase_sublist (k : String) (m : Keyed β) : (erase k m).Sublist m := by
  induction m with
  | nil => exact List.Sublist.refl _
  | cons head rest ih =>
    rw [erase]
    split
    · exact List.sublist_cons_self _ _
    · exact ih.cons_cons _

theorem sorted_erase {m : Keyed β} (sorted : Sorted m) (k : String) : Sorted (erase k m) :=
  sorted.sublist (erase_sublist k m)

/-- Only what stood under the key is gone. -/
theorem find?_erase {m : Keyed β} (sorted : Sorted m) (k k' : String) :
    find? k' (erase k m) = if k' = k then none else find? k' m := by
  induction m with
  | nil => simp [erase, find?]
  | cons head rest ih =>
    obtain ⟨above, tail⟩ := List.pairwise_cons.mp sorted
    rw [erase]
    split
    next here =>
      split
      next same =>
        refine find?_eq_none fun e member equal => ?_
        have ascending := above e member
        rw [equal, same, here] at ascending
        exact String.lt_irrefl _ ascending
      next other => rw [find?, if_neg (here ▸ other)]
    next there =>
      rw [find?, find?, ih tail]
      by_cases first : k' = head.1
      · rw [if_pos first, if_pos first, if_neg (first ▸ Ne.symm there)]
      · rw [if_neg first, if_neg first]

theorem sorted_merge {m : Keyed β} (sorted : Sorted m) (news : Keyed β) :
    Sorted (merge m news) := by
  unfold merge
  induction news generalizing m with
  | nil => exact sorted
  | cons e rest ih => exact ih (sorted_insert sorted e.1 e.2)

/-- What is new stands in place of what was there. -/
theorem find?_merge {news : Keyed β} (sorted : Sorted news) (m : Keyed β) (k : String) :
    find? k (merge m news) = (find? k news).or (find? k m) := by
  unfold merge
  induction news generalizing m with
  | nil => rfl
  | cons e rest ih =>
    obtain ⟨above, tail⟩ := List.pairwise_cons.mp sorted
    rw [List.foldl_cons, ih tail]
    by_cases here : k = e.1
    · have later : find? k rest = none :=
        find?_eq_none fun e' member same => by
          have ascending := above e' member
          rw [same, here] at ascending
          exact String.lt_irrefl _ ascending
      rw [later, here, find?_insert_self, find?, if_pos rfl]
      rfl
    · rw [find?_insert_of_ne here, find?, if_neg here]

theorem mem_startingAt {start : String} {m : Keyed β} {e : String × β} :
    e ∈ startingAt start m ↔ e ∈ m ∧ start ≤ e.1 := by
  rw [startingAt, List.mem_filter, Bool.not_eq_true', decide_eq_false_iff_not, String.not_lt]

theorem sorted_startingAt {m : Keyed β} (sorted : Sorted m) (start : String) :
    Sorted (startingAt start m) :=
  sorted.filter _

/-- Entries are kept or left out by their keys. -/
theorem find?_filter (p : String → Bool) (m : Keyed β) (k : String) :
    find? k (m.filter fun e => p e.1) = if p k then find? k m else none := by
  induction m with
  | nil => simp [find?]
  | cons head rest ih =>
    rw [List.filter_cons]
    by_cases here : k = head.1
    · subst here
      by_cases kept : p head.1 <;> simp [kept, find?, ih]
    · by_cases kept : p head.1 <;> simp [kept, find?, ih, here]

/-- Of entries with one key the last stands. -/
theorem find?_ofList (entries : List (String × β)) (k : String) :
    find? k (ofList entries) = (entries.reverse.find? (·.1 = k)).map Prod.snd := by
  have grown : ∀ (entries : List (String × β)) (m : Keyed β),
      find? k (entries.foldl (fun m e => insert e.1 e.2 m) m) =
        ((entries.reverse.find? (·.1 = k)).map Prod.snd).or (find? k m) := by
    intro entries
    induction entries with
    | nil => exact fun _ => rfl
    | cons e rest ih =>
      intro m
      rw [List.foldl_cons, ih, List.reverse_cons, List.find?_append]
      cases later : rest.reverse.find? (·.1 = k) with
      | some e' => rfl
      | none =>
        by_cases same : k = e.1
        · subst same
          simp [find?_insert_self]
        · simp [find?_insert_of_ne same, Ne.symm same]
  rw [ofList, grown, find?, Option.or_none]

/-- Entries that all have one value are found under exactly the given keys. -/
theorem find?_ofList_const (keys : List String) (v : β) (k : String) :
    find? k (ofList (keys.map fun k => (k, v))) = if k ∈ keys then some v else none := by
  rw [find?_ofList, ← List.map_reverse, List.find?_map, Option.map_map]
  split
  next member =>
    have found : (keys.reverse.find? (· = k)).isSome := by simpa using member
    obtain ⟨k', same⟩ := Option.isSome_iff_exists.mp found
    exact congrArg (Option.map _) same
  next absent =>
    refine Option.map_eq_none_iff.mpr (List.find?_eq_none.mpr fun k' member same => ?_)
    exact absent (of_decide_eq_true same ▸ List.mem_reverse.mp member)

/-- Values are changed under their keys. -/
theorem find?_map {γ : Type} (f : String → β → γ) (m : Keyed β) (k : String) :
    find? k (m.map fun e => (e.1, f e.1 e.2)) = (find? k m).map (f k) := by
  induction m with
  | nil => rfl
  | cons head rest ih =>
    by_cases same : k = head.1
    · subst same
      simp [find?]
    · simp [find?, same, ih]

/-- A value may be put in place of itself. -/
theorem insert_of_find? {m : Keyed β} {k : String} {v : β} (sorted : Sorted m)
    (found : find? k m = some v) : insert k v m = m := by
  refine eq_of_find? (sorted_insert sorted k v) sorted fun k' => ?_
  by_cases same : k' = k
  · rw [same, find?_insert_self, found]
  · exact find?_insert_of_ne same v m

/-- Entries in order stay as they are. -/
theorem ofList_of_sorted {m : Keyed β} (sorted : Sorted m) : ofList m = m := by
  refine eq_of_find? (sorted_ofList m) sorted fun k => ?_
  rw [find?_ofList]
  cases found : m.reverse.find? (·.1 = k) with
  | none =>
    refine (find?_eq_none fun e member same => ?_).symm
    exact List.find?_eq_none.mp found e (List.mem_reverse.mpr member) (decide_eq_true same)
  | some e =>
    have member : e ∈ m := List.mem_reverse.mp (List.mem_of_find?_eq_some found)
    have same : e.1 = k := by simpa using List.find?_some found
    subst same
    exact (find?_of_mem sorted member).symm

end PacedLoad.Keyed
