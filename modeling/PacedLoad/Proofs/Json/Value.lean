import PacedLoad.Proofs.Json.Document
import PacedLoad.Proofs.Keyed

/-!
# Values and their compact text

The compact text of a value without doubles is read as the value, with the members of its
objects in ascending order of the keys, if its containers do not nest too deep.
-/

namespace PacedLoad.Json

namespace Value

/-- A value without doubles, in which whole numbers fit 64 bits. -/
inductive Exact : Value → Prop
  | null : Exact .null
  | bool (b : Bool) : Exact (.bool b)
  | int {n : Int} (least : -9223372036854775808 ≤ n) (greatest : n < 18446744073709551616) :
    Exact (.int n)
  | string (s : String) : Exact (.string s)
  | array {items : List Value} (each : ∀ v ∈ items, Exact v) : Exact (.array items)
  | object {members : List (String × Value)} (each : ∀ m ∈ members, Exact m.2) :
    Exact (.object members)

/-- A value whose objects have their members in strictly ascending order of the keys. -/
inductive Ordered : Value → Prop
  | null : Ordered .null
  | bool (b : Bool) : Ordered (.bool b)
  | int (n : Int) : Ordered (.int n)
  | double (x : Binary64) : Ordered (.double x)
  | string (s : String) : Ordered (.string s)
  | array {items : List Value} (each : ∀ v ∈ items, Ordered v) : Ordered (.array items)
  | object {members : List (String × Value)} (ascending : Keyed.Sorted members)
    (each : ∀ m ∈ members, Ordered m.2) : Ordered (.object members)

mutual

def depth : Value → Nat
  | .array items => itemsDepth items + 1
  | .object members => membersDepth members + 1
  | _ => 0

def itemsDepth : List Value → Nat
  | [] => 0
  | v :: rest => max v.depth (itemsDepth rest)

/-- How deep the deepest value of an object's members nests. -/
def membersDepth : List (String × Value) → Nat
  | [] => 0
  | (_, v) :: rest => max v.depth (membersDepth rest)

end

mutual

/-- A value with the members of its objects in ascending order of the keys; of two with one key
the later stands. -/
def sorted : Value → Value
  | .array items => .array (sortedItems items)
  | .object members => ofMembers (sortedMembers members)
  | v => v

/-- Several values with the members of their objects in order. -/
def sortedItems : List Value → List Value
  | [] => []
  | v :: rest => v.sorted :: sortedItems rest

def sortedMembers : List (String × Value) → List (String × Value)
  | [] => []
  | (k, v) :: rest => (k, v.sorted) :: sortedMembers rest

end

theorem itemsDepth_le {items : List Value} {n : Nat} :
    itemsDepth items ≤ n ↔ ∀ v ∈ items, v.depth ≤ n := by
  induction items with
  | nil => simp [itemsDepth]
  | cons v rest ih => simp [itemsDepth, ih]

theorem membersDepth_le {members : List (String × Value)} {n : Nat} :
    membersDepth members ≤ n ↔ ∀ m ∈ members, m.2.depth ≤ n := by
  induction members with
  | nil => simp [membersDepth]
  | cons m rest ih => simp only [membersDepth, Nat.max_le, ih, List.forall_mem_cons]

/-- Members leave one level to their values. -/
theorem depth_le_of_mem {members : List (String × Value)} {n : Nat} {m : String × Value}
    (fits : (Value.object members).depth ≤ n + 1) (inside : m ∈ members) : m.2.depth ≤ n :=
  membersDepth_le.mp (Nat.le_of_succ_le_succ fits) m inside

theorem sortedItems_eq_map (items : List Value) : sortedItems items = items.map sorted := by
  induction items with
  | nil => rfl
  | cons v rest ih => rw [sortedItems, ih, List.map_cons]

theorem sortedMembers_eq_map (members : List (String × Value)) :
    sortedMembers members = members.map fun m => (m.1, m.2.sorted) := by
  induction members with
  | nil => rfl
  | cons m rest ih => rw [sortedMembers, ih, List.map_cons]

/-- A value in order stays as it is. -/
theorem Ordered.sorted {v : Value} (ordered : v.Ordered) : v.sorted = v := by
  induction ordered with
  | array each ih =>
    rw [Value.sorted, sortedItems_eq_map, List.map_congr_left ih, List.map_id']
  | object ascending each ih =>
    have same : ∀ m ∈ _, ((m.1, m.2.sorted) : String × Value) = m := fun m inside =>
      Prod.ext rfl (ih m inside)
    rw [Value.sorted, sortedMembers_eq_map, List.map_congr_left same, List.map_id', ofMembers,
      Keyed.ofList_of_sorted ascending]
  | _ => rfl

theorem compactItems_eq (items : List Value) :
    compactItems items = ",".intercalate (items.map compact) := by
  induction items with
  | nil => rfl
  | cons v rest ih =>
    cases rest with
    | nil => rw [compactItems, List.map_singleton, String.intercalate_singleton]
    | cons next rest =>
      rw [compactItems, ih, List.map_cons, List.map_cons, List.map_cons,
        String.intercalate_cons_cons]
      exact List.cons_ne_nil _ _

theorem compactMembers_eq (members : List (String × Value)) :
    compactMembers members =
      ",".intercalate (members.map fun m => quote m.1 ++ ":" ++ m.2.compact) := by
  induction members with
  | nil => rfl
  | cons m rest ih =>
    cases rest with
    | nil => rw [compactMembers, List.map_singleton, String.intercalate_singleton]
    | cons next rest =>
      rw [compactMembers, ih, List.map_cons, List.map_cons, List.map_cons,
        String.intercalate_cons_cons]
      exact List.cons_ne_nil _ _

/-! ## Reading -/

theorem values?_map {α : Type} {room : Nat} {tree : α → Tree} {value : α → Value} {items : List α}
    (each : ∀ a ∈ items, Tree.value? room (tree a) = some (value a)) :
    Tree.values? room (items.map tree) = some (items.map value) := by
  induction items with
  | nil => rfl
  | cons a rest ih =>
    obtain ⟨first, others⟩ := List.forall_mem_cons.mp each
    rw [List.map_cons, Tree.values?, first, ih others]
    rfl

theorem members?_map {α : Type} {room : Nat} {document : α → String × Document}
    {value : α → Value} {members : List α}
    (each : ∀ a ∈ members, Tree.value? room (document a).2.tree = some (value a)) :
    Tree.members? room (members.map (Document.memberTree ∘ document)) =
      some (members.map fun a => ((document a).1, value a)) := by
  induction members with
  | nil => rfl
  | cons a rest ih =>
    obtain ⟨first, others⟩ := List.forall_mem_cons.mp each
    rw [List.map_cons, Function.comp, Document.memberTree, Tree.members?, text?_spelled, first,
      ih others]
    rfl

/-- The text of a value without doubles is read as the value with its objects in order. -/
theorem Exact.document {v : Value} (exact : v.Exact) :
    ∃ d : Document, d.text = v.compact ∧
      ∀ room, v.depth ≤ room → Tree.value? room d.tree = some v.sorted := by
  -- For every value inside there is a text by induction; the container is put together from these.
  induction exact with
  | null => exact ⟨.null, rfl, fun _ _ => rfl⟩
  | bool b => exact ⟨.bool b, rfl, fun _ _ => rfl⟩
  | int least greatest => exact ⟨.int _, rfl, fun _ _ => value?_ofInt least greatest⟩
  | string s =>
    refine ⟨.string s, rfl, fun _ _ => ?_⟩
    rw [Document.string_tree, Tree.value?, text?_spelled]
    rfl
  | @array items each ih =>
    choose! document text read using ih
    refine ⟨.array (items.map document), ?_, fun room fits => ?_⟩
    · have texts : (items.map document).map Document.text = items.map compact := by
        rw [List.map_map]
        exact List.map_congr_left text
      rw [Document.array_text, texts, compact, compactItems_eq]
    · rw [depth] at fits
      have inner : ∀ v ∈ items, Tree.value? (room - 1) (document v).tree = some v.sorted :=
        fun v inside => read v inside _ (itemsDepth_le.mp (by omega) v inside)
      have trees : Tree.values? (room - 1) ((items.map document).map Document.tree) =
          some (items.map sorted) := by
        rw [List.map_map]
        exact values?_map inner
      rw [Document.array_tree, Tree.value?, if_neg (by omega), trees, sorted, sortedItems_eq_map]
      rfl
  | @object members each ih =>
    choose! document text read using ih
    refine ⟨.object (members.map fun m => (m.1, document m)), ?_, fun room fits => ?_⟩
    · have texts : (members.map fun m => (m.1, document m)).map Document.memberText =
          members.map fun m => quote m.1 ++ ":" ++ m.2.compact := by
        rw [List.map_map]
        exact List.map_congr_left fun m inside => by
          rw [Function.comp, Document.memberText, text m inside]
      rw [Document.object_text, texts, compact, compactMembers_eq]
    · rw [depth] at fits
      have inner : ∀ m ∈ members, Tree.value? (room - 1) (document m).tree = some m.2.sorted :=
        fun m inside => read m inside _ (membersDepth_le.mp (by omega) m inside)
      have trees : Tree.members? (room - 1)
          ((members.map fun m => (m.1, document m)).map Document.memberTree) =
            some (members.map fun m => (m.1, m.2.sorted)) := by
        rw [List.map_map]
        exact members?_map inner
      rw [Document.object_tree, Tree.value?, if_neg (by omega), trees, sorted, sortedMembers_eq_map]
      rfl

/-- A text of a value, with the members of its objects in any order. -/
def Spelled (room : Nat) (v : Value) (d : Document) : Prop :=
  ∃ w : Value, w.Exact ∧ w.depth ≤ room ∧ w.sorted = v ∧ d.text = w.compact

theorem Spelled.value? {room : Nat} {v : Value} {d : Document} (spelled : v.Spelled room d) :
    Tree.value? room d.tree = some v := by
  obtain ⟨w, exact, fits, rfl, text⟩ := spelled
  obtain ⟨d', text', read⟩ := exact.document
  rw [Document.tree_eq (text.trans text'.symm)]
  exact read room fits

end Value

end PacedLoad.Json
