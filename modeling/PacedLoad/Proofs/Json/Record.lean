import PacedLoad.Json.Record
import PacedLoad.Proofs.Json.Document

/-!
# Records in objects

What is read from an object as a record depends only on the members under the declared names.
So the order of the members is free, unknown ones may be added, and a missing one counts as its
default, if it has one.
-/

namespace PacedLoad.Json

def Decoder.ofRecord {α : Type} (names : List String) (make : Record → Option α) : Decoder α :=
  fun room tree => (Record.ofTree? names room tree).bind make

theorem ofText?_document {α : Type} (read : Decoder α) (d : Document) :
    Decoder.ofText? read d.text = read maxDepth d.tree := by
  rw [Decoder.ofText?, d.read]
  rfl

/-! ## Fields -/

def fieldsOf (members : List (String × Document)) : List (String × Tree) :=
  members.map fun m => (m.1, m.2.tree)

/-- No declared name stands twice. -/
def Once (names : List String) (members : List (String × Document)) : Prop :=
  ∀ name ∈ names, (members.map Prod.fst).count name ≤ 1

instance (names : List String) (members : List (String × Document)) :
    Decidable (Once names members) :=
  inferInstanceAs (Decidable (∀ name ∈ names, (members.map Prod.fst).count name ≤ 1))

/-- Under each declared name stand the same fields, in any order. -/
def Alike (names : List String) (fields fields' : List (String × Tree)) : Prop :=
  ∀ name ∈ names, (fields.filter (·.1 == name)).Perm (fields'.filter (·.1 == name))

variable {α : Type} {names : List String} {members : List (String × Document)}
  {fields fields' : List (String × Tree)} {make : Record → Option α}

theorem keyed?_members (members : List (String × Document)) :
    keyed? (members.map Document.memberTree) = some (fieldsOf members) := by
  induction members with
  | nil => rfl
  | cons m rest ih =>
    rw [List.map_cons, Document.memberTree, keyed?, text?_spelled, ih]
    rfl

/-- An object is read as the record of its fields unless a declared one is there twice. -/
theorem ofRecord_object (make : Record → Option α) (room : Nat)
    (members : List (String × Document)) :
    Decoder.ofRecord names make room (Document.object members).tree =
      if room = 0 ∨ repeats names (fieldsOf members) then none
      else make ⟨true, room - 1, fieldsOf members⟩ := by
  rw [Decoder.ofRecord, Document.object_tree, Record.ofTree?, keyed?_members]
  simp only [bind, Option.bind_some]
  split <;> rfl

theorem repeats_eq_false_iff : repeats names (fieldsOf members) = false ↔ Once names members := by
  have counted : ∀ name, (fieldsOf members).countP (·.1 == name) =
      (members.map Prod.fst).count name := by
    intro name
    rw [fieldsOf, List.countP_map, List.count, List.countP_map]
    rfl
  simp only [repeats, List.any_eq_false, decide_eq_true_eq, Nat.not_lt, counted, Once]

theorem ofRecord_once (make : Record → Option α) (once : Once names members) (room : Nat) :
    Decoder.ofRecord names make (room + 1) (Document.object members).tree =
      make ⟨true, room, fieldsOf members⟩ := by
  rw [ofRecord_object, repeats_eq_false_iff.mpr once, if_neg (by simp), Nat.add_sub_cancel]

theorem lookup_eq_filter (fields : List (String × Tree)) (name : String) :
    fields.lookup name = (fields.filter (·.1 == name)).head?.map Prod.snd := by
  induction fields with
  | nil => rfl
  | cons f rest ih =>
    obtain ⟨key, tree⟩ := f
    by_cases here : name = key
    · subst here
      simp
    · have there : (key == name) = false := beq_eq_false_iff_ne.mpr (Ne.symm here)
      have elsewhere : (name == key) = false := beq_eq_false_iff_ne.mpr here
      rw [List.lookup_cons, elsewhere, ih, List.filter_cons, there]
      rfl

/-- A field is not found if no member has its name. -/
theorem lookup_eq_none {name : String} (absent : ∀ m ∈ members, m.1 ≠ name) :
    (fieldsOf members).lookup name = none := by
  refine List.lookup_eq_none_iff.mpr fun f inside => ?_
  obtain ⟨m, member, rfl⟩ := List.mem_map.mp inside
  exact bne_iff_ne.mpr (absent m member).symm

/-- Of a declared name there is at most one field unless one is there twice. -/
theorem length_filter_le {name : String} (once : repeats names fields = false)
    (declared : name ∈ names) : (fields.filter (·.1 == name)).length ≤ 1 := by
  have counted := List.any_eq_false.mp once name declared
  rw [decide_eq_true_eq, Nat.not_lt, List.countP_eq_length_filter] at counted
  exact counted

/-- A field that is there once is found. -/
theorem lookup_of_mem {name : String} {d : Document} (once : Once names members)
    (declared : name ∈ names) (given : (name, d) ∈ members) :
    (fieldsOf members).lookup name = some d.tree := by
  have few := length_filter_le (repeats_eq_false_iff.mpr once) declared
  have found : (name, d.tree) ∈ (fieldsOf members).filter (·.1 == name) :=
    List.mem_filter.mpr ⟨List.mem_map.mpr ⟨_, given, rfl⟩, beq_self_eq_true name⟩
  rw [lookup_eq_filter]
  generalize (fieldsOf members).filter (·.1 == name) = all at few found
  match all, few, found with
  | [f], _, found =>
    rw [← List.mem_singleton.mp found]
    rfl

theorem once_cons {m : String × Document} (absent : ∀ m' ∈ members, m'.1 ≠ m.1) :
    Once names (m :: members) ↔ Once names members := by
  refine forall₂_congr fun name _ => ?_
  rw [List.map_cons, List.count_cons]
  split
  next here =>
    have none : (members.map Prod.fst).count name = 0 := by
      rw [List.count_eq_zero]
      intro inside
      obtain ⟨m', member, same⟩ := List.mem_map.mp inside
      exact absent m' member (same.trans (beq_iff_eq.mp here).symm)
    omega
  next => rw [Nat.add_zero]

/-- Members under exactly the declared names. -/
theorem once_of_perm (keys : (members.map Prod.fst).Perm names) (nodup : names.Nodup) :
    Once names members := by
  intro name _
  rw [keys.count_eq]
  exact List.nodup_iff_count.mp nodup name

theorem repeats_eq_of_alike (alike : Alike names fields fields') :
    repeats names fields = repeats names fields' := by
  have counted : ∀ name ∈ names, fields.countP (·.1 == name) = fields'.countP (·.1 == name) := by
    intro name declared
    rw [List.countP_eq_length_filter, List.countP_eq_length_filter, (alike name declared).length_eq]
  rw [Bool.eq_iff_iff, repeats, repeats, List.any_eq_true, List.any_eq_true]
  refine exists_congr fun name => and_congr_right fun declared => ?_
  rw [counted name declared]

theorem lookup_eq_of_alike (alike : Alike names fields fields')
    (once : repeats names fields = false) {name : String} (declared : name ∈ names) :
    fields.lookup name = fields'.lookup name := by
  have few := length_filter_le once declared
  have perm := alike name declared
  rw [lookup_eq_filter, lookup_eq_filter]
  generalize fields.filter (·.1 == name) = all at few perm
  match all, few, perm with
  | [], _, perm => rw [List.nil_perm.mp perm]
  | [f], _, perm => rw [List.singleton_perm.mp perm]

theorem required_of_mem {name : String} {d : Document} {read : Decoder α} {a : α} {room : Nat}
    (once : Once names members) (declared : name ∈ names) (given : (name, d) ∈ members)
    (reads : read room d.tree = some a) :
    Record.required ⟨true, room, fieldsOf members⟩ name read = some a := by
  rw [Record.required, Record.find?, lookup_of_mem once declared given]
  exact reads

theorem withDefault_of_mem {name : String} {d : Document} {read : Decoder α} {a : α} {room : Nat}
    (default : α) (once : Once names members) (declared : name ∈ names)
    (given : (name, d) ∈ members) (reads : read room d.tree = some a) :
    Record.withDefault ⟨true, room, fieldsOf members⟩ name default read = some a := by
  rw [Record.withDefault, Record.find?, lookup_of_mem once declared given]
  exact reads

theorem withDefault_of_absent {name : String} (read : Decoder α) (default : α) (room : Nat)
    (absent : ∀ m ∈ members, m.1 ≠ name) :
    Record.withDefault ⟨true, room, fieldsOf members⟩ name default read = some default := by
  rw [Record.withDefault, Record.find?, lookup_eq_none absent]

/-! ## Scalars -/

theorem natural_document (bits : Nat) {limit n : Nat} (fits : n < limit) (size : 2 ^ bits = limit)
    (small : limit ≤ 18446744073709551616) (room : Nat) :
    Decode.natural bits room (Document.int n).tree = some n := by
  rw [Document.int_tree, Decode.natural, value?_ofInt (by omega) (by omega)]
  exact if_pos (Nat.lt_of_lt_of_eq fits size.symm)

theorem int32_document {n : Int} (least : -2147483648 ≤ n) (greatest : n < 2147483648)
    (room : Nat) : Decode.int32 room (Document.int n).tree = some n := by
  rw [Document.int_tree, Decode.int32, value?_ofInt (by omega) (by omega)]
  exact if_pos ⟨least, greatest⟩

theorem string_document (s : String) (room : Nat) :
    Decode.string room (Document.string s).tree = some s :=
  text?_spelled s

/-! ## Order, unknown members, defaults -/

/-- What is made of a record depends on its declared fields only. -/
def Local (names : List String) (make : Record → Option α) : Prop :=
  ∀ named room fields fields', (∀ name ∈ names, fields.lookup name = fields'.lookup name) →
    make ⟨named, room, fields⟩ = make ⟨named, room, fields'⟩

/-- An object reads the same with its members in another order and with further members under
unknown names. -/
def OrderFree (names : List String) (read : Decoder α) : Prop :=
  ∀ members unknown members' : List (String × Document), (∀ m ∈ unknown, m.1 ∉ names) →
    members'.Perm (members ++ unknown) →
    Decoder.ofText? read (Document.object members').text =
      Decoder.ofText? read (Document.object members).text

/-- An object without a member reads the same as with the member's default. -/
def DefaultsTo (read : Decoder α) (name : String) (value : Document) : Prop :=
  ∀ members : List (String × Document), (∀ m ∈ members, m.1 ≠ name) →
    Decoder.ofText? read (Document.object members).text =
      Decoder.ofText? read (Document.object ((name, value) :: members)).text

/-- An object without a member is refused. -/
def Requires (read : Decoder α) (name : String) : Prop :=
  ∀ members : List (String × Document), (∀ m ∈ members, m.1 ≠ name) →
    Decoder.ofText? read (Document.object members).text = none

theorem orderFree_of_local (depends : Local names make) :
    OrderFree names (Decoder.ofRecord names make) := by
  intro members unknown members' foreign perm
  have alike : Alike names (fieldsOf members') (fieldsOf members) := by
    intro name declared
    have none : (fieldsOf unknown).filter (·.1 == name) = [] := by
      refine List.filter_eq_nil_iff.mpr fun f inside same => ?_
      obtain ⟨m, member, rfl⟩ := List.mem_map.mp inside
      exact foreign m member (beq_iff_eq.mp same ▸ declared)
    have mapped : (fieldsOf members').Perm (fieldsOf members ++ fieldsOf unknown) := by
      rw [fieldsOf, fieldsOf, fieldsOf, ← List.map_append]
      exact perm.map _
    have filtered := mapped.filter (·.1 == name)
    rwa [List.filter_append, none, List.append_nil] at filtered
  -- Either order repeats a field or none does; if none does, each name finds the same field.
  rw [ofText?_document, ofText?_document, ofRecord_object, ofRecord_object,
    repeats_eq_of_alike alike]
  split
  · rfl
  next readable =>
    obtain ⟨-, once⟩ := not_or.mp readable
    rw [← repeats_eq_of_alike alike, Bool.not_eq_true] at once
    exact depends _ _ _ _ fun name declared => lookup_eq_of_alike alike once declared

theorem defaultsTo_of {name : String} {value : Document}
    (same : ∀ room fields, fields.lookup name = none →
      make ⟨true, room, fields⟩ = make ⟨true, room, (name, value.tree) :: fields⟩) :
    DefaultsTo (Decoder.ofRecord names make) name value := by
  intro members absent
  have unrepeated : repeats names (fieldsOf ((name, value) :: members)) =
      repeats names (fieldsOf members) := by
    rw [Bool.eq_iff_iff, ← not_iff_not, Bool.not_eq_true, Bool.not_eq_true, repeats_eq_false_iff,
      repeats_eq_false_iff, once_cons absent]
  rw [ofText?_document, ofText?_document, ofRecord_object, ofRecord_object, unrepeated]
  split
  · rfl
  · exact same _ _ (lookup_eq_none absent)

theorem requires_of {name : String}
    (refused : ∀ room fields, fields.lookup name = none → make ⟨true, room, fields⟩ = none) :
    Requires (Decoder.ofRecord names make) name := by
  intro members absent
  rw [ofText?_document, ofRecord_object]
  split
  · rfl
  · exact refused _ _ (lookup_eq_none absent)

end PacedLoad.Json
