import PacedLoad.Json.Tree

/-!
# Reading records

A record is written as an object of named fields, or as an array of its fields
in their declared order.  In an object a field may come in any place but only
once, and unknown fields are passed over.
-/

namespace PacedLoad.Json

/-- Reads a value of some type from a tree whose containers nest at most so deep. -/
abbrev Decoder (α : Type) := Nat → Tree → Option α

/-- The fields of a record that are present, and how deep their values may nest. -/
structure Record where
  named : Bool
  room : Nat
  fields : List (String × Tree)

def keyed? : List (List StringPart × Tree) → Option (List (String × Tree))
  | [] => some []
  | (k, t) :: rest => do
    let key ← text? k
    let more ← keyed? rest
    some ((key, t) :: more)

def repeats (names : List String) (fields : List (String × Tree)) : Bool :=
  names.any fun name => decide (1 < fields.countP (·.1 == name))

def Record.ofTree? (names : List String) (room : Nat) : Tree → Option Record
  | .object members => do
    let fields ← keyed? members
    if room = 0 ∨ repeats names fields then none else some ⟨true, room - 1, fields⟩
  | .array items =>
    if room = 0 ∨ names.length < items.length then none
    else some ⟨false, room - 1, names.zip items⟩
  | _ => none

def Record.find? (r : Record) (name : String) : Option Tree := r.fields.lookup name

def Record.required {α : Type} (r : Record) (name : String) (read : Decoder α) : Option α :=
  (r.find? name).bind (read r.room)

/-- A field that has a value when it is absent. -/
def Record.withDefault {α : Type} (r : Record) (name : String) (value : α) (read : Decoder α) :
    Option α :=
  match r.find? name with
  | none => some value
  | some t => read r.room t

def nullable {α : Type} (read : Decoder α) : Decoder (Option α)
  | _, .null => some none
  | room, t => (read room t).map some

/-- A field that may be null, and in an object may be absent. -/
def Record.optional {α : Type} (r : Record) (name : String) (read : Decoder α) :
    Option (Option α) :=
  match r.find? name with
  | none => if r.named then some none else none
  | some t => nullable read r.room t

namespace Decode

def value : Decoder Value := Tree.value?

/-- A whole number of at most `bits` bits that is not negative. -/
def natural (bits : Nat) : Decoder Nat
  | _, .number n =>
    match n.value? with
    | some (.int (.ofNat k)) => if k < Nat.pow 2 bits then some k else none
    | _ => none
  | _, _ => none

/-- A whole number that fits 32 bits with a sign. -/
def int32 : Decoder Int
  | _, .number n =>
    match n.value? with
    | some (.int k) => if -2147483648 ≤ k ∧ k < 2147483648 then some k else none
    | _ => none
  | _, _ => none

def double : Decoder Binary64
  | _, .number n =>
    match n.value? with
    | some (.int k) =>
      some (if k < 0 then (Binary64.ofNat k.natAbs).neg else Binary64.ofNat k.natAbs)
    | some (.double x) => some x
    | _ => none
  | _, _ => none

def boolean : Decoder Bool
  | _, .bool b => some b
  | _, _ => none

def string : Decoder String
  | _, .string parts => text? parts
  | _, _ => none

def list {α : Type} (read : Decoder α) : Decoder (List α)
  | room, .array items => if room = 0 then none else items.mapM (read (room - 1))
  | _, _ => none

/-- One of several names: a string, or an object with the name as its only key and null under
it. -/
def choice {α : Type} (names : List (String × α)) : Decoder α
  | _, .string parts => (text? parts).bind fun name => List.lookup name names
  | room, .object [(k, .null)] => if room = 0 then none else (text? k).bind fun name => List.lookup name names
  | _, _ => none

end Decode

def Decoder.ofText? {α : Type} (read : Decoder α) (text : String) : Option α :=
  (Tree.ofText? text).bind (read maxDepth)

end PacedLoad.Json
