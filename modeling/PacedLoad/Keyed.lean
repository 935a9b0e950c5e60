/-!
# Entries in key order

A list of entries that stays in strictly ascending order of its keys when
entries are inserted and erased.  Keys compare by the code points of their
characters, which is also the order of their bytes.
-/

namespace PacedLoad

/-- Values with their keys, meant to be kept in ascending order of the keys. -/
abbrev Keyed (β : Type) := List (String × β)

namespace Keyed

variable {β : Type}

def find? (k : String) : Keyed β → Option β
  | [] => none
  | (k', v) :: rest => if k = k' then some v else find? k rest

def contains (k : String) (m : Keyed β) : Bool := (find? k m).isSome

/-- Puts a value under a key, in place of the one that was there. -/
def insert (k : String) (v : β) : Keyed β → Keyed β
  | [] => [(k, v)]
  | (k', v') :: rest =>
    if k = k' then (k, v) :: rest
    else if k < k' then (k, v) :: (k', v') :: rest
    else (k', v') :: insert k v rest

def erase (k : String) : Keyed β → Keyed β
  | [] => []
  | (k', v') :: rest => if k = k' then rest else (k', v') :: erase k rest

/-- Entries given in any order; of two with one key the later stands. -/
def ofList (entries : List (String × β)) : Keyed β :=
  entries.foldl (fun m e => insert e.1 e.2 m) []

/-- The entries, with those of `news` added or put in place of the ones that were there. -/
def merge (m news : Keyed β) : Keyed β := news.foldl (fun m e => insert e.1 e.2 m) m

def startingAt (start : String) (m : Keyed β) : Keyed β := m.filter fun e => !(e.1 < start : Bool)

/-- The keys ascend strictly. -/
def Sorted (m : Keyed β) : Prop := m.Pairwise (fun a b => a.1 < b.1)

theorem find?_insert_self (k : String) (v : β) (m : Keyed β) :
    find? k (insert k v m) = some v := by
  induction m with
  | nil => simp [insert, find?]
  | cons e rest ih =>
    simp only [insert]
    split
    · simp [find?]
    · split
      · simp [find?]
      · rename_i h _
        simp [find?, h, ih]

theorem find?_insert_of_ne {k k' : String} (h : k' ≠ k) (v : β) (m : Keyed β) :
    find? k' (insert k v m) = find? k' m := by
  induction m with
  | nil => simp [insert, find?, h]
  | cons e rest ih =>
    simp only [insert]
    split
    · rename_i hk
      simp [find?, h, ← hk]
    · split
      · simp [find?, h]
      · simp [find?, ih]

end Keyed

end PacedLoad
