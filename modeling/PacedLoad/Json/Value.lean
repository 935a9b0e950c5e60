import PacedLoad.Binary64
import PacedLoad.Keyed

/-!
# JSON values

Whole numbers of at most 64 bits stay exact; all other numbers are doubles.
An object that was read from text has its members in ascending order of the
keys; one that is written for a record has them in the record's order.
-/

namespace PacedLoad.Json

inductive Value
  | null
  | bool (b : Bool)
  | int (n : Int)
  | double (x : Binary64)
  | string (s : String)
  | array (items : List Value)
  | object (members : List (String × Value))
deriving BEq, Repr, Inhabited

namespace Value

/-- An object of members in any order; of two with one key the later stands. -/
def ofMembers (members : List (String × Value)) : Value := .object (Keyed.ofList members)

def nat (n : Nat) : Value := .int n

def member? (key : String) : Value → Option Value
  | .object members => Keyed.find? key members
  | _ => none

def text? : Value → Option String
  | .string s => some s
  | _ => none

def nat? : Value → Option Nat
  | .int (.ofNat n) => some n
  | _ => none

/-- The value itself, or null when there is none. -/
def ofOption {α : Type} (f : α → Value) : Option α → Value
  | none => .null
  | some a => f a

end Value

end PacedLoad.Json
