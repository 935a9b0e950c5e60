import PacedLoad.Json.Value
import PacedLoad.Rows.Basic
import PacedLoad.Text.Numeral

/-!
# Simple decoders

Decoders that make a value of a single column, or count their rows.
-/

namespace PacedLoad.Rows

open Json (Value)

inductive Simple
  /-- The second column as a whole number. -/
  | integer
  /-- The second column as text, or null. -/
  | text
  /-- How many rows this decoder has seen. -/
  | count
deriving DecidableEq, Repr

def Simple.decode (kind : Simple) (key : String) (seen : Keyed Nat) (row : Row) :
    Keyed Nat × Except DecodingError Value :=
  match kind with
  | .integer =>
    match row[1]? with
    | none => (seen, .error (.invalidRow row "no column"))
    | some column =>
      match Text.integer? column with
      | none => (seen, .error (.invalidRow row "not a number"))
      | some n => (seen, .ok (.int n))
  | .text => (seen, .ok (Value.ofOption Value.string row[1]?))
  | .count =>
    let n := (Keyed.find? key seen).getD 0 + 1
    (Keyed.insert key n seen, .ok (.nat n))

def decodeSimple (decoders : List (String × Simple)) (keyColumn : Nat) (delimiter : String)
    (bytes : List UInt8) : List (Except DecodingError Value) :=
  decode (fun key => (decoders.lookup key).map fun kind => kind.decode key)
    (fun row => row.getD keyColumn "") [] (ofBytes delimiter bytes)

end PacedLoad.Rows
