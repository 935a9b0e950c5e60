import PacedLoad.Decimal.Text
import PacedLoad.Json.Value

/-!
# JSON values as text

Compact text has no blanks.  Indented text puts every item and member on a line
of its own, two blanks deeper than its container.
-/

namespace PacedLoad.Json

/-- Doubles are written in full from `10 ^ -5` up to `10 ^ 16`, always with a point, and with a
signed exponent elsewhere. -/
def doubleLayout : Decimal.Layout where
  leastPlain := -5
  pastPlain := 16
  wholeTail := ".0"
  positiveMark := "e+"
  negativeMark := "e-"

/-- A double as text; one that is not finite is null. -/
def doubleText (x : Binary64) : String := (doubleLayout.text? x).getD "null"

def hexDigit (n : Nat) : Char :=
  if n < 10 then Char.ofNat ('0'.toNat + n) else Char.ofNat ('a'.toNat + (n - 10))

/-- A character as it stands inside a string: quote, backslash and control characters are
escaped. -/
def escape (c : Char) : List Char :=
  match c with
  | '"' => ['\\', '"']
  | '\\' => ['\\', '\\']
  | '\x08' => ['\\', 'b']
  | '\x0c' => ['\\', 'f']
  | '\n' => ['\\', 'n']
  | '\r' => ['\\', 'r']
  | '\t' => ['\\', 't']
  | c =>
    if c < ' ' then ['\\', 'u', '0', '0', hexDigit (c.toNat / 16), hexDigit (c.toNat % 16)]
    else [c]

def quote (s : String) : String := String.ofList ('"' :: (s.toList.flatMap escape ++ ['"']))

mutual

def Value.compact : Value → String
  | .null => "null"
  | .bool b => if b then "true" else "false"
  | .int n => toString n
  | .double x => doubleText x
  | .string s => quote s
  | .array items => "[" ++ Value.compactItems items ++ "]"
  | .object members => "\x7b" ++ Value.compactMembers members ++ "\x7d"

def Value.compactItems : List Value → String
  | [] => ""
  | [v] => v.compact
  | v :: rest => v.compact ++ "," ++ Value.compactItems rest

def Value.compactMembers : List (String × Value) → String
  | [] => ""
  | [(k, v)] => quote k ++ ":" ++ v.compact
  | (k, v) :: rest => quote k ++ ":" ++ v.compact ++ "," ++ Value.compactMembers rest

end

def newLine (depth : Nat) : String := "\n" ++ String.ofList (List.replicate (2 * depth) ' ')

mutual

def Value.indented (depth : Nat) : Value → String
  | .array [] => "[]"
  | .object [] => "\x7b\x7d"
  | .array items => "[" ++ Value.indentedItems (depth + 1) items ++ newLine depth ++ "]"
  | .object members => "\x7b" ++ Value.indentedMembers (depth + 1) members ++ newLine depth ++ "\x7d"
  | .null => "null"
  | .bool b => if b then "true" else "false"
  | .int n => toString n
  | .double x => doubleText x
  | .string s => quote s

def Value.indentedItems (depth : Nat) : List Value → String
  | [] => ""
  | [v] => newLine depth ++ v.indented depth
  | v :: rest => newLine depth ++ v.indented depth ++ "," ++ Value.indentedItems depth rest

def Value.indentedMembers (depth : Nat) : List (String × Value) → String
  | [] => ""
  | [(k, v)] => newLine depth ++ quote k ++ ": " ++ v.indented depth
  | (k, v) :: rest =>
    newLine depth ++ quote k ++ ": " ++ v.indented depth ++ "," ++ Value.indentedMembers depth rest

end

def Value.pretty (v : Value) : String := v.indented 0

end PacedLoad.Json
