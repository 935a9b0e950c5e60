import PacedLoad.Text.Hidden

/-!
# Quoted text in messages

Text and lists of texts as messages show them: quoted, with hidden characters
written as their code points.
-/

namespace PacedLoad.Text

def codePoint (n : Nat) : String := String.ofList (Nat.toDigits 16 n)

def showChar (c : Char) : String :=
  match c with
  | '"' => "\\\""
  | '\\' => "\\\\"
  | '\n' => "\\n"
  | '\r' => "\\r"
  | '\t' => "\\t"
  | '\x00' => "\\0"
  | c => if isHidden c then "\\u\x7b" ++ codePoint c.toNat ++ "\x7d" else c.toString

def quoted (s : String) : String := "\"" ++ String.join (s.toList.map showChar) ++ "\""

def quotedList (items : List String) : String :=
  "[" ++ String.intercalate ", " (items.map quoted) ++ "]"

end PacedLoad.Text
