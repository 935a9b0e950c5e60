import PacedLoad.Text.Quoted

/-!
# Values with their fields as text

The form in which a failed command shows its error: the name of the case, then
its fields in braces or its only part in parentheses.
-/

namespace PacedLoad.Text

def withFields (name : String) (fields : List (String × String)) : String :=
  name ++ " \x7b " ++ String.intercalate ", " (fields.map fun f => f.1 ++ ": " ++ f.2) ++ " \x7d"

def withPart (name part : String) : String := name ++ "(" ++ part ++ ")"

end PacedLoad.Text
