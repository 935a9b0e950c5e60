/-!
# Lines of bytes and columns of text

A line ends with a line feed or with a carriage return and a line feed; the last
one may lack its end.  A line is text if its bytes are valid UTF-8.
-/

namespace PacedLoad.Text

/-- A line given backwards, without the carriage return at its end. -/
def withoutReturn : List UInt8 → List UInt8
  | 13 :: rest => rest
  | line => line

/-- The lines of some bytes after `current`, the start of a line given backwards. -/
def linesFrom (current : List UInt8) : List UInt8 → List (List UInt8)
  | [] => if current = [] then [] else [current.reverse]
  | b :: rest =>
    if b = 10 then (withoutReturn current).reverse :: linesFrom [] rest
    else linesFrom (b :: current) rest

def lines (bytes : List UInt8) : List (List UInt8) := linesFrom [] bytes

def ofBytes? (bytes : List UInt8) : Option String := String.fromUTF8? ⟨bytes.toArray⟩

def bytesOf (s : String) : List UInt8 := s.toUTF8.toList

/-- The columns of characters after `current`, the start of a column given backwards. -/
def columnsFrom (delimiter current : List Char) : List Char → List (List Char)
  | [] => [current.reverse]
  | c :: rest =>
    if delimiter ≠ [] ∧ delimiter.isPrefixOf (c :: rest) then
      current.reverse :: columnsFrom delimiter [] (rest.drop (delimiter.length - 1))
    else columnsFrom delimiter (c :: current) rest
termination_by s => s.length

/-- The parts of a text between delimiters, taken from the left.  An empty delimiter stands
before and after every character. -/
def columns (delimiter s : String) : List String :=
  if delimiter = "" then "" :: s.toList.map Char.toString ++ [""]
  else (columnsFrom delimiter.toList [] s.toList).map String.ofList

end PacedLoad.Text
