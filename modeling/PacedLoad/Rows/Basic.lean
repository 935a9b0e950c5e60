import PacedLoad.Text.Blank
import PacedLoad.Text.Lines
import PacedLoad.Text.Quoted

/-!
# Rows of delimited text

Every line that is not blank is a row of columns.  A row is turned into an event
by the decoder that its key selects.  A row that fails does not end the stream.
-/

namespace PacedLoad.Rows

abbrev Row := List String

inductive DecodingError
  | noDecoder (row : Row) (key : String)
  | invalidRow (row : Row) (reason : String)
  /-- The row could not be read at all. -/
  | unreadable (text : String)
deriving DecidableEq, Repr

def DecodingError.message : DecodingError → String
  | .noDecoder row key =>
    "No decoder found that matches this row\nROW: " ++ Text.quotedList row ++ "\nDECODER KEY: " ++ key
  | .invalidRow row reason => "Invalid row " ++ Text.quotedList row ++ ": " ++ reason
  | .unreadable text => "Failed to read rows: " ++ text

/-- The reason why a line can not be read. -/
def notText : String := "stream did not contain valid UTF-8"

/-- The row of a line, or none when the line is blank. -/
def ofLine (delimiter : String) (line : List UInt8) : Option (Except DecodingError Row) :=
  match Text.ofBytes? line with
  | none => some (.error (.unreadable notText))
  | some s => if (Text.trim s).isEmpty then none else some (.ok (Text.columns delimiter s))

def ofBytes (delimiter : String) (bytes : List UInt8) : List (Except DecodingError Row) :=
  (Text.lines bytes).filterMap (ofLine delimiter)

/-- What decodes the rows with some key.  A decoder may change a state that all of them share. -/
abbrev Decoders (σ τ : Type) := String → Option (σ → Row → σ × Except DecodingError τ)

def decodeRow {σ τ : Type} (decoders : Decoders σ τ) (key : Row → String) (s : σ) :
    Except DecodingError Row → σ × Except DecodingError τ
  | .error e => (s, .error e)
  | .ok row =>
    match decoders (key row) with
    | some decode => decode s row
    | none => (s, .error (.noDecoder row (key row)))

def decode {σ τ : Type} (decoders : Decoders σ τ) (key : Row → String) (s : σ) :
    List (Except DecodingError Row) → List (Except DecodingError τ)
  | [] => []
  | row :: rest =>
    let (s, r) := decodeRow decoders key s row
    r :: decode decoders key s rest

end PacedLoad.Rows
