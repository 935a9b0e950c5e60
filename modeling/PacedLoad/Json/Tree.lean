import PacedLoad.Json.Number

/-!
# Trees of JSON text

A text is read in two steps: `Tree.ofText?` finds its structure and
`Tree.value?` its meaning.  The tree keeps every member of an object in the
order of the text, so that records can refuse a repeated field and pass over
an unknown one.
-/

namespace PacedLoad.Json

/-- The structure of a JSON text. -/
inductive Tree
  | null
  | bool (b : Bool)
  | number (n : Numeral)
  | string (parts : List StringPart)
  | array (items : List Tree)
  | object (members : List (List StringPart × Tree))
deriving Repr, Inhabited

/-- A container that is still open: what it holds so far, last first, and in an object the key
that waits for its value. -/
inductive Frame
  | items (done : List Tree)
  | members (done : List (List StringPart × Tree)) (key : List StringPart)

/-- A place between two tokens, inside the open containers from the innermost outwards. -/
inductive Cursor
  /-- A value must follow. -/
  | value (open_ : List Frame)
  /-- An array was just opened. -/
  | firstItem (open_ : List Frame)
  /-- An object was just opened. -/
  | firstKey (open_ : List Frame)
  /-- A key must follow in an object that holds `done`. -/
  | key (done : List (List StringPart × Tree)) (open_ : List Frame)
  /-- A colon must follow a key. -/
  | colon (done : List (List StringPart × Tree)) (key : List StringPart) (open_ : List Frame)
  /-- A value is complete. -/
  | after (tree : Tree) (open_ : List Frame)

def startValue (open_ : List Frame) : Token → Option Cursor
  | .null => some (.after .null open_)
  | .bool b => some (.after (.bool b) open_)
  | .number n => some (.after (.number n) open_)
  | .string parts => some (.after (.string parts) open_)
  | .openBracket => some (.firstItem open_)
  | .openBrace => some (.firstKey open_)
  | _ => none

/-- The place after one more token, or `none` when the token can not stand there. -/
def Cursor.step : Cursor → Token → Option Cursor
  | .value open_, t => startValue open_ t
  | .firstItem open_, .closeBracket => some (.after (.array []) open_)
  | .firstItem open_, t => startValue (.items [] :: open_) t
  | .firstKey open_, .closeBrace => some (.after (.object []) open_)
  | .firstKey open_, .string k => some (.colon [] k open_)
  | .firstKey _, _ => none
  | .key done open_, .string k => some (.colon done k open_)
  | .key _ _, _ => none
  | .colon done k open_, .colon => some (.value (.members done k :: open_))
  | .colon _ _ _, _ => none
  | .after v (.items done :: open_), .comma => some (.value (.items (v :: done) :: open_))
  | .after v (.items done :: open_), .closeBracket =>
    some (.after (.array (v :: done).reverse) open_)
  | .after v (.members done k :: open_), .comma => some (.key ((k, v) :: done) open_)
  | .after v (.members done k :: open_), .closeBrace =>
    some (.after (.object ((k, v) :: done).reverse) open_)
  | .after _ _, _ => none

/-- The tree of a whole text of tokens: one value and nothing after it. -/
def Tree.ofTokens? (ts : List Token) : Option Tree :=
  match ts.foldlM Cursor.step (.value []) with
  | some (.after tree []) => some tree
  | _ => none

def Tree.ofText? (text : String) : Option Tree := (tokens text.toList).bind Tree.ofTokens?

/-- Whether a 16-bit unit is the first half of a pair. -/
def isHighSurrogate (n : Nat) : Bool := decide (0xD800 ≤ n ∧ n ≤ 0xDBFF)

/-- Whether a 16-bit unit is the second half of a pair. -/
def isLowSurrogate (n : Nat) : Bool := decide (0xDC00 ≤ n ∧ n ≤ 0xDFFF)

/-- The characters of a string; a half of a pair without its other half stands for none. -/
def characters? : List StringPart → Option (List Char)
  | [] => some []
  | .char c :: rest => (characters? rest).map (c :: ·)
  | .unit high :: .unit low :: rest =>
    if isHighSurrogate high then
      if isLowSurrogate low then
        (characters? rest).map (Char.ofNat (0x10000 + (high - 0xD800) * 0x400 + (low - 0xDC00)) :: ·)
      else none
    else if isLowSurrogate high then none
    else (characters? (.unit low :: rest)).map (Char.ofNat high :: ·)
  | .unit n :: rest =>
    if isHighSurrogate n ∨ isLowSurrogate n then none
    else (characters? rest).map (Char.ofNat n :: ·)

def text? (parts : List StringPart) : Option String := (characters? parts).map String.ofList

/-- How deep arrays and objects may nest. -/
def maxDepth : Nat := 127

mutual

/-- The value of a tree whose containers nest at most `room` deep. -/
def Tree.value? (room : Nat) : Tree → Option Value
  | .null => some .null
  | .bool b => some (.bool b)
  | .number n => n.value?
  | .string parts => (text? parts).map .string
  | .array items =>
    if room = 0 then none else (Tree.values? (room - 1) items).map .array
  | .object members =>
    if room = 0 then none else (Tree.members? (room - 1) members).map Value.ofMembers

def Tree.values? (room : Nat) : List Tree → Option (List Value)
  | [] => some []
  | t :: rest => do
    let v ← Tree.value? room t
    let vs ← Tree.values? room rest
    some (v :: vs)

def Tree.members? (room : Nat) : List (List StringPart × Tree) → Option (List (String × Value))
  | [] => some []
  | (k, t) :: rest => do
    let key ← text? k
    let v ← Tree.value? room t
    let ms ← Tree.members? room rest
    some ((key, v) :: ms)

end

def Value.ofText? (text : String) : Option Value := (Tree.ofText? text).bind (Tree.value? maxDepth)

end PacedLoad.Json
