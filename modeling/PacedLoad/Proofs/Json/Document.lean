import PacedLoad.Proofs.Json.Tokens

/-!
# Texts of one value

A text of one JSON value keeps its structure inside a container.  So a text of an array or an
object is put together from texts of its items or members, and its structure from theirs.
-/

namespace PacedLoad.Json

/-! ## From one place to another -/

def Cursor.within (outer : List Frame) : Cursor → Cursor
  | .value open_ => .value (open_ ++ outer)
  | .firstItem open_ => .firstItem (open_ ++ outer)
  | .firstKey open_ => .firstKey (open_ ++ outer)
  | .key done open_ => .key done (open_ ++ outer)
  | .colon done k open_ => .colon done k (open_ ++ outer)
  | .after tree open_ => .after tree (open_ ++ outer)

/-- Where a token leads does not depend on the containers around. -/
theorem step_within {c c' : Cursor} {t : Token} (outer : List Frame)
    (stepped : c.step t = some c') :
    (c.within outer).step t = some (c'.within outer) := by
  have started : ∀ open_, startValue open_ t = some c' →
      startValue (open_ ++ outer) t = some (c'.within outer) := by
    intro open_ starts
    cases t <;> cases starts <;> rfl
  cases c with
  | value open_ => exact started open_ stepped
  | firstItem open_ =>
    cases t with
    | closeBracket =>
      cases stepped
      rfl
    | _ => exact started (.items [] :: open_) stepped
  | after tree open_ =>
    cases open_ with
    | nil => cases stepped
    | cons frame open_ => cases frame <;> cases t <;> cases stepped <;> rfl
  | _ => cases t <;> cases stepped <;> rfl

/-- A text leads from one place to another. -/
def Leads (s : List Char) (c c' : Cursor) : Prop :=
  ∃ ts, tokens s = some ts ∧ ts.foldlM Cursor.step c = some c'

namespace Leads

variable {s more : List Char} {c c' c'' : Cursor}

theorem nil (c : Cursor) : Leads [] c c := ⟨[], tokens_nil, rfl⟩

theorem append (first : Leads s c c') (breaks : Breaks more) (second : Leads more c' c'') :
    Leads (s ++ more) c c'' := by
  obtain ⟨ts, split, run⟩ := first
  obtain ⟨ts', split', run'⟩ := second
  refine ⟨ts ++ ts', ?_, ?_⟩
  · rw [tokens_append breaks split, split']
    rfl
  · rw [List.foldlM_append, run]
    exact run'

/-- One character may be a token whatever follows. -/
theorem mark {m : Char} {t : Token} (scanned : scan m more = some (t, more))
    (solid : isBlank m = false) (stepped : c.step t = some c') (rest : Leads more c' c'') :
    Leads (m :: more) c c'' := by
  obtain ⟨ts, split, run⟩ := rest
  refine ⟨t :: ts, ?_, ?_⟩
  · rw [tokens_cons, solid, if_neg Bool.false_ne_true, scanned, Option.bind_some, split]
    rfl
  · rw [List.foldlM_cons, stepped]
    exact run

theorem within (outer : List Frame) (leads : Leads s c c') :
    Leads s (c.within outer) (c'.within outer) := by
  obtain ⟨ts, split, run⟩ := leads
  refine ⟨ts, split, ?_⟩
  clear split
  induction ts generalizing c with
  | nil =>
    cases run
    rfl
  | cons t ts ih =>
    rw [List.foldlM_cons] at run ⊢
    obtain ⟨next, stepped, later⟩ := Option.bind_eq_some_iff.mp run
    rw [step_within outer stepped]
    exact ih later

/-- The first token may be read in another place if it leads to the same. -/
theorem restart {start : Cursor} (leads : Leads s c c') (moved : c ≠ c')
    (same : ∀ t next, c.step t = some next → start.step t = some next) : Leads s start c' := by
  obtain ⟨ts, split, run⟩ := leads
  cases ts with
  | nil => exact absurd (Option.some.inj run) moved
  | cons t ts =>
    refine ⟨t :: ts, split, ?_⟩
    rw [List.foldlM_cons] at run ⊢
    obtain ⟨next, stepped, later⟩ := Option.bind_eq_some_iff.mp run
    rw [same t next stepped]
    exact later

/-- Parts with commas between them, up to the closing mark of their container.  A part is read at
`here done`, where `done` are the entries so far, last first, and is complete at `past`. -/
theorem joined {β γ : Type} {text : β → String} {entry : β → γ} {past : β → List γ → Cursor}
    {m : Char} {t : Token} (here whole : List γ → Cursor)
    (part : ∀ b done, Leads (text b).toList (here done) (past b done))
    (comma : ∀ b done, (past b done).step .comma = some (here (entry b :: done)))
    (close : ∀ b done, (past b done).step t = some (whole (entry b :: done).reverse))
    (closing : m = ']' ∨ m = '\x7d') (scanned : scan m [] = some (t, [])) (b : β) (rest : List β)
    (done : List γ) :
    Leads ((",".intercalate ((b :: rest).map text)).toList ++ [m]) (here done)
      (whole (done.reverse ++ (b :: rest).map entry)) := by
  -- Each comma moves the part before it to the entries that are done.
  induction rest generalizing b done with
  | nil =>
    have solid : isBlank m = false ∧ Breaks [m] := by
      rcases closing with rfl | rfl <;> exact ⟨rfl, breaks_mark (by decide)⟩
    have closed := Leads.mark scanned solid.1 (close b done) (.nil _)
    rw [List.reverse_cons] at closed
    exact (part b done).append solid.2 closed
  | cons next rest ih =>
    have more : Leads (',' :: ((",".intercalate ((next :: rest).map text)).toList ++ [m]))
        (past b done) (whole ((entry b :: done).reverse ++ (next :: rest).map entry)) :=
      .mark rfl rfl (comma b done) (ih next (entry b :: done))
    rw [List.reverse_cons, List.append_assoc] at more
    have all := (part b done).append (breaks_mark (by decide)) more
    simpa [String.intercalate_cons_cons] using all

end Leads

theorem ofText?_iff {text : String} {tree : Tree} :
    Tree.ofText? text = some tree ↔ Leads text.toList (.value []) (.after tree []) := by
  unfold Tree.ofText? Leads
  rw [Option.bind_eq_some_iff]
  refine exists_congr fun ts => and_congr_right fun _ => ?_
  unfold Tree.ofTokens?
  split
  next found => rw [found]; simp
  next wrong =>
    simp only [reduceCtorEq, false_iff]
    exact wrong tree

/-! ## Documents -/

/-- A text of one value, with its structure.  Numbers out of range and halves of surrogate pairs
may stand in it, and its containers may nest to any depth. -/
structure Document where
  text : String
  tree : Tree
  read : Tree.ofText? text = some tree

namespace Document

/-- The text determines the structure. -/
theorem tree_eq {d d' : Document} (same : d.text = d'.text) : d.tree = d'.tree :=
  Option.some.inj (d.read.symm.trans (same ▸ d'.read))

/-- Inside a container a text leads to where its value is complete. -/
theorem leads (d : Document) (outer : List Frame) :
    Leads d.text.toList (.value outer) (.after d.tree outer) :=
  (ofText?_iff.mp d.read).within outer

def ofToken (text : String) (t : Token) (tree : Tree) (split : tokens text.toList = some [t])
    (starts : startValue [] t = some (.after tree [])) : Document :=
  ⟨text, tree, ofText?_iff.mpr ⟨[t], split, by rw [List.foldlM_cons, Cursor.step, starts]; rfl⟩⟩

def null : Document :=
  ofToken "null" .null .null (by simp [tokens_cons, tokens_nil, isBlank, scan]) rfl

instance : Inhabited Document := ⟨null⟩

def bool (b : Bool) : Document :=
  ofToken (if b then "true" else "false") (.bool b) (.bool b)
    (by cases b <;> simp [tokens_cons, tokens_nil, isBlank, scan]) rfl

def int (n : Int) : Document :=
  ofToken (toString n) (.number (.ofInt n)) (.number (.ofInt n)) (tokens_integer n) rfl

def string (s : String) : Document :=
  ofToken (quote s) (.string (spelled s)) (.string (spelled s)) (tokens_quote s) rfl

@[simp] theorem null_text : null.text = "null" := rfl

@[simp] theorem null_tree : null.tree = .null := rfl

@[simp] theorem bool_text (b : Bool) : (bool b).text = if b then "true" else "false" := rfl

@[simp] theorem bool_tree (b : Bool) : (bool b).tree = .bool b := rfl

@[simp] theorem int_text (n : Int) : (int n).text = toString n := rfl

@[simp] theorem int_tree (n : Int) : (int n).tree = .number (.ofInt n) := rfl

@[simp] theorem string_text (s : String) : (string s).text = quote s := rfl

@[simp] theorem string_tree (s : String) : (string s).tree = .string (spelled s) := rfl

def array (items : List Document) : Document where
  text := "[" ++ ",".intercalate (items.map text) ++ "]"
  tree := .array (items.map tree)
  read := by
    rw [ofText?_iff, String.toList_append, String.toList_append, List.append_assoc]
    cases items with
    | nil => exact .mark rfl rfl rfl (.mark rfl rfl rfl (.nil _))
    | cons d rest =>
      have items : Leads ((",".intercalate ((d :: rest).map text)).toList ++ [']'])
          (.value [.items []]) (.after (.array ((d :: rest).map tree)) []) :=
        .joined (fun done => .value [.items done]) (fun done => .after (.array done) [])
          (fun d done => d.leads [.items done]) (fun _ _ => rfl) (fun _ _ => rfl) (.inl rfl) rfl
          d rest []
      have first : Leads ((",".intercalate ((d :: rest).map text)).toList ++ [']']) (.firstItem [])
          (.after (.array ((d :: rest).map tree)) []) := by
        refine items.restart nofun fun t next starts => ?_
        cases t <;> first | exact starts | cases starts
      exact .mark rfl rfl rfl first

@[simp] theorem array_text (items : List Document) :
    (array items).text = "[" ++ ",".intercalate (items.map text) ++ "]" := rfl

@[simp] theorem array_tree (items : List Document) :
    (array items).tree = .array (items.map tree) := rfl

def memberText (m : String × Document) : String := quote m.1 ++ ":" ++ m.2.text

def memberTree (m : String × Document) : List StringPart × Tree := (spelled m.1, m.2.tree)

theorem leads_member (m : String × Document) (done : List (List StringPart × Tree))
    (outer : List Frame) :
    Leads (memberText m).toList (.key done outer)
      (.after m.2.tree (.members done (spelled m.1) :: outer)) := by
  have key : Leads (quote m.1).toList (.key done outer) (.colon done (spelled m.1) outer) :=
    ⟨_, tokens_quote m.1, rfl⟩
  have colon : Leads (':' :: m.2.text.toList) (.colon done (spelled m.1) outer)
      (.after m.2.tree (.members done (spelled m.1) :: outer)) := .mark rfl rfl rfl (m.2.leads _)
  have joined := key.append (breaks_mark (by decide)) colon
  simpa [memberText] using joined

def object (members : List (String × Document)) : Document where
  text := "\x7b" ++ ",".intercalate (members.map memberText) ++ "\x7d"
  tree := .object (members.map memberTree)
  read := by
    rw [ofText?_iff, String.toList_append, String.toList_append, List.append_assoc]
    cases members with
    | nil => exact .mark rfl rfl rfl (.mark rfl rfl rfl (.nil _))
    | cons m rest =>
      have inner : Leads ((",".intercalate ((m :: rest).map memberText)).toList ++ ['\x7d'])
          (.key [] []) (.after (.object ((m :: rest).map memberTree)) []) :=
        .joined (fun done => .key done []) (fun done => .after (.object done) [])
          (fun m done => leads_member m done []) (fun _ _ => rfl) (fun _ _ => rfl) (.inr rfl) rfl
          m rest []
      have first : Leads ((",".intercalate ((m :: rest).map memberText)).toList ++ ['\x7d'])
          (.firstKey []) (.after (.object ((m :: rest).map memberTree)) []) := by
        refine inner.restart nofun fun t next starts => ?_
        cases t <;> first | exact starts | cases starts
      exact .mark rfl rfl rfl first

@[simp] theorem object_text (members : List (String × Document)) :
    (object members).text = "\x7b" ++ ",".intercalate (members.map memberText) ++ "\x7d" := rfl

@[simp] theorem object_tree (members : List (String × Document)) :
    (object members).tree = .object (members.map memberTree) := rfl

end Document

end PacedLoad.Json
