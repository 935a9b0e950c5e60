import PacedLoad.Command.Machine

/-!
# The files that a command sees

Files in the working directory, on some machine.  Directories exist as far as files are in them.
`read` and `create` follow a path name by name and stop at the first name that leads nowhere.
-/

namespace PacedLoad.Command

structure Folder where
  machine : Machine
  files : List (Place × List UInt8)

namespace Folder

def ofFiles (machine : Machine) (files : List (String × List UInt8)) : Folder :=
  ⟨machine, files.map fun f => (machine.workingDirectory ++ Place.ofPath f.1, f.2)⟩

def node (folder : Folder) (p : Place) : Node :=
  match folder.files.lookup p with
  | some bytes => .file bytes
  | none => if folder.files.any (p.isPrefixOf ·.1) then .directory else folder.machine.node p

/-- Follows one name, which is looked up in a directory only.  A name has at most 255 bytes, and
the root is above itself. -/
def follow (folder : Folder) (p : Place) (name : String) : Except FileError Place :=
  match folder.node p with
  | .directory =>
    if name = "." then .ok p
    else if name = ".." then .ok p.dropLast
    else if 255 < name.utf8ByteSize then .error .nameTooLong
    else .ok (folder.machine.resolve (p ++ [name]))
  | .nothing => .error .notFound
  | .file _ | .device _ => .error .notDirectory

/-- Follows several names from where a path begins. -/
def walk (folder : Folder) (path : String) (names : List String) : Except FileError Place :=
  names.foldlM folder.follow
    (if path.startsWith "/" then [] else folder.machine.workingDirectory)

/-- A path that is no path: it holds the character that ends paths, is empty or has 4096 bytes or
more. -/
def refusal (path : String) : Option FileError :=
  if path.contains '\x00' then some .nulInName
  else if path = "" then some .notFound
  else if 4096 ≤ path.utf8ByteSize then some .nameTooLong
  else none

/-- The content of a file.  A path with a slash at its end can only be that of a directory. -/
def read (folder : Folder) (path : String) : Except FileError (List UInt8) := do
  if let some e := refusal path then throw e
  let ofFile (content : Except FileError (List UInt8)) :=
    if path.endsWith "/" then .error .notDirectory else content
  match folder.node (← folder.walk path (Place.ofPath path)) with
  | .file bytes => ofFile (.ok bytes)
  | .device d => ofFile d.content
  | .directory => .error .isDirectory
  | .nothing => .error .notFound

/-- The place of a file that is to be made or overwritten.  Its directory has to exist and to
take files. -/
def target (folder : Folder) (path : String) : Except FileError Place := do
  if let some e := refusal path then throw e
  let names := Place.ofPath path
  let directory ← folder.walk path names.dropLast
  let p ← folder.follow directory (if path.endsWith "/" then "." else names.getLastD ".")
  match folder.node p with
  | .file _ => return p
  | .device d => d.opening.map fun _ => p
  | .directory => throw .isDirectory
  | .nothing =>
    match folder.machine.refusal p with
    | some e => throw e
    | none => return p

def create (folder : Folder) (path : String) : Except FileError Folder := do
  let p ← folder.target path
  match folder.node p with
  | .device _ => return folder
  | _ => return { folder with files := (p, []) :: folder.files.filter (·.1 != p) }

def save (folder : Folder) (path : String) : Except FileError Outlet := do
  match folder.node (← folder.target path) with
  | .device d => d.writing
  | _ => return .elsewhere

/-- Whether a text can be written to a file. -/
def accepts (folder : Folder) (path : String) : Except FileError Unit :=
  (folder.save path).map fun _ => ()

/-- The texts that reach an outlet, of those that are written to files. -/
def reaching (folder : Folder) (outlet : Outlet) (written : List (String × String)) : String :=
  String.join ((written.filter fun w => (folder.save w.1).toOption == some outlet).map (·.2))

end Folder

end PacedLoad.Command
