import PacedLoad.Text.Lines
import PacedLoad.FileError

/-!
# The machine around a command

What is there besides the files of a command: directories with links between some of them,
devices, and the files in which the system tells about itself.  The command runs on any machine.
-/

namespace PacedLoad.Command

/-- A place in the file system, by the names on the way down from the root. -/
abbrev Place := List String

def Place.ofPath (path : String) : Place := (path.splitOn "/").filter (· ≠ "")

inductive Outlet
  /-- It stays in the file or is lost. -/
  | elsewhere
  /-- The output of the command. -/
  | output
  /-- The output of the command for errors. -/
  | errors
deriving DecidableEq, Repr

structure Device where
  /-- What is read from it. -/
  content : Except FileError (List UInt8) := .ok []
  /-- Whether it can be opened to be written. -/
  opening : Except FileError Unit := .ok ()
  /-- Where a text goes that is written to it. -/
  writing : Except FileError Outlet := .ok .elsewhere

/-- Takes everything and holds nothing. -/
def Device.sink : Device where
  content := .ok []

inductive Node
  | file (bytes : List UInt8)
  | device (d : Device)
  | directory
  | nothing

/-- What is around the files of a command. -/
structure Machine where
  /-- The directory in which the command runs. -/
  workingDirectory : Place
  /-- What a place stands for: the target, if it is a link. -/
  resolve : Place → Place
  node : Place → Node
  /-- Why no file can be made at a place. -/
  refusal : Place → Option FileError

end PacedLoad.Command
