import PacedLoad.Text.Fields

/-!
# Errors of the file system
-/

namespace PacedLoad

inductive FileError
  | notFound
  | inputOutput
  | noDevice
  | permissionDenied
  | notDirectory
  | isDirectory
  | invalidArgument
  | busy
  | noSpace
  | nameTooLong
  /-- A name holds the character that ends names. -/
  | nulInName
  /-- Anything else, in words. -/
  | other (text : String)
deriving DecidableEq, Repr

namespace FileError

/-- Number, name and words of the errors that the system numbers. -/
def known? : FileError → Option (Nat × String × String)
  | .notFound => some (2, "NotFound", "No such file or directory")
  | .inputOutput => some (5, "Uncategorized", "Input/output error")
  | .noDevice => some (6, "Uncategorized", "No such device or address")
  | .permissionDenied => some (13, "PermissionDenied", "Permission denied")
  | .notDirectory => some (20, "NotADirectory", "Not a directory")
  | .isDirectory => some (21, "IsADirectory", "Is a directory")
  | .invalidArgument => some (22, "InvalidInput", "Invalid argument")
  | .busy => some (26, "ExecutableFileBusy", "Text file busy")
  | .noSpace => some (28, "StorageFull", "No space left on device")
  | .nameTooLong => some (36, "InvalidFilename", "File name too long")
  | .nulInName | .other _ => none

def text (e : FileError) : String :=
  match e, e.known? with
  | _, some (code, _, words) => words ++ s!" (os error {code})"
  | .nulInName, none => "file name contained an unexpected NUL byte"
  | .other text, none => text
  | _, none => ""

def fieldText (e : FileError) : String :=
  match e, e.known? with
  | _, some (code, name, words) => Text.withFields "Os"
      [("code", toString code), ("kind", name), ("message", Text.quoted words)]
  | .nulInName, none =>
    Text.withFields "Error" [("kind", "InvalidInput"), ("message", Text.quoted e.text)]
  | _, none => Text.withFields "Custom" [("kind", "Other"), ("error", Text.quoted e.text)]

end FileError

end PacedLoad
