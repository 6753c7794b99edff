import MemberOffsets.Table
import MemberOffsets.Text.Utf8

set_option autoImplicit false

namespace MemberOffsets

open Text

inductive FileFault where
  | missing
  | notDirectory
  | isDirectory
  | other (message : Text)
deriving DecidableEq, Repr

def FileFault.message : FileFault → Text
  | .missing => "No such file or directory (os error 2)".toList
  | .notDirectory => "Not a directory (os error 20)".toList
  | .isDirectory => "Is a directory (os error 21)".toList
  | .other message => message

structure Disk where
  read : Text → Except FileFault Bytes
  writeFault? : Text → Option FileFault

def Disk.fileExists (d : Disk) (path : Text) : Bool :=
  match d.read path with
  | .error .missing => false
  | .error .notDirectory => false
  | _ => true

namespace FilePath

def steps (path : Text) : List Text :=
  (path.splitOn '/').filter fun step => !step.isEmpty && step != ['.']

def parent : Text := ['.', '.']

/-- What follows the last dot of the last step, if something stands before that dot. -/
def extension (path : Text) : Text :=
  match (steps path).getLast? with
  | none => []
  | some name =>
      let r := name.reverse
      if name = parent ∨ (r.dropWhile (· != '.')).length ≤ 1 then []
      else (r.takeWhile (· != '.')).reverse

end FilePath

abbrev Directory := Table (Prod.fst : Text × Bytes → Text)

namespace Directory

inductive Place where
  | file (name : Text)
  | directory
  | nowhere (fault : FileFault)
deriving DecidableEq, Repr

def holds (d : Directory) (name : Text) : Bool := (d.find? name).isSome

def place (d : Directory) (path : Text) : Place :=
  match FilePath.steps path with
  | [] => if path.isEmpty then .nowhere .missing else .directory
  | [name] =>
      if path.head? = some '/' then .nowhere .missing
      else if name = FilePath.parent then .directory
      else if path.getLast? = some '/' then
        .nowhere (if d.holds name then .notDirectory else .missing)
      else .file name
  | name :: _ => .nowhere (if path.head? ≠ some '/' ∧ d.holds name then .notDirectory else .missing)

def read (d : Directory) (path : Text) : Except FileFault Bytes :=
  match d.place path with
  | .file name => (d.find? name).elim (.error .missing) fun file => .ok file.2
  | .directory => .error .isDirectory
  | .nowhere fault => .error fault

def writeFault? (d : Directory) (path : Text) : Option FileFault :=
  match d.place path with
  | .file _ => none
  | .directory => some .isDirectory
  | .nowhere fault => some fault

def disk (d : Directory) : Disk := ⟨d.read, d.writeFault?⟩

def write (d : Directory) (path : Text) (bytes : Bytes) : Directory :=
  match d.place path with
  | .file name => d.insert (name, bytes)
  | _ => d

end Directory

end MemberOffsets
