import MemberOffsets.Declaration.Source
import MemberOffsets.Declaration.Segment
import MemberOffsets.Declaration.Block
import MemberOffsets.Layout.Placement
import MemberOffsets.Text.Quoted
import MemberOffsets.Text.Utf8

set_option autoImplicit false

namespace MemberOffsets

open Text

inductive LayoutError where
  | malformed (fault : Utf8.Fault)
  | unbalanced (place : Unbalanced)
  | width (error : WidthError)
deriving DecidableEq, Repr

namespace LayoutError

def isStructural : LayoutError → Bool
  | width _ => false
  | _ => true

def message : LayoutError → Text
  | malformed fault => "Malformed input: input is not valid UTF-8: ".toList ++ fault.message
  | unbalanced place =>
      "Unbalanced delimiters starting at byte ".toList ++ decimal place.start ++ ": ".toList ++
        quoted place.span
  | width e => e.message

end LayoutError

def normalizeBytes (bytes : Bytes) : Except LayoutError Text :=
  match Utf8.decode bytes with
  | .ok text => .ok (normalize text)
  | .error fault => .error (.malformed fault)

structure Declaration where
  opening : Text
  root : Aggregate
  closing : Text
deriving Repr

namespace Declaration

def size (d : Declaration) : Nat := d.root.block.size

def unresolvedFields (d : Declaration) : List FieldNode := d.root.unresolvedFields

end Declaration

structure Resolution where
  shell : Shell
  members : List SizedStatement
  base : Nat

namespace Resolution

def rootDecl (r : Resolution) : BlockDecl := .root r.shell.kind r.shell.tag

def root (r : Resolution) : Aggregate := placeBlock r.rootDecl r.members r.base

def declaration (r : Resolution) : Declaration := ⟨r.shell.opening, r.root, r.shell.closing⟩

variable {σ : Type}

def ofShell (p : Profile) (r : Responder σ) (shell : Shell) (base : Nat) (s : σ) :
    Except Unbalanced (Resolution × σ) := do
  let statements ← segment shell.body
  let (members, s) := p.sizeFields r statements s
  .ok (⟨shell, members, base⟩, s)

def ofText (p : Profile) (r : Responder σ) (text : Text) (base : Nat) (s : σ) :
    Except Unbalanced (Resolution × σ) := do
  let shell ← Shell.split (normalize text)
  ofShell p r shell base s

end Resolution

namespace Profile

variable {σ : Type}

def resolveDeclaration (p : Profile) (r : Responder σ) (text : Text) (base : Nat) (s : σ) :
    Except Unbalanced (Declaration × σ) := do
  let (resolution, s) ← Resolution.ofText p r text base s
  .ok (resolution.declaration, s)

def resolveBody (p : Profile) (r : Responder σ) (text : Text) (base : Nat) (s : σ) :
    Except Unbalanced (Aggregate × σ) := do
  let (resolution, s) ← Resolution.ofShell p r (.bare (normalize text)) base s
  .ok (resolution.root, s)

end Profile

end MemberOffsets
