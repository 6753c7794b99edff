import MemberOffsets.Layout.Node

set_option autoImplicit false

namespace MemberOffsets

open Text

structure SizedField where
  decl : FieldDecl
  exchanges : List Exchange
  sizing : Except WidthError Sizing

abbrev SizedStatement := MemberTree BlockDecl SizedField

namespace Profile

variable {σ : Type}

def sizeField (p : Profile) (r : Responder σ) (decl : FieldDecl) (s : σ) : SizedField × σ :=
  let (sizing, exchanges, s) := (p.sizing decl.type).run r s
  (⟨decl, exchanges, sizing⟩, s)

def sizeFields (p : Profile) (r : Responder σ) (members : List Statement) (s : σ) :
    List SizedStatement × σ :=
  MemberTree.traverseAll (p.sizeField r) members s

end Profile

namespace SizedField

def extent (f : SizedField) : Nat × FieldStatus :=
  match f.sizing with
  | .error e => (0, .unresolved (.width e))
  | .ok s =>
      match elementCount f.decl.dims with
      | .ok count => (min (s.width * count) wordMax, .resolved)
      | .error dim => (s.width, .arrayLengthIgnored dim)

def placeAt (f : SizedField) (offset : Nat) : FieldNode :=
  let (width, status) := f.extent
  if offset + width ≤ wordMax then ⟨f.decl.type, f.decl.name, width, offset + width, status⟩
  else ⟨f.decl.type, f.decl.name, 0, offset, .unresolved .offsetOverflow⟩

end SizedField

def reach (kind : Kind) (entry : Nat) (members : List Node) : Nat :=
  match kind with
  | .struct => members.getLast?.elim entry Node.offsetAfter - entry
  | .union => (members.map Node.size).foldl max 0

namespace BlockDecl

/-- How many copies of its members the block holds; one where that cannot be told. -/
def count (b : BlockDecl) : Nat := (elementCount b.dims).toOption.getD 1

def placeAt (b : BlockDecl) (entry : Nat) (members : List Node) : BlockNode :=
  let size := min (reach b.kind entry members * b.count) (wordMax - entry)
  ⟨b.kind, b.tag, b.name, entry, size, entry + size⟩

end BlockDecl

mutual

def place : SizedStatement → Nat → Node
  | .field f, offset => .field (f.placeAt offset)
  | .block b members, entry =>
      let nodes := match b.kind with
        | .struct => placeInOrder members entry
        | .union => placeOverlaid members entry
      .block (b.placeAt entry nodes) nodes

def placeInOrder : List SizedStatement → Nat → List Node
  | [], _ => []
  | m :: ms, offset =>
      let node := place m offset
      node :: placeInOrder ms node.offsetAfter

def placeOverlaid : List SizedStatement → Nat → List Node
  | [], _ => []
  | m :: ms, offset => place m offset :: placeOverlaid ms offset

end

def placeMembers (kind : Kind) (members : List SizedStatement) (entry : Nat) : List Node :=
  match kind with
  | .struct => placeInOrder members entry
  | .union => placeOverlaid members entry

@[simp] theorem place_block (b : BlockDecl) (members : List SizedStatement) (entry : Nat) :
    place (.block b members) entry =
      .block (b.placeAt entry (placeMembers b.kind members entry))
        (placeMembers b.kind members entry) := by
  cases h : b.kind <;> simp [place, placeMembers, h]

def placeBlock (b : BlockDecl) (members : List SizedStatement) (entry : Nat) : Aggregate :=
  let nodes := placeMembers b.kind members entry
  ⟨b.placeAt entry nodes, nodes⟩

namespace TypeLayout

/-- The layout of a symbol as a placed block that starts at zero. Offsets stop at the end of the
range. -/
def toAggregate (l : TypeLayout) : Aggregate where
  block := ⟨l.kind, some l.name, none, 0, l.size, l.size⟩
  members := l.members.map fun m =>
    .field ⟨m.type.getD [], m.name, m.size, min (m.offset + m.size) wordMax, .resolved⟩

end TypeLayout

end MemberOffsets
