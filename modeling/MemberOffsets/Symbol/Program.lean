import MemberOffsets.Console.Log
import MemberOffsets.Pdb.TypeStream
import MemberOffsets.Symbol.Index

set_option autoImplicit false

namespace MemberOffsets.Pdb

open Text

structure CompleteType where
  kind : Kind
  name : Text
  size : Nat
  fields : Option Nat
deriving DecidableEq, Repr

/-- The complete type that a record tells of. A name in angle brackets is that of a type without a
name. -/
def TypeRecord.complete? : TypeRecord → Option CompleteType
  | .aggregate kind name size fields false =>
      if name.head? = some '<' then none else some ⟨kind, name, size, fields⟩
  | _ => none

namespace TypeStream

/-- Following type indices, a path longer than this has met one of them twice. -/
def pathLength (s : TypeStream) : Nat := s.records.size + 1

def completeTypes (s : TypeStream) : List CompleteType :=
  s.records.toList.filterMap fun r => r.toOption.bind TypeRecord.complete?

/-- The size of a type by its name; the last record of that name counts. -/
def completeSize (s : TypeStream) (name : Text) : Nat :=
  ((s.completeTypes.reverse.find? (·.name == name)).map CompleteType.size).getD 0

def sizeAlong (s : TypeStream) : Nat → Nat → Except Fault Nat
  | 0, index => .error (.circular index)
  | fuel + 1, index => do
      match ← s.record index with
      | .primitive p => .ok p.size
      | .aggregate _ name size _ isForward => .ok (if isForward then s.completeSize name else size)
      | .pointer _ width => .ok width
      | .enumeration _ target => s.sizeAlong fuel target
      | .modifier target _ => s.sizeAlong fuel target
      | .bitfield target => s.sizeAlong fuel target
      | .array _ sizes => .ok (sizes.getLast?.getD 0)
      | .procedure => .ok 0
      | .fieldList _ _ => .ok 0
      | .other => .ok 0

def sizeOf (s : TypeStream) (index : Nat) : Except Fault Nat := s.sizeAlong s.pathLength index

def nameAlong (s : TypeStream) : Nat → Nat → Except Fault Text
  | 0, index => .error (.circular index)
  | fuel + 1, index => do
      match ← s.record index with
      | .primitive p => .ok p.name
      | .aggregate _ name _ _ _ => .ok name
      | .enumeration name _ => .ok name
      | .pointer target _ => return (← s.nameAlong fuel target) ++ ['*']
      | .modifier target isConst =>
          let inner ← s.nameAlong fuel target
          return if isConst then "const ".toList ++ inner else inner
      | .bitfield target => s.nameAlong fuel target
      | .array element sizes =>
          let inner ← s.nameAlong fuel element
          return inner ++ sizes.flatMap fun size => '[' :: decimal size ++ [']']
      | .procedure => .ok "PROCEDURE".toList
      | .fieldList _ _ => .ok ("TYPE_".toList ++ upper (hex index))
      | .other => .ok ("TYPE_".toList ++ upper (hex index))

def nameOf (s : TypeStream) (index : Nat) : Except Fault Text := s.nameAlong s.pathLength index

def memberLayout (s : TypeStream) (m : Member) : Except Fault MemberLayout := do
  let size ← s.sizeOf m.type
  let type ← s.nameOf m.type
  .ok ⟨m.name, m.offset, size, some type⟩

def membersAlong (s : TypeStream) : Nat → Option Nat → Except Fault (List MemberLayout)
  | _, none => .ok []
  | 0, some index => .error (.circular index)
  | fuel + 1, some index => do
      match ← s.record index with
      | .fieldList members continuation =>
          let here ← members.mapM s.memberLayout
          let later ← s.membersAlong fuel continuation
          .ok (here ++ later)
      | _ => .ok []

def members (s : TypeStream) (fields : Option Nat) : Except Fault (List MemberLayout) :=
  s.membersAlong s.pathLength fields

def layout (s : TypeStream) (t : CompleteType) : Except Fault TypeLayout := do
  let members ← s.members t.fields
  .ok ⟨t.name, t.kind, t.size, members.mergeSort fun m n => m.offset ≤ n.offset⟩

def index (s : TypeStream) : Except Fault SymbolIndex :=
  match s.ending with
  | some fault => .error fault
  | none => Table.ofList <$> s.completeTypes.mapM s.layout

def skipped (s : TypeStream) : List LogRecord :=
  s.records.toList.zipIdx.filterMap fun
    | (.error fault, i) =>
        some ⟨.warn, "Skipping unparsable type record 0x".toList ++ hex (s.first + i) ++
          ": ".toList ++ fault.message⟩
    | (.ok _, _) => none

def indexed (l : TypeLayout) : LogRecord :=
  ⟨.debug, l.kind.keyword ++ ' ' :: l.name ++ ": ".toList ++ decimal l.size ++ " bytes, ".toList ++
    decimal l.members.length ++ " members".toList⟩

def indexedAll (s : TypeStream) : List CompleteType → List LogRecord
  | [] => []
  | t :: ts =>
      match s.layout t with
      | .ok l => indexed l :: s.indexedAll ts
      | .error _ => []

def journal (s : TypeStream) : List LogRecord :=
  s.skipped ++ if s.ending.isSome then [] else s.indexedAll s.completeTypes

end TypeStream

end MemberOffsets.Pdb
