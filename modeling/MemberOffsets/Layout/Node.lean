import MemberOffsets.Sizing.Width

set_option autoImplicit false

namespace MemberOffsets

open Text

inductive Unresolved where
  | width (error : WidthError)
  | offsetOverflow
deriving DecidableEq, Repr

def Unresolved.message : Unresolved → Text
  | .width e => e.message
  | .offsetOverflow => "offset overflow".toList

inductive FieldStatus where
  | resolved
  /-- The field takes no bytes. -/
  | unresolved (reason : Unresolved)
  /-- The field counts as one element. -/
  | arrayLengthIgnored (dim : Text)
deriving DecidableEq, Repr

def FieldStatus.message : FieldStatus → Text
  | .resolved => "resolved".toList
  | .unresolved reason => "unresolved (".toList ++ reason.message ++ [')']
  | .arrayLengthIgnored dim => "array length '".toList ++ dim ++ "' not evaluated".toList

structure FieldNode where
  type : Text
  name : Text
  width : Nat
  offsetAfter : Nat
  status : FieldStatus
deriving DecidableEq, Repr

namespace FieldNode

def start (f : FieldNode) : Nat := f.offsetAfter - f.width

def isResolved (f : FieldNode) : Bool :=
  match f.status with
  | .unresolved _ => false
  | _ => true

def summary (f : FieldNode) : Text :=
  f.type ++ ' ' :: f.name ++ " @ 0x".toList ++ upper (hex f.start) ++ "..0x".toList ++
    upper (hex f.offsetAfter)

end FieldNode

structure BlockNode where
  kind : Kind
  tag : Option Text
  declarator : Option Text
  entry : Nat
  size : Nat
  offsetAfter : Nat
deriving DecidableEq, Repr

abbrev Node := MemberTree BlockNode FieldNode

namespace Node

def size : Node → Nat
  | .field f => f.width
  | .block b _ => b.size

def offsetAfter : Node → Nat
  | .field f => f.offsetAfter
  | .block b _ => b.offsetAfter

def start (n : Node) : Nat := n.offsetAfter - n.size

def name : Node → Option Text
  | .field f => some f.name
  | .block b _ => b.declarator

end Node

structure Aggregate where
  block : BlockNode
  members : List Node
deriving Repr

namespace Aggregate

def fields (a : Aggregate) : List FieldNode := MemberTree.leavesOf a.members

def unresolvedFields (a : Aggregate) : List FieldNode := a.fields.filter (!·.isResolved)

end Aggregate

end MemberOffsets
