import MemberOffsets.Json.Value
import MemberOffsets.Layout.Resolution

set_option autoImplicit false

namespace MemberOffsets

open Text

def unresolvedMarker : Text := "**Could not find length**".toList

/-- A number twice, in decimal and in hexadecimal, as in `0012: 0x000c`. -/
def numeralPair (n : Nat) : Text :=
  padded 4 (decimal n) ++ ": 0x".toList ++ padded 4 (hex n)

def offsetComment (offset : Nat) : Text := "// ".toList ++ numeralPair offset

def sizeComment (size : Nat) : Text := "// size: ".toList ++ numeralPair size

namespace FieldStatus

def note : FieldStatus → Text
  | .resolved => []
  | .unresolved reason => ' ' :: unresolvedMarker ++ " (".toList ++ reason.message ++ [')']
  | .arrayLengthIgnored dim => " **array length '".toList ++ dim ++ "' not evaluated**".toList

end FieldStatus

def FieldNode.line (f : FieldNode) : Text :=
  f.type ++ ' ' :: f.name ++ ";\t".toList ++ offsetComment f.offsetAfter ++ f.status.note

namespace BlockNode

def header (b : BlockNode) : Text := b.kind.keyword ++ b.tag.elim [] (' ' :: ·)

def openingLine (b : BlockNode) : Text := b.header ++ [' ', '{']

def closingLine (b : BlockNode) : Text :=
  '}' :: b.declarator.elim [] (' ' :: ·) ++ ";\t".toList ++ offsetComment b.offsetAfter

end BlockNode

namespace Node

mutual

def annotated : Node → List Text
  | .field f => [f.line]
  | .block b members => b.openingLine :: annotatedAll members ++ [b.closingLine]

def annotatedAll : List Node → List Text
  | [] => []
  | m :: ms => annotated m ++ annotatedAll ms

end

end Node

def terminated (lines : List Text) : Text := lines.flatMap (· ++ ['\n'])

namespace Declaration

def annotatedLines (d : Declaration) : List Text :=
  (if d.opening.isEmpty then [] else [d.opening]) ++ Node.annotatedAll d.root.members ++
    [d.closing ++ '\t' :: sizeComment d.size]

def annotated (d : Declaration) : Text := terminated d.annotatedLines

end Declaration

namespace Aggregate

def annotatedLines (a : Aggregate) : List Text :=
  a.block.openingLine :: Node.annotatedAll a.members ++
    ["\x7d;\t".toList ++ sizeComment a.block.size]

def annotated (a : Aggregate) : Text := terminated a.annotatedLines

end Aggregate

namespace Columns

/-- A line of code, and the comment behind its first tab if it has one. -/
structure Row where
  code : Text
  comment : Option Text
deriving DecidableEq, Repr

namespace Row

def ofLine (line : Text) : Row :=
  match line.dropWhile (· != '\t') with
  | [] => ⟨trim line, none⟩
  | _ :: comment => ⟨trim (line.takeWhile (· != '\t')), some (trim comment)⟩

def isKept (r : Row) : Bool := !r.code.isEmpty || r.comment.isSome

end Row

def indentWidth : Nat := 4

def commentGap : Nat := 4

def indentFrom : Nat → List Row → List Row
  | _, [] => []
  | depth, r :: rs =>
      let depth := if r.code.head? = some '}' then depth - 1 else depth
      let after := if r.code.getLast? = some '{' then depth + 1 else depth
      ⟨List.replicate (indentWidth * depth) ' ' ++ r.code, r.comment⟩ :: indentFrom after rs

def column (rs : List Row) : Nat :=
  ((rs.filter (·.comment.isSome)).map (·.code.length)).foldl max 0 + commentGap

def Row.render (column : Nat) (r : Row) : Text :=
  match r.comment with
  | some comment => r.code ++ List.replicate (column - r.code.length) ' ' ++ comment
  | none => r.code

def rows (annotated : Text) : List Row :=
  indentFrom 0 (((lines annotated).map Row.ofLine).filter Row.isKept)

def format (annotated : Text) : Text :=
  let rs := rows annotated
  (rs.map (Row.render (column rs))).flatMap (· ++ ['\n'])

end Columns

namespace FieldStatus

def toJson : FieldStatus → Json
  | .resolved => .object [("status".toList, .string "resolved".toList)]
  | .unresolved reason =>
      .object [("status".toList, .string "unresolved".toList),
        ("detail".toList, .string reason.message)]
  | .arrayLengthIgnored dim =>
      .object [("status".toList, .string "array_length_ignored".toList),
        ("detail".toList, .string dim)]

end FieldStatus

def FieldNode.toJson (f : FieldNode) : Json :=
  .object [("node".toList, .string "field".toList), ("declared_type".toList, .string f.type),
    ("declared_name".toList, .string f.name), ("resolved_width".toList, .number f.width),
    ("offset_after".toList, .number f.offsetAfter), ("status".toList, f.status.toJson)]

def BlockNode.entries (b : BlockNode) (members : List Json) : List (Text × Json) :=
  [("kind".toList, .string b.kind.keyword), ("tag".toList, .ofOption b.tag),
    ("declarator".toList, .ofOption b.declarator), ("members".toList, .array members),
    ("entry_offset".toList, .number b.entry), ("size".toList, .number b.size),
    ("offset_after".toList, .number b.offsetAfter)]

namespace Node

mutual

def toJson : Node → Json
  | .field f => f.toJson
  | .block b members =>
      .object (("node".toList, .string b.kind.keyword) :: b.entries (toJsonAll members))

def toJsonAll : List Node → List Json
  | [] => []
  | m :: ms => toJson m :: toJsonAll ms

end

end Node

def Aggregate.toJson (a : Aggregate) : Json := .object (a.block.entries (Node.toJsonAll a.members))

def Declaration.toJson (d : Declaration) : Json :=
  .object [("prefix".toList, .string d.opening), ("root".toList, d.root.toJson),
    ("suffix".toList, .string d.closing)]

end MemberOffsets
