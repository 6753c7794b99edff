import MemberOffsets.Json.Decoding
import MemberOffsets.Json.Value
import MemberOffsets.Symbol.Index
import MemberOffsets.Text.Utf8

set_option autoImplicit false

namespace MemberOffsets

open Text

namespace Kind

def toJson (k : Kind) : Json := .string k.keyword

def all : List Kind := [struct, union]

def ofName (name : Text) : Except JsonError Kind :=
  match all.find? (·.keyword == name) with
  | some k => .ok k
  | none => .error (.mismatch (.unknownVariant name (all.map keyword)))

def asUnit : JsonDoc → Except JsonError Unit
  | .null => .ok ()
  | doc => doc.refuse "unit".toList

/-- A kind is given by its keyword, or by an object with that one key and nothing behind it. -/
def decode : JsonDoc → Except JsonError Kind
  | .string units => do ofName (← JsonDoc.keyText units)
  | .object ((units, doc) :: later) ending => do
      let k ← ofName (← JsonDoc.keyText units)
      asUnit doc
      match later, ending with
      | [], none => .ok k
      | [], some .endInObject => .error (.illFormed .endInObject)
      | _, _ => .error (.illFormed .expectedValue)
  | .object [] (some fault) => .error (.illFormed fault)
  | .broken fault => .error (.illFormed fault)
  | _ => .error (.illFormed .expectedValue)

end Kind

namespace MemberLayout

def toJson (m : MemberLayout) : Json :=
  .object ([("name".toList, .string m.name), ("offset".toList, .number m.offset),
    ("size".toList, .number m.size)] ++
    m.type.toList.map fun type => ("type_name".toList, .string type))

structure Draft where
  name : Option Text
  offset : Option Nat
  size : Option Nat
  type : Option (Option Text)

open JsonDoc RecordShape in
def Draft.step (d : Draft) (key : Text) (doc : JsonDoc) : Except JsonError Draft :=
  if key = "name".toList then return { d with name := ← fill key d.name (asString doc) }
  else if key = "offset".toList then return { d with offset := ← fill key d.offset (asWord doc) }
  else if key = "size".toList then return { d with size := ← fill key d.size (asWord doc) }
  else if key = "type_name".toList then
    return { d with type := ← fill key d.type (asOption asString doc) }
  else do
    skip doc
    return d

def Draft.finish (d : Draft) : Except Text MemberLayout := do
  let name ← d.name.elim (.error "name".toList) .ok
  let offset ← d.offset.elim (.error "offset".toList) .ok
  let size ← d.size.elim (.error "size".toList) .ok
  .ok ⟨name, offset, size, d.type.join⟩

def shape : JsonDoc.RecordShape Draft MemberLayout where
  label := "struct MemberLayout".toList
  fields := ["name".toList, "offset".toList, "size".toList, "type_name".toList]
  start := ⟨none, none, none, none⟩
  step := Draft.step
  finish := Draft.finish

def decode (doc : JsonDoc) : Except JsonError MemberLayout := shape.decode doc

end MemberLayout

namespace TypeLayout

def toJson (l : TypeLayout) : Json :=
  .object [("name".toList, .string l.name), ("kind".toList, l.kind.toJson),
    ("size".toList, .number l.size), ("members".toList, .array (l.members.map MemberLayout.toJson))]

structure Draft where
  name : Option Text
  kind : Option Kind
  size : Option Nat
  members : Option (List MemberLayout)

open JsonDoc RecordShape in
def Draft.step (d : Draft) (key : Text) (doc : JsonDoc) : Except JsonError Draft :=
  if key = "name".toList then return { d with name := ← fill key d.name (asString doc) }
  else if key = "kind".toList then return { d with kind := ← fill key d.kind (Kind.decode doc) }
  else if key = "size".toList then return { d with size := ← fill key d.size (asWord doc) }
  else if key = "members".toList then
    return { d with members := ← fill key d.members (asList MemberLayout.decode doc) }
  else do
    skip doc
    return d

def Draft.finish (d : Draft) : Except Text TypeLayout := do
  let name ← d.name.elim (.error "name".toList) .ok
  let size ← d.size.elim (.error "size".toList) .ok
  .ok ⟨name, d.kind.getD .struct, size, d.members.getD []⟩

def shape : JsonDoc.RecordShape Draft TypeLayout where
  label := "struct TypeLayout".toList
  fields := ["name".toList, "kind".toList, "size".toList, "members".toList]
  start := ⟨none, none, none, none⟩
  step := Draft.step
  finish := Draft.finish

def decode (doc : JsonDoc) : Except JsonError TypeLayout := shape.decode doc

end TypeLayout

namespace SymbolIndex

def toJson (index : SymbolIndex) : Json := .array (index.items.map TypeLayout.toJson)

def json (index : SymbolIndex) : Text := index.toJson.pretty

def ofJson (text : Text) : Except JsonError SymbolIndex :=
  Table.ofList <$> JsonDoc.decodeText (JsonDoc.asList TypeLayout.decode) text

def ofFile (bytes : Bytes) : Except JsonError SymbolIndex :=
  match Utf8.decode bytes with
  | .ok text => ofJson text
  | .error _ => .error (.illFormed .invalidUnicode)

end SymbolIndex

end MemberOffsets
