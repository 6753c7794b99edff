import MemberOffsets.Declaration.Statement
import MemberOffsets.Pdb.Reader

set_option autoImplicit false

namespace MemberOffsets.Pdb

open Text

structure Primitive where
  name : Text
  size : Nat
deriving DecidableEq, Repr

namespace Primitive

def table : List (Nat × String × Nat) := [
  (0x00, "NOTYPE", 0), (0x03, "VOID", 0), (0x08, "HRESULT", 4),
  (0x10, "CHAR", 1), (0x20, "UCHAR", 1), (0x68, "I8", 1), (0x69, "U8", 1),
  (0x70, "RCHAR", 1), (0x71, "WCHAR", 2), (0x7a, "RCHAR16", 0), (0x7b, "RCHAR32", 0),
  (0x11, "SHORT", 2), (0x21, "USHORT", 2), (0x72, "I16", 2), (0x73, "U16", 2),
  (0x12, "LONG", 4), (0x22, "ULONG", 4), (0x74, "I32", 4), (0x75, "U32", 4),
  (0x13, "QUAD", 8), (0x23, "UQUAD", 8), (0x76, "I64", 8), (0x77, "U64", 8),
  (0x14, "OCTA", 16), (0x24, "UOCTA", 16), (0x78, "I128", 16), (0x79, "U128", 16),
  (0x46, "F16", 2), (0x40, "F32", 4), (0x45, "F32PP", 4), (0x44, "F48", 0), (0x41, "F64", 8),
  (0x42, "F80", 0), (0x43, "F128", 16),
  (0x50, "COMPLEX32", 0), (0x51, "COMPLEX64", 0), (0x52, "COMPLEX80", 0), (0x53, "COMPLEX128", 0),
  (0x30, "BOOL8", 1), (0x31, "BOOL16", 2), (0x32, "BOOL32", 4), (0x33, "BOOL64", 8)]

def pointerWidths : List (Option Nat) :=
  [none, some 2, some 2, some 2, some 4, some 4, some 8, some 16]

def ofIndex? (index : Nat) : Option Primitive := do
  let (name, size) ← table.lookup (index % 0x100)
  match ← pointerWidths[index / 0x100 % 0x10]? with
  | none => some ⟨name.toList, size⟩
  | some width => some ⟨name.toList ++ ['*'], width⟩

end Primitive

open Reader

structure Member where
  name : Text
  offset : Nat
  type : Nat
deriving DecidableEq, Repr

inductive TypeRecord where
  | primitive (p : Primitive)
  | aggregate (kind : Kind) (name : Text) (size : Nat) (fields : Option Nat) (isForward : Bool)
  | enumeration (name : Text) (underlying : Nat)
  | pointer (target width : Nat)
  | modifier (target : Nat) (isConst : Bool)
  | bitfield (target : Nat)
  /-- The sizes in bytes of the array at each dimension, the last that of all of it. -/
  | array (element : Nat) (sizes : List Nat)
  | procedure
  | fieldList (members : List Member) (continuation : Option Nat)
  | other
deriving DecidableEq, Repr

def lastLengthPrefixed : Nat := 0x1500

def name (kind : Nat) : Reader Text :=
  if kind ≤ lastLengthPrefixed then lengthPrefixed else zeroTerminated

def uniqueName (kind properties : Nat) : Reader Unit := do
  if properties.testBit 9 then
    let _ ← name kind

def isForward (properties : Nat) : Bool := properties.testBit 7

def optionalIndex : Reader (Option Nat) := do
  let index ← long
  return if index = 0 ∨ index = 0xffff then none else some index

def readClass (kind : Nat) : Reader TypeRecord := do
  skip 2
  let properties ← half
  let fields ← optionalIndex
  skip 8
  let size ← unsigned
  let tag ← name kind
  uniqueName kind properties
  return .aggregate .struct tag size fields (isForward properties)

def readLongClass (kind : Nat) : Reader TypeRecord := do
  let properties ← long
  let fields ← optionalIndex
  skip 10
  let size ← unsigned
  let tag ← name kind
  uniqueName kind properties
  return .aggregate .struct tag size fields (isForward properties)

def readUnion (kind : Nat) : Reader TypeRecord := do
  skip 2
  let properties ← half
  let fields ← long
  let size ← unsigned
  let tag ← name kind
  uniqueName kind properties
  return .aggregate .union tag size (some fields) (isForward properties)

def readEnumeration (kind : Nat) : Reader TypeRecord := do
  skip 2
  let properties ← half
  let underlying ← long
  skip 4
  let tag ← name kind
  uniqueName kind properties
  return .enumeration tag underlying

def pointerWidth (attributes : Nat) : Nat :=
  let kind := attributes % 0x20
  if kind ≤ 2 then 2 else if kind = 0x0a ∨ kind = 0x0b then 4 else 8

def readPointer : Reader TypeRecord := do
  let target ← long
  let attributes ← long
  let mode := attributes / 0x20 % 8
  if mode = 2 ∨ mode = 3 then skip 4
  return .pointer target (pointerWidth attributes)

def readModifier : Reader TypeRecord := do
  let target ← long
  let flags ← half
  return .modifier target (flags.testBit 0)

def readBitfield : Reader TypeRecord := do
  let target ← long
  skip 2
  return .bitfield target

def readSizes : Nat → Reader (List Nat)
  | 0 => fail .ended
  | fuel + 1 => do
      let size ← unsigned
      if halfWordMax < size then fail .wideDimension
      else
        match ← get with
        | [] => fail .ended
        | b :: r =>
            if b = 0 then do
              set r
              return [size]
            else return size :: (← readSizes fuel)

def readArray : Reader TypeRecord := do
  let element ← long
  skip 4
  let sizes ← readSizes (← get).length
  return .array element sizes

-- All that has to be there is read, so that a record that is cut short is told from a whole one.
def readPlain (kind : Nat) : Reader TypeRecord := do
  match kind with
  | 0x1504 | 0x1505 | 0x1519 | 0x1004 | 0x1005 => readClass kind
  | 0x1609 => readLongClass kind
  | 0x1506 => readUnion kind
  | 0x1507 => readEnumeration kind
  | 0x1002 => readPointer
  | 0x1001 => readModifier
  | 0x1205 => readBitfield
  | 0x1503 => readArray
  | 0x1008 =>
      skip 12
      return .procedure
  | 0x1009 =>
      skip 24
      return .other
  | 0x1201 =>
      let count ← long
      skip (4 * count)
      return .other
  | 0x150e | 0x1510 | 0x150f =>
      skip 6
      let _ ← name kind
      return .other
  | 0x1511 =>
      let attributes ← half
      skip 4
      let property := attributes / 4 % 8
      if property = 4 ∨ property = 6 then skip 4
      let _ ← name kind
      return .other
  | 0x1400 =>
      skip 6
      let _ ← unsigned
      return .other
  | 0x1409 =>
      skip 6
      return .other
  | 0x1502 =>
      skip 2
      skipVariant
      let _ ← name kind
      return .other
  | _ => fail (.unsupportedKind kind)

def memberKind : Nat := 0x150d

def continuationKind : Nat := 0x1404

def fieldListKind : Nat := 0x1203

def readMember : Reader Member := do
  skip 2
  let type ← long
  let offset ← unsigned
  let name ← name memberKind
  return ⟨name, offset, type⟩

/-- Bytes from 0xf0 on are padding: their low half says how many to skip, itself included. -/
def skipPadding : Nat → Reader Unit
  | 0 => return
  | fuel + 1 => do
      match ← get with
      | [] => return
      | b :: _ =>
          if b.toNat < 0xf0 then return
          else do
            skip (max 1 (b.toNat - 0xf0))
            skipPadding fuel

/-- The entries of a field list up to the end of its record. A field list within takes all that is
left, and its members are not those of the outer one. -/
def readFields : Nat → Reader (List Member × Option Nat)
  | 0 => return ([], none)
  | fuel + 1 => do
      if ← atEnd then return ([], none)
      else
        let kind ← half
        if kind = continuationKind then
          let next ← long
          skipPadding (← get).length
          let (members, later) ← readFields fuel
          return (members, later.or (some next))
        else if kind = memberKind then
          let member ← readMember
          skipPadding (← get).length
          let (members, later) ← readFields fuel
          return (member :: members, later)
        else if kind = fieldListKind then
          let _ ← readFields fuel
          return ([], none)
        else
          let _ ← readPlain kind
          skipPadding (← get).length
          readFields fuel

namespace TypeRecord

def read : Reader TypeRecord := do
  let kind ← half
  if kind = fieldListKind then
    let (members, continuation) ← readFields (← get).length
    return .fieldList members continuation
  else if kind = memberKind then
    let _ ← readMember
    return .other
  else readPlain kind

end TypeRecord

end MemberOffsets.Pdb
