import MemberOffsets.Text.Utf8

set_option autoImplicit false

namespace MemberOffsets.Pdb

open Text

inductive Fault where
  | tooShort
  | noSignature
  | pageSize (size : Nat)
  | page (number : Nat)
  | noStream (number : Nat)
  | ended
  | header (reason : Text)
  | shortRecord
  | unknownType (index : Nat)
  /-- The type leads back to itself, so that what is looked up of it is never found. -/
  | circular (index : Nat)
  | unsupportedKind (kind : Nat)
  | numeralKind (kind : Nat)
  | wideDimension
deriving DecidableEq, Repr

namespace Fault

def message : Fault → Text
  | tooShort => "The file is too short to hold a header".toList
  | noSignature => "The given file is not a PDB".toList
  | pageSize size => "The page size is invalid: ".toList ++ decimal size
  | page number => "Page ".toList ++ decimal number ++ " is out of range".toList
  | noStream number => "Stream ".toList ++ decimal number ++ " is not present".toList
  | ended => "Unexpectedly reached end of input".toList
  | header reason => "The type information header was invalid: ".toList ++ reason
  | shortRecord => "A type record is too short".toList
  | unknownType index => "Type ".toList ++ decimal index ++ " not found".toList
  | circular index => "Type ".toList ++ decimal index ++ " refers to itself".toList
  | unsupportedKind kind =>
      "Support for types of kind 0x".toList ++ padded 4 (hex kind) ++ " is not implemented".toList
  | numeralKind kind => "Unexpected numeric prefix 0x".toList ++ padded 4 (hex kind)
  | wideDimension => "Array with a dimension larger than 32 bits".toList

def isEndless : Fault → Bool
  | circular _ => true
  | _ => false

end Fault

abbrev Reader := StateT Bytes (Except Fault)

namespace Reader

def fail {α : Type} (fault : Fault) : Reader α := fun _ => .error fault

def atEnd : Reader Bool := fun s => .ok (s.isEmpty, s)

def take (n : Nat) : Reader Bytes := fun s =>
  let taken := s.take n
  if taken.length = n then .ok (taken, s.drop n) else .error .ended

def skip (n : Nat) : Reader Unit := do
  let _ ← take n

def little : Bytes → Nat
  | [] => 0
  | b :: r => b.toNat + 256 * little r

def word (size : Nat) : Reader Nat := little <$> take size

def byte : Reader Nat := word 1

def half : Reader Nat := word 2

def long : Reader Nat := word 4

def unsignedWidths : List (Nat × Nat) := [(0x8000, 1), (0x8002, 2), (0x8004, 4), (0x800a, 8)]

def signedWidths : List (Nat × Nat) := [(0x8001, 2), (0x8003, 4), (0x8009, 8)]

/-- A number below 0x8000 stands for itself; a greater one announces the width of the number behind
it. -/
def numeral (widths : List (Nat × Nat)) : Reader Nat := do
  let n ← half
  if n < 0x8000 then return n
  else
    match widths.lookup n with
    | some size => word size
    | none => fail (.numeralKind n)

def unsigned : Reader Nat := numeral unsignedWidths

def skipVariant : Reader Unit := do
  let _ ← numeral (unsignedWidths ++ signedWidths)

def zeroTerminated : Reader Text := fun s =>
  match s.dropWhile (· != 0) with
  | [] => .error .ended
  | _ :: r => .ok (Utf8.decodeLossy (s.takeWhile (· != 0)), r)

def lengthPrefixed : Reader Text := do
  let n ← byte
  return Utf8.decodeLossy (← take n)

def many {α : Type} : Nat → Reader α → Reader (List α)
  | 0, _ => return []
  | n + 1, r => do
      let a ← r
      let as ← many n r
      return a :: as

def eval {α : Type} (r : Reader α) (bytes : Bytes) : Except Fault α := Prod.fst <$> r.run bytes

end Reader

end MemberOffsets.Pdb
