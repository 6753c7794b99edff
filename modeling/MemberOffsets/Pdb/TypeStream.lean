import MemberOffsets.Pdb.Reader
import MemberOffsets.Pdb.TypeRecord

set_option autoImplicit false

namespace MemberOffsets.Pdb

open Text

def signature : Bytes := Utf8.encode "Microsoft C/C++ MSF 7.00\r\n\x1aDS\x00\x00\x00".toList

def headerLength : Nat := 4096

/-- A file with what its header says; `listing` are the pages that list the pages of the
directory. -/
structure Container where
  file : Bytes
  pageSize : Nat
  pageCount : Nat
  directorySize : Nat
  listing : List Nat

def pagesFor (pageSize bytes : Nat) : Nat := (bytes + pageSize - 1) / pageSize

open Reader in
def pageNumber (pageCount : Nat) : Reader Nat := do
  let n ← long
  if 1 ≤ n ∧ n ≤ pageCount then return n else fail (.page n)

def isPageSize (n : Nat) : Bool := decide (256 ≤ n) && decide (n ≤ 0x800000) && n == 1 <<< n.log2

open Reader in
def readHeader (file : Bytes) : Reader Container := do
  let start ← take signature.length
  if start ≠ signature then fail .noSignature
  else
    let pageSize ← long
    if !isPageSize pageSize then fail (.pageSize pageSize)
    else
      skip 4
      let pageCount ← long
      let directorySize ← long
      skip 4
      let listingSize := 4 * pagesFor pageSize directorySize
      let listing ← many (pagesFor pageSize listingSize) (pageNumber pageCount)
      return ⟨file, pageSize, pageCount, directorySize, listing⟩

namespace Container

def ofFile (file : Bytes) : Except Fault Container :=
  let front := file.take headerLength
  if front.length < headerLength then .error .tooShort else (readHeader file).eval front

def readPages (c : Container) : List Nat → (size : Nat) → Except Fault Bytes
  | [], _ => .ok []
  | page :: later, size => do
      let front ← (Reader.take (min c.pageSize size)).eval (c.file.drop (page * c.pageSize))
      let rest ← c.readPages later (size - c.pageSize)
      .ok (front ++ rest)

def directory (c : Container) : Except Fault Bytes := do
  let listed ← c.readPages c.listing (c.listing.length * c.pageSize)
  let count := pagesFor c.pageSize c.directorySize
  let pages ← (Reader.many count (pageNumber c.pageCount)).eval listed
  c.readPages pages c.directorySize

/-- A stream that is not present has this size in the directory. -/
def absent : Nat := Text.halfWordMax

def streamPages (c : Container) (size : Nat) : Nat :=
  if size = absent then 0 else pagesFor c.pageSize size

open Reader in
def locate (c : Container) (number : Nat) : Reader (List Nat × Nat) := do
  let count ← long
  if count ≤ number then fail (.noStream number)
  else
    let before ← many number long
    let size ← long
    if size = absent then fail (.noStream number)
    else
      skip (4 * (count - number - 1))
      skip (4 * (before.map c.streamPages).foldr (· + ·) 0)
      let pages ← many (pagesFor c.pageSize size) (pageNumber c.pageCount)
      return (pages, size)

def stream (c : Container) (number : Nat) : Except Fault Bytes := do
  let (pages, size) ← (c.locate number).eval (← c.directory)
  c.readPages pages size

end Container

/-- The records in their order, each as far as it can be read. `ending` is the fault at which the
records stop short of the end of the stream. No record is known from the index `limit` on. -/
structure TypeStream where
  first : Nat
  limit : Nat
  records : Array (Except Fault TypeRecord)
  ending : Option Fault

def typeStreamNumber : Nat := 2

def leastIndex : Nat := 0x1000

def minHeaderSize : Nat := 56

def maxHeaderSize : Nat := 1024

def splitRecords : Bytes → List Bytes × Option Fault
  | [] => ([], none)
  | [_] => ([], some .ended)
  | low :: high :: r =>
      let length := Reader.little [low, high]
      if length < 2 then ([], some .shortRecord)
      else
        let record := r.take length
        if record.length < length then ([], some .ended)
        else
          let (records, ending) := splitRecords (r.drop length)
          (record :: records, ending)
termination_by bytes => bytes.length
decreasing_by
  simp only [List.length_drop, List.length_cons]
  omega

open Reader in
def readTypeHeader : Reader (Nat × Nat) := do
  skip 4
  let size ← long
  let first ← long
  let limit ← long
  skip (minHeaderSize - 16)
  if size < minHeaderSize then fail (.header "header size is impossibly small".toList)
  else if maxHeaderSize < size then fail (.header "header size is unreasonably large".toList)
  else
    skip (size - minHeaderSize)
    if first < leastIndex then fail (.header "minimum type index is < 4096".toList)
    else if limit < first then fail (.header "maximum type index is < minimum type index".toList)
    else return (first, limit)

namespace TypeStream

def ofBytes (bytes : Bytes) : Except Fault TypeStream :=
  if bytes.isEmpty then .ok ⟨0, 0, #[], none⟩
  else do
    let ((first, limit), body) ← readTypeHeader.run bytes
    let (records, ending) := splitRecords body
    .ok ⟨first, limit, (records.map TypeRecord.read.eval).toArray, ending⟩

def ofFile (file : Bytes) : Except Fault TypeStream := do
  let c ← Container.ofFile file
  ofBytes (← c.stream typeStreamNumber)

def primitive (index : Nat) : Except Fault TypeRecord :=
  if leastIndex ≤ index then .error .ended
  else
    match Primitive.ofIndex? index with
    | some p => .ok (.primitive p)
    | none => .error (.unknownType index)

def record (s : TypeStream) (index : Nat) : Except Fault TypeRecord :=
  if index < s.first then primitive index
  else if s.limit ≤ index then .error (.unknownType index)
  else (s.records[index - s.first]?).getD (.error (.unknownType index))

end TypeStream

end MemberOffsets.Pdb
