import MemberOffsets.Decimal
import MemberOffsets.Json.Document
import MemberOffsets.Text.Quoted

set_option autoImplicit false

namespace MemberOffsets

open Text

inductive JsonFound where
  | null
  | bool (b : Bool)
  | integer (n : Int)
  | float (text : Text)
  | string (s : Text)
  | sequence
  | map
deriving DecidableEq, Repr

def JsonFound.message : JsonFound → Text
  | null => "null".toList
  | bool b => "boolean `".toList ++ (if b then "true".toList else "false".toList) ++ ['`']
  | integer n => "integer `".toList ++ Binary64.signed n ++ ['`']
  | float text => "floating point `".toList ++ text ++ ['`']
  | string s => "string ".toList ++ quoted s
  | sequence => "sequence".toList
  | map => "map".toList

inductive JsonMismatch where
  | invalidType (found : JsonFound) (expected : Text)
  | invalidValue (found : JsonFound) (expected : Text)
  | invalidLength (length : Nat) (expected : Text)
  | missingField (name : Text)
  | duplicateField (name : Text)
  | unknownVariant (name : Text) (variants : List Text)
deriving DecidableEq, Repr

def ticked (s : Text) : Text := '`' :: s ++ ['`']

def JsonMismatch.message : JsonMismatch → Text
  | invalidType found expected =>
      "invalid type: ".toList ++ found.message ++ ", expected ".toList ++ expected
  | invalidValue found expected =>
      "invalid value: ".toList ++ found.message ++ ", expected ".toList ++ expected
  | invalidLength length expected =>
      "invalid length ".toList ++ decimal length ++ ", expected ".toList ++ expected
  | missingField name => "missing field ".toList ++ ticked name
  | duplicateField name => "duplicate field ".toList ++ ticked name
  | unknownVariant name variants =>
      "unknown variant ".toList ++ ticked name ++ ", expected ".toList ++
        " or ".toList.intercalate (variants.map ticked)

inductive JsonError where
  | illFormed (fault : JsonFault)
  | mismatch (mismatch : JsonMismatch)
deriving DecidableEq, Repr

def JsonError.message : JsonError → Text
  | illFormed fault => fault.message
  | mismatch m => m.message

inductive JsonNumber where
  | integer (n : Int)
  | float (negative : Bool) (magnitude : Binary64)
deriving DecidableEq, Repr

namespace JsonNumeral

/-- The leading digits that a 64-bit word holds; a digit that would pass it, and all after it, are
left. -/
def leadingWord (acc : Nat) : Text → Nat × Text
  | [] => (acc, [])
  | c :: r =>
      let n := acc * 10 + (c.toNat - '0'.toNat)
      if n ≤ wordMax then leadingWord n r else (acc, c :: r)

def maxPower : Nat := 308

def lower (power x : Binary64) : Nat → Binary64
  | 0 => x
  | k + 1 => if x.mantissa = 0 then x else lower power ((x.div? power).getD x) k

def binaryPowerOfTen (exponent : Nat) : Binary64 :=
  (Binary64.ofNat? (powerOfTen exponent)).getD .zero

/-- A word times a power of ten, rounded once for each power up to `maxPower` that goes into it. -/
def scale (x : Binary64) (exponent : Int) : Except JsonFault Binary64 :=
  let size := exponent.natAbs
  if exponent < 0 then
    let turns := (size - 1) / maxPower
    let y := lower (binaryPowerOfTen maxPower) x turns
    if y.mantissa = 0 then .ok y
    else .ok ((y.div? (binaryPowerOfTen (size - turns * maxPower))).getD y)
  else if x.mantissa = 0 then .ok x
  else
    match if size ≤ maxPower then x.mul? (binaryPowerOfTen size) else none with
    | some y => .ok y
    | none => .error .numberOutOfRange

/-- The exponent as far as 32 bits hold it. -/
def maxExponent : Nat := 0x7FFFFFFF

def toFloat (n : JsonNumeral) : Except JsonFault Binary64 := do
  let (word, left) := leadingWord 0 n.whole
  let (word, unread) := leadingWord word n.fraction
  let base : Int := (left.length : Int) - (n.fraction.length - unread.length : Nat)
  let x := (Binary64.ofNat? word).getD .zero
  match n.exponent with
  | none => scale x base
  | some (negative, digits) =>
      let e := (readDigits 10 digits).getD 0
      if maxExponent < e then
        if word ≠ 0 ∧ negative = false then .error .numberOutOfRange else .ok .zero
      else scale x (if negative then base - e else base + e)

def number (n : JsonNumeral) : Except JsonFault JsonNumber :=
  let (word, left) := leadingWord 0 n.whole
  if n.fraction.isEmpty ∧ n.exponent = none ∧ left.isEmpty then
    if n.negative = false then .ok (.integer word)
    else if 0 < word ∧ word ≤ 0x8000000000000000 then .ok (.integer (-word))
    else .ok (.float true ((Binary64.ofNat? word).getD .zero))
  else (JsonNumber.float n.negative) <$> n.toFloat

end JsonNumeral

namespace JsonNumber

def found : JsonNumber → JsonFound
  | integer n => .integer n
  | float negative x => .float (if negative then '-' :: x.text else x.text)

end JsonNumber

namespace JsonDoc

/-- Turns a document away that is not of the expected shape; one that is ill formed there says so
first. -/
def refuse {α : Type} (expected : Text) : JsonDoc → Except JsonError α
  | null => .error (.mismatch (.invalidType .null expected))
  | bool b => .error (.mismatch (.invalidType (.bool b) expected))
  | number n =>
      match n.number with
      | .ok v => .error (.mismatch (.invalidType v.found expected))
      | .error fault => .error (.illFormed fault)
  | string units =>
      match StringUnit.text units with
      | .ok s => .error (.mismatch (.invalidType (.string s) expected))
      | .error fault => .error (.illFormed fault)
  | array _ _ => .error (.mismatch (.invalidType .sequence expected))
  | object _ _ => .error (.mismatch (.invalidType .map expected))
  | broken fault => .error (.illFormed fault)

def asText (expected : Text) : JsonDoc → Except JsonError Text
  | string units => (StringUnit.text units).mapError .illFormed
  | doc => refuse expected doc

def asString (doc : JsonDoc) : Except JsonError Text := asText "a string".toList doc

def asBool : JsonDoc → Except JsonError Bool
  | bool b => .ok b
  | doc => refuse "a boolean".toList doc

def asNat (limit : Nat) (expected : Text) : JsonDoc → Except JsonError Nat
  | number n =>
      match n.number with
      | .error fault => .error (.illFormed fault)
      | .ok (.integer i) =>
          if 0 ≤ i ∧ i ≤ limit then .ok i.toNat
          else .error (.mismatch (.invalidValue (.integer i) expected))
      | .ok v => .error (.mismatch (.invalidType v.found expected))
  | doc => refuse expected doc

def asWord (doc : JsonDoc) : Except JsonError Nat := asNat wordMax "u64".toList doc

def asHalfWord (doc : JsonDoc) : Except JsonError Nat := asNat halfWordMax "u32".toList doc

def asOption {α : Type} (decode : JsonDoc → Except JsonError α) :
    JsonDoc → Except JsonError (Option α)
  | null => .ok none
  | doc => some <$> decode doc

def ended {α : Type} (a : α) : Option JsonFault → Except JsonError α
  | none => .ok a
  | some fault => .error (.illFormed fault)

def asList {α : Type} (decode : JsonDoc → Except JsonError α) : JsonDoc → Except JsonError (List α)
  | array items ending => do
      let as ← items.mapM decode
      ended as ending
  | doc => refuse "a sequence".toList doc

mutual

def skip : JsonDoc → Except JsonError Unit
  | broken fault => .error (.illFormed fault)
  | array items ending => do
      skipAll items
      ended () ending
  | object entries ending => do
      skipEntries entries
      ended () ending
  | _ => .ok ()

def skipAll : List JsonDoc → Except JsonError Unit
  | [] => .ok ()
  | d :: ds => do
      skip d
      skipAll ds

def skipEntries : List (List StringUnit × JsonDoc) → Except JsonError Unit
  | [] => .ok ()
  | (_, d) :: es => do
      skip d
      skipEntries es

end

def keyText (units : List StringUnit) : Except JsonError Text :=
  (StringUnit.text units).mapError .illFormed

def foldEntries {α : Type} (step : α → Text → JsonDoc → Except JsonError α) (a : α)
    (entries : List (List StringUnit × JsonDoc)) : Except JsonError α :=
  entries.foldlM (fun a (units, doc) => do step a (← keyText units) doc) a

/-- How a record is read: `step` takes in one named field, and `finish` makes the record or names a
required field that is missing. -/
structure RecordShape (δ α : Type) where
  label : Text
  fields : List Text
  start : δ
  step : δ → Text → JsonDoc → Except JsonError δ
  finish : δ → Except Text α

variable {δ α : Type}

namespace RecordShape

def fill {β : Type} (name : Text) (place : Option β) (value : Except JsonError β) :
    Except JsonError (Option β) :=
  match place with
  | some _ => .error (.mismatch (.duplicateField name))
  | none => some <$> value

/-- A record as a list gives its fields in order; those at the end may be left out if they are not
required. -/
def ofItems (shape : RecordShape δ α) (items : List JsonDoc) (ending : Option JsonFault) :
    Except JsonError α := do
  let draft ←
    (shape.fields.zip items).foldlM (fun d (name, doc) => shape.step d name doc) shape.start
  if shape.fields.length < items.length then .error (.illFormed .trailingCharacters)
  else
    let draft ← ended draft ending
    match shape.finish draft with
    | .ok a => .ok a
    | .error name =>
        .error (.mismatch (.invalidLength (shape.fields.idxOf name)
          (shape.label ++ " with ".toList ++ decimal shape.fields.length ++ " elements".toList)))

def decode (shape : RecordShape δ α) : JsonDoc → Except JsonError α
  | array items ending => shape.ofItems items ending
  | object entries ending => do
      let draft ← foldEntries shape.step shape.start entries
      let draft ← ended draft ending
      match shape.finish draft with
      | .ok a => .ok a
      | .error name => .error (.mismatch (.missingField name))
  | doc => refuse shape.label doc

end RecordShape

def decodeText (decode : JsonDoc → Except JsonError α) (text : Text) : Except JsonError α := do
  let (doc, trailing) := read text
  let a ← decode doc
  ended a trailing

end JsonDoc

end MemberOffsets
