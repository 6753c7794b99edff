import MemberOffsets.Text.Basic

/-!
JSON documents as they are read. A document keeps all that can be read of a text: where the text
stops being JSON, the document says so at that place. Whoever goes through it from left to right so
meets the first fault of either kind, of the text or of what it says, in the order of the text.
-/

set_option autoImplicit false

namespace MemberOffsets

open Text

inductive JsonFault where
  | endInList
  | endInObject
  | endInString
  | endInValue
  | expectedColon
  | expectedListCommaOrEnd
  | expectedObjectCommaOrEnd
  | expectedIdent
  | expectedValue
  | invalidEscape
  | invalidNumber
  | numberOutOfRange
  | controlCharacter
  | keyNotString
  | loneSurrogate
  | endOfHexEscape
  | trailingComma
  | trailingCharacters
  | invalidUnicode
deriving DecidableEq, Repr

namespace JsonFault

def message : JsonFault → Text
  | endInList => "EOF while parsing a list".toList
  | endInObject => "EOF while parsing an object".toList
  | endInString => "EOF while parsing a string".toList
  | endInValue => "EOF while parsing a value".toList
  | expectedColon => "expected `:`".toList
  | expectedListCommaOrEnd => "expected `,` or `]`".toList
  | expectedObjectCommaOrEnd => "expected `,` or `\x7d`".toList
  | expectedIdent => "expected ident".toList
  | expectedValue => "expected value".toList
  | invalidEscape => "invalid escape".toList
  | invalidNumber => "invalid number".toList
  | numberOutOfRange => "number out of range".toList
  | controlCharacter => "control character (\\u0000-\\u001F) found while parsing a string".toList
  | keyNotString => "key must be a string".toList
  | loneSurrogate => "lone leading surrogate in hex escape".toList
  | endOfHexEscape => "unexpected end of hex escape".toList
  | trailingComma => "trailing comma".toList
  | trailingCharacters => "trailing characters".toList
  | invalidUnicode => "invalid unicode code point".toList

end JsonFault

structure JsonNumeral where
  negative : Bool
  whole : Text
  fraction : Text
  exponent : Option (Bool × Text)
deriving DecidableEq, Repr

inductive StringUnit where
  | char (c : Char)
  | unit (n : Nat)
deriving DecidableEq, Repr

/-- `ending` of a list or an object is the fault in place of its closing bracket. -/
inductive JsonDoc where
  | null
  | bool (b : Bool)
  | number (n : JsonNumeral)
  | string (units : List StringUnit)
  | array (items : List JsonDoc) (ending : Option JsonFault)
  | object (entries : List (List StringUnit × JsonDoc)) (ending : Option JsonFault)
  | broken (fault : JsonFault)
deriving Repr

namespace StringUnit

/-- The text of a string. Two units may make up one character; none may stand alone. -/
def text : List StringUnit → Except JsonFault Text
  | [] => .ok []
  | .char c :: r => (c :: ·) <$> text r
  | .unit n :: r =>
      if n < 0xD800 ∨ 0xDFFF < n then (Char.ofNat n :: ·) <$> text r
      else if 0xDC00 ≤ n then .error .loneSurrogate
      else
        match r with
        | .unit m :: r =>
            if 0xDC00 ≤ m ∧ m ≤ 0xDFFF then
              (Char.ofNat (0x10000 + (n - 0xD800) * 0x400 + (m - 0xDC00)) :: ·) <$> text r
            else .error .loneSurrogate
        | _ => .error .endOfHexEscape

end StringUnit

namespace JsonDoc

def isSpace (c : Char) : Bool := c == ' ' || c == '\n' || c == '\t' || c == '\r'

def skipSpace (s : Text) : Text := s.dropWhile isSpace

def simpleEscape? (c : Char) : Option Char :=
  if c = '"' ∨ c = '\\' ∨ c = '/' then some c
  else if c = 'b' then some '\x08'
  else if c = 'f' then some '\x0c'
  else if c = 'n' then some '\n'
  else if c = 'r' then some '\r'
  else if c = 't' then some '\t'
  else none

def readString : Text → Except JsonFault (List StringUnit × Text)
  | [] => .error .endInString
  | '"' :: r => .ok ([], r)
  | '\\' :: 'u' :: a :: b :: c :: d :: r =>
      match readDigits 16 [a, b, c, d] with
      | some n => (fun (units, rest) => (.unit n :: units, rest)) <$> readString r
      | none => .error .invalidEscape
  | '\\' :: 'u' :: _ => .error .endInString
  | '\\' :: c :: r =>
      match simpleEscape? c with
      | some e => (fun (units, rest) => (.char e :: units, rest)) <$> readString r
      | none => .error .invalidEscape
  | c :: r =>
      if c = '\\' then .error .endInString
      else if c.toNat < 0x20 then .error .controlCharacter
      else (fun (units, rest) => (.char c :: units, rest)) <$> readString r

def readDigitRun (s : Text) : Except JsonFault (Text × Text) :=
  match s with
  | [] => .error .endInValue
  | c :: _ =>
      if c.isDigit then .ok (s.takeWhile Char.isDigit, s.dropWhile Char.isDigit)
      else .error .invalidNumber

def readWhole (s : Text) : Except JsonFault (Text × Text) := do
  let (digits, r) ← readDigitRun s
  if digits.head? = some '0' ∧ 1 < digits.length then .error .invalidNumber else .ok (digits, r)

def readFraction : Text → Except JsonFault (Text × Text)
  | '.' :: r => readDigitRun r
  | s => .ok ([], s)

def readExponent (s : Text) : Except JsonFault (Option (Bool × Text) × Text) :=
  match s with
  | c :: r =>
      if c = 'e' ∨ c = 'E' then do
        let (negative, r) := match r with
          | '+' :: r => (false, r)
          | '-' :: r => (true, r)
          | r => (false, r)
        let (digits, r) ← readDigitRun r
        .ok (some (negative, digits), r)
      else .ok (none, s)
  | [] => .ok (none, s)

def readNumber (s : Text) : Except JsonFault (JsonNumeral × Text) := do
  let (negative, r) := match s with
    | '-' :: r => (true, r)
    | r => (false, r)
  let (whole, r) ← readWhole r
  let (fraction, r) ← readFraction r
  let (exponent, r) ← readExponent r
  .ok (⟨negative, whole, fraction, exponent⟩, r)

def readWord (word : Text) (doc : JsonDoc) (s : Text) : JsonDoc × Option Text :=
  match dropStart? word s with
  | some r => (doc, some r)
  | none => (.broken .expectedIdent, none)

/-- What a reader gives when a text is longer than its fuel, which the fuel of `read` rules out. -/
def exhausted : JsonFault := .endInValue

mutual

def readValue : Nat → Text → JsonDoc × Option Text
  | 0, _ => (.broken exhausted, none)
  | fuel + 1, s =>
      match skipSpace s with
      | [] => (.broken .endInValue, none)
      | '[' :: r =>
          let (items, ending, rest) := readItems fuel true r
          (.array items ending, rest)
      | '{' :: r =>
          let (entries, ending, rest) := readEntries fuel true r
          (.object entries ending, rest)
      | '"' :: r =>
          match readString r with
          | .ok (units, rest) => (.string units, some rest)
          | .error fault => (.broken fault, none)
      | c :: r =>
          if c = 'n' then readWord "ull".toList .null r
          else if c = 't' then readWord "rue".toList (.bool true) r
          else if c = 'f' then readWord "alse".toList (.bool false) r
          else if c = '-' ∨ c.isDigit then
            match readNumber (c :: r) with
            | .ok (n, rest) => (.number n, some rest)
            | .error fault => (.broken fault, none)
          else (.broken .expectedValue, none)

def readItems : Nat → Bool → Text → List JsonDoc × Option JsonFault × Option Text
  | 0, _, _ => ([], some exhausted, none)
  | fuel + 1, first, s =>
      match skipSpace s with
      | [] => ([], some .endInList, none)
      | ']' :: r => ([], none, some r)
      | c :: r =>
          if first then readItem fuel (c :: r)
          else if c = ',' then
            match skipSpace r with
            | [] => ([], some .endInValue, none)
            | ']' :: _ => ([], some .trailingComma, none)
            | r => readItem fuel r
          else ([], some .expectedListCommaOrEnd, none)

def readItem : Nat → Text → List JsonDoc × Option JsonFault × Option Text
  | 0, _ => ([], some exhausted, none)
  | fuel + 1, s =>
      match readValue fuel s with
      | (doc, none) => ([doc], some exhausted, none)
      | (doc, some r) =>
          let (items, ending, rest) := readItems fuel false r
          (doc :: items, ending, rest)

def readEntries :
    Nat → Bool → Text → List (List StringUnit × JsonDoc) × Option JsonFault × Option Text
  | 0, _, _ => ([], some exhausted, none)
  | fuel + 1, first, s =>
      match skipSpace s with
      | [] => ([], some .endInObject, none)
      | '}' :: r => ([], none, some r)
      | c :: r =>
          if first then readEntry fuel (c :: r)
          else if c = ',' then
            match skipSpace r with
            | [] => ([], some .endInValue, none)
            | '}' :: _ => ([], some .trailingComma, none)
            | r => readEntry fuel r
          else ([], some .expectedObjectCommaOrEnd, none)

def readEntry : Nat → Text → List (List StringUnit × JsonDoc) × Option JsonFault × Option Text
  | 0, _ => ([], some exhausted, none)
  | fuel + 1, s =>
      match s with
      | '"' :: r =>
          match readString r with
          | .error fault => ([], some fault, none)
          | .ok (key, r) =>
              match skipSpace r with
              | [] => ([(key, .broken .endInObject)], some exhausted, none)
              | ':' :: r =>
                  match readValue fuel r with
                  | (doc, none) => ([(key, doc)], some exhausted, none)
                  | (doc, some r) =>
                      let (entries, ending, rest) := readEntries fuel false r
                      ((key, doc) :: entries, ending, rest)
              | _ => ([(key, .broken .expectedColon)], some exhausted, none)
      | _ => ([], some .keyNotString, none)

end

/-- The document at the start of a text, and the fault that follows it. Each step takes at least a
character or leads to one that does, so that the fuel lasts. -/
def read (s : Text) : JsonDoc × Option JsonFault :=
  match readValue (3 * s.length + 1) s with
  | (doc, none) => (doc, none)
  | (doc, some rest) => (doc, if (skipSpace rest).isEmpty then none else some .trailingCharacters)

end JsonDoc

end MemberOffsets
