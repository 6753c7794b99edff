import MemberOffsets.Text.Basic

set_option autoImplicit false

namespace MemberOffsets

abbrev Bytes := List UInt8

namespace Utf8

/-- A sequence begun: how many bytes it needs, where the next one must lie, and what it holds so
far. -/
structure Partial where
  needed : Nat
  low : Nat
  high : Nat
  value : Nat
  seen : Nat

inductive Lead where
  | single (c : Char)
  | several (p : Partial)
  | never

/-- What a byte begins. The range of the second byte keeps out overlong forms, surrogates and values
past U+10FFFF. -/
def lead (b : Nat) : Lead :=
  if b < 0x80 then .single (Char.ofNat b)
  else if b < 0xC2 then .never
  else if b < 0xE0 then .several ⟨1, 0x80, 0xBF, b - 0xC0, 1⟩
  else if b < 0xF0 then
    .several ⟨2, if b = 0xE0 then 0xA0 else 0x80, if b = 0xED then 0x9F else 0xBF, b - 0xE0, 1⟩
  else if b < 0xF5 then
    .several ⟨3, if b = 0xF0 then 0x90 else 0x80, if b = 0xF4 then 0x8F else 0xBF, b - 0xF0, 1⟩
  else .never

def Partial.accepts (p : Partial) (b : Nat) : Bool := decide (p.low ≤ b) && decide (b ≤ p.high)

def Partial.next (p : Partial) (b : Nat) : Partial :=
  ⟨p.needed - 1, 0x80, 0xBF, p.value * 64 + (b - 0x80), p.seen + 1⟩

inductive Fault where
  | invalid (length index : Nat)
  | incomplete (index : Nat)
deriving DecidableEq, Repr

open Text in
def Fault.message : Fault → Text
  | .invalid length index =>
      "invalid utf-8 sequence of ".toList ++ decimal length ++ " bytes from index ".toList ++
        decimal index
  | .incomplete index => "incomplete utf-8 byte sequence from index ".toList ++ decimal index

def decodeFrom (index : Nat) : Option Partial → Bytes → Except Fault Text
  | none, [] => .ok []
  | some p, [] => .error (.incomplete (index - p.seen))
  | none, b :: r =>
      match lead b.toNat with
      | .single c => (c :: ·) <$> decodeFrom (index + 1) none r
      | .several p => decodeFrom (index + 1) (some p) r
      | .never => .error (.invalid 1 index)
  | some p, b :: r =>
      if p.accepts b.toNat then
        let q := p.next b.toNat
        if q.needed = 0 then (Char.ofNat q.value :: ·) <$> decodeFrom (index + 1) none r
        else decodeFrom (index + 1) (some q) r
      else .error (.invalid p.seen (index - p.seen))

def decode (bytes : Bytes) : Except Fault Text := decodeFrom 0 none bytes

def replacement : Char := '\uFFFD'

def decodeLossyFrom : Option Partial → Bytes → Text
  | none, [] => []
  | some _, [] => [replacement]
  | none, b :: r =>
      match lead b.toNat with
      | .single c => c :: decodeLossyFrom none r
      | .several p => decodeLossyFrom (some p) r
      | .never => replacement :: decodeLossyFrom none r
  | some p, b :: r =>
      if p.accepts b.toNat then
        let q := p.next b.toNat
        if q.needed = 0 then Char.ofNat q.value :: decodeLossyFrom none r
        else decodeLossyFrom (some q) r
      else
        replacement ::
          match lead b.toNat with
          | .single c => c :: decodeLossyFrom none r
          | .several q => decodeLossyFrom (some q) r
          | .never => replacement :: decodeLossyFrom none r

def decodeLossy (bytes : Bytes) : Text := decodeLossyFrom none bytes

def encode (s : Text) : Bytes := s.flatMap String.utf8EncodeChar

end Utf8

end MemberOffsets
