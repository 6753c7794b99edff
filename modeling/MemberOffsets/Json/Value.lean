import MemberOffsets.Text.Basic

set_option autoImplicit false

namespace MemberOffsets

open Text

inductive Json where
  | null
  | bool (b : Bool)
  | number (n : Nat)
  | string (s : Text)
  | array (items : List Json)
  | object (entries : List (Text × Json))
deriving Repr

namespace Json

def ofOption (s : Option Text) : Json := s.elim null string

def escapeChar (c : Char) : Text :=
  if c = '"' then ['\\', '"']
  else if c = '\\' then ['\\', '\\']
  else if c = '\n' then ['\\', 'n']
  else if c = '\r' then ['\\', 'r']
  else if c = '\t' then ['\\', 't']
  else if c = '\x08' then ['\\', 'b']
  else if c = '\x0c' then ['\\', 'f']
  else if c.toNat < 0x20 then ['\\', 'u'] ++ padded 4 (hex c.toNat)
  else [c]

def writeString (s : Text) : Text := '"' :: s.flatMap escapeChar ++ ['"']

def newline (depth : Nat) : Text := '\n' :: List.replicate (2 * depth) ' '

mutual

def write (depth : Nat) : Json → Text
  | null => "null".toList
  | bool b => if b then "true".toList else "false".toList
  | number n => decimal n
  | string s => writeString s
  | array [] => ['[', ']']
  | array (v :: vs) =>
      '[' :: newline (depth + 1) ++ write (depth + 1) v ++ writeItems (depth + 1) vs ++
        newline depth ++ [']']
  | object [] => ['{', '}']
  | object ((k, v) :: es) =>
      '{' :: newline (depth + 1) ++ writeString k ++ ": ".toList ++ write (depth + 1) v ++
        writeEntries (depth + 1) es ++ newline depth ++ ['}']

def writeItems (depth : Nat) : List Json → Text
  | [] => []
  | v :: vs => ',' :: newline depth ++ write depth v ++ writeItems depth vs

def writeEntries (depth : Nat) : List (Text × Json) → Text
  | [] => []
  | (k, v) :: es =>
      ',' :: newline depth ++ writeString k ++ ": ".toList ++ write depth v ++ writeEntries depth es

end

def pretty (v : Json) : Text := write 0 v

end Json

end MemberOffsets
