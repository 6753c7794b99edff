import MemberOffsets.Text.Basic
import MemberOffsets.Text.WordChar

set_option autoImplicit false

namespace MemberOffsets

open Text

/-- `dims` holds the texts between the brackets, their blanks collapsed. -/
structure Declarator where
  ident : Text
  dims : List Text
deriving DecidableEq, Repr

namespace Declarator

def suffix (dims : List Text) : Text := dims.flatMap fun dim => '[' :: squash dim ++ [']']

def text (d : Declarator) : Text := d.ident ++ suffix d.dims

mutual

def readDims? : Text → Option (List Text)
  | [] => some []
  | c :: r =>
      if isBlank c then readDims? r
      else if c = '[' then (readDim? r).map fun (dim, later) => collapse dim :: later
      else none

/-- Reads on inside brackets: the rest of this dimension as it stands, and the later ones. Brackets
do not nest. -/
def readDim? : Text → Option (Text × List Text)
  | [] => none
  | c :: r =>
      if c = ']' then (readDims? r).map ([], ·)
      else if c = '[' then none
      else (readDim? r).map fun (dim, later) => (c :: dim, later)

end

def read? : Text → Option Declarator
  | [] => none
  | c :: r =>
      if isIdentStart c then
        (readDims? (r.dropWhile isIdentChar)).map (⟨c :: r.takeWhile isIdentChar, ·⟩)
      else none

/-- Finds the first place, at a word boundary, from which on the text is a declarator. `afterWord`
tells whether a word character stands before the text. -/
def find? (afterWord : Bool) : Text → Option (Text × Declarator)
  | [] => none
  | c :: r =>
      match if afterWord then none else read? (c :: r) with
      | some d => some ([], d)
      | none => (find? (isWordChar c) r).map fun (before, d) => (c :: before, d)

end Declarator

def literal? (dim : Text) : Option Nat :=
  let isSuffix (c : Char) : Bool := c == 'u' || c == 'U' || c == 'l' || c == 'L'
  readPrefixed? (dim.reverse.dropWhile isSuffix).reverse

/-- One dimension's turn in the count: none at all inside the brackets counts nothing, as for a
flexible array member. -/
def countDim (count : Nat) (dim : Text) : Except Text Nat :=
  if dim.isEmpty then .ok 0
  else
    match literal? dim with
    | some n => .ok (min (count * n) wordMax)
    | none => .error dim

def elementCount (dims : List Text) : Except Text Nat := dims.foldlM countDim 1

inductive Kind where
  | struct
  | union
deriving DecidableEq, Repr

def Kind.keyword : Kind → Text
  | .struct => "struct".toList
  | .union => "union".toList

inductive MemberTree (β α : Type) where
  | field (leaf : α)
  | block (node : β) (members : List (MemberTree β α))
deriving Repr

namespace MemberTree

variable {α β γ δ σ : Type}

mutual

def leaves : MemberTree β α → List α
  | .field a => [a]
  | .block _ ms => leavesOf ms

def leavesOf : List (MemberTree β α) → List α
  | [] => []
  | m :: ms => leaves m ++ leavesOf ms

end

mutual

def traverse (f : α → σ → γ × σ) : MemberTree β α → σ → MemberTree β γ × σ
  | .field a, s =>
      let (c, s) := f a s
      (.field c, s)
  | .block b ms, s =>
      let (ms, s) := traverseAll f ms s
      (.block b ms, s)

def traverseAll (f : α → σ → γ × σ) : List (MemberTree β α) → σ → List (MemberTree β γ) × σ
  | [], s => ([], s)
  | m :: ms, s =>
      let (m, s) := traverse f m s
      let (ms, s) := traverseAll f ms s
      (m :: ms, s)

end

end MemberTree

structure FieldDecl where
  type : Text
  declarator : Declarator
deriving DecidableEq, Repr

namespace FieldDecl

def name (f : FieldDecl) : Text := f.declarator.text

def dims (f : FieldDecl) : List Text := f.declarator.dims

def read? (statement : Text) : Option FieldDecl :=
  match Declarator.find? false (Text.trim statement) with
  | none => none
  | some (before, d) =>
      let type := Text.collapse before
      if type.isEmpty then none else some ⟨type, d⟩

end FieldDecl

/-- What a block says of itself. `source` is its text, from the keyword to the closing `;`. -/
structure BlockDecl where
  kind : Kind
  tag : Option Text
  declarator : Option Declarator
  source : Text
deriving DecidableEq, Repr

namespace BlockDecl

def name (b : BlockDecl) : Option Text := b.declarator.map Declarator.text

def dims (b : BlockDecl) : List Text := b.declarator.elim [] Declarator.dims

def root (kind : Kind) (tag : Option Text) : BlockDecl := ⟨kind, tag, none, []⟩

end BlockDecl

abbrev Statement := MemberTree BlockDecl FieldDecl

end MemberOffsets
