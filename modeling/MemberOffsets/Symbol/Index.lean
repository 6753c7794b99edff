import MemberOffsets.Declaration.Statement
import MemberOffsets.Table

set_option autoImplicit false

namespace MemberOffsets

open Text

structure MemberLayout where
  name : Text
  offset : Nat
  size : Nat
  type : Option Text
deriving DecidableEq, Repr

structure TypeLayout where
  name : Text
  kind : Kind
  size : Nat
  members : List MemberLayout
deriving DecidableEq, Repr

namespace TypeLayout

def ofStruct (name : Text) (size : Nat) : TypeLayout := ⟨name, .struct, size, []⟩

def ofUnion (name : Text) (size : Nat) : TypeLayout := ⟨name, .union, size, []⟩

def withMember (l : TypeLayout) (name : Text) (offset size : Nat) (type : Text) : TypeLayout :=
  { l with members := l.members ++ [⟨name, offset, size, some type⟩] }

end TypeLayout

inductive Lookup (α : Type) where
  | found (value : α)
  | notFound
  | ambiguous (candidates : List Text)
deriving DecidableEq, Repr

namespace Lookup

variable {α β : Type}

def map (f : α → β) : Lookup α → Lookup β
  | found a => found (f a)
  | notFound => notFound
  | ambiguous cs => ambiguous cs

def toOption : Lookup α → Option α
  | found a => some a
  | _ => none

end Lookup

abbrev SymbolIndex := Table TypeLayout.name

namespace SymbolIndex

def stem (name : Text) : Text := (lower name).dropWhile (· == '_')

def pick? : List TypeLayout → Option (Lookup TypeLayout)
  | [] => none
  | [l] => some (.found l)
  | ls => some (.ambiguous (ls.map TypeLayout.name))

def maxCandidates : Nat := 32

/-- The name as it is, else in another case, else without leading underscores. A part of a name only
brings up candidates. -/
def find (index : SymbolIndex) (query : Text) : Lookup TypeLayout :=
  match index.find? query with
  | some l => .found l
  | none =>
      let q := trim query
      if (stem q).isEmpty then .notFound
      else
        match pick? (index.items.filter fun l => lower l.name == lower q) with
        | some answer => answer
        | none =>
            match pick? (index.items.filter fun l => stem l.name == stem q) with
            | some answer => answer
            | none =>
                let similar := index.items.filter fun l => includes (stem q) (lower l.name)
                match similar.take maxCandidates with
                | [] => .notFound
                | ls => .ambiguous (ls.map TypeLayout.name)

def width (index : SymbolIndex) (query : Text) : Lookup Nat :=
  (index.find query).map TypeLayout.size

end SymbolIndex

structure Database (σ : Type) where
  width : Text → σ → Lookup Nat × σ
  layout : Text → σ → Lookup TypeLayout × σ

namespace Database

variable {σ : Type}

def ofFunctions (width : Text → Lookup Nat) (layout : Text → Lookup TypeLayout) : Database σ :=
  ⟨fun name s => (width name, s), fun name s => (layout name, s)⟩

def empty : Database σ := ofFunctions (fun _ => .notFound) (fun _ => .notFound)

def ofIndex (index : SymbolIndex) : Database σ := ofFunctions index.width index.find

def counted (db : Database σ) : Database (σ × Nat) where
  width name s :=
    let (answer, t) := db.width name s.1
    (answer, t, s.2 + 1)
  layout name s :=
    let (answer, t) := db.layout name s.1
    (answer, t, s.2 + 1)

end Database

abbrev WidthCache := Table (Prod.fst : Text × Lookup Nat → Text)

namespace Database

variable {σ : Type}

def cached (db : Database σ) : Database (σ × WidthCache) where
  width name s :=
    match s.2.find? name with
    | some known => (known.2, s)
    | none =>
        let (answer, t) := db.width name s.1
        (answer, t, s.2.insert (name, answer))
  layout name s :=
    let (answer, t) := db.layout name s.1
    (answer, t, s.2)

end Database

def forgetWidths {σ : Type} (s : σ × WidthCache) : σ × WidthCache := (s.1, .empty)

end MemberOffsets
