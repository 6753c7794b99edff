import MemberOffsets.Abi.Profile
import MemberOffsets.Symbol.Index

set_option autoImplicit false

namespace MemberOffsets

open Text

inductive Inquiry (α : Type) where
  | done (a : α)
  | lookup (name : Text) (next : Lookup Nat → Inquiry α)
  | choose (name : Text) (candidates : List Text) (next : Option Text → Inquiry α)
  | confirm (name : Text) (next : Bool → Inquiry α)

inductive Exchange where
  | lookup (name : Text) (answer : Lookup Nat)
  | choose (name : Text) (candidates : List Text) (answer : Option Text)
  | confirm (name : Text) (answer : Bool)
deriving DecidableEq, Repr

structure Fallback (σ : Type) where
  choose : Text → List Text → σ → Option Text × σ
  confirm : Text → σ → Bool × σ

def Fallback.declining {σ : Type} : Fallback σ := ⟨fun _ _ s => (none, s), fun _ s => (false, s)⟩

structure Responder (σ : Type) where
  lookup : Text → σ → Lookup Nat × σ
  choose : Text → List Text → σ → Option Text × σ
  confirm : Text → σ → Bool × σ

namespace Responder

variable {σ τ : Type}

def of (db : Database σ) (fallback : Fallback τ) : Responder (σ × τ) where
  lookup name s :=
    let (answer, t) := db.width name s.1
    (answer, t, s.2)
  choose name candidates s :=
    let (answer, t) := fallback.choose name candidates s.2
    (answer, s.1, t)
  confirm name s :=
    let (answer, t) := fallback.confirm name s.2
    (answer, s.1, t)

def ofFunctions (lookup : Text → Lookup Nat) (choose : Text → List Text → Option Text)
    (confirm : Text → Bool) : Responder Unit :=
  ⟨fun name s => (lookup name, s), fun name cs s => (choose name cs, s),
    fun name s => (confirm name, s)⟩

end Responder

namespace Inquiry

variable {α σ : Type}

def run (r : Responder σ) : Inquiry α → σ → α × List Exchange × σ
  | done a, s => (a, [], s)
  | lookup name next, s =>
      let (answer, s) := r.lookup name s
      let (a, exchanges, s) := run r (next answer) s
      (a, .lookup name answer :: exchanges, s)
  | choose name candidates next, s =>
      let (answer, s) := r.choose name candidates s
      let (a, exchanges, s) := run r (next answer) s
      (a, .choose name candidates answer :: exchanges, s)
  | confirm name next, s =>
      let (answer, s) := r.confirm name s
      let (a, exchanges, s) := run r (next answer) s
      (a, .confirm name answer :: exchanges, s)

end Inquiry

inductive WidthError where
  | unknownType (name : Text)
  | ambiguous (name : Text) (candidates : List Text)
deriving DecidableEq, Repr

def WidthError.message : WidthError → Text
  | .unknownType name => "Unknown type: ".toList ++ name
  | .ambiguous name candidates =>
      "Ambiguous symbol lookup for ".toList ++ name ++ ": ".toList ++ decimal candidates.length ++
        " candidates".toList

inductive Origin where
  | star
  | explicit
  | pointerAlias
  | builtIn
  | symbols
  | candidate (name : Text)
  | confirmed
deriving DecidableEq, Repr

structure Sizing where
  name : Text
  width : Nat
  origin : Origin
deriving DecidableEq, Repr

namespace Profile

def sizing? (p : Profile) (name : Text) : Option Sizing :=
  if name.getLast? = some '*' then some ⟨name, p.pointerBytes, .star⟩
  else
    match p.override? name with
    | some width => some ⟨name, width, .explicit⟩
    | none =>
        if isPointerAlias name then some ⟨name, p.pointerBytes, .pointerAlias⟩
        else (p.widthOf? name).map (⟨name, ·, .builtIn⟩)

def askPointer (p : Profile) (name : Text) (reason : WidthError) :
    Inquiry (Except WidthError Sizing) :=
  if name.head? = some 'P' ∨ name.head? = some 'p' then
    .confirm name fun
      | true => .done (.ok ⟨name, p.pointerBytes, .confirmed⟩)
      | false => .done (.error reason)
  else .done (.error reason)

/-- A choice among the candidates is looked up again, and only a lookup that fails leads to the last
question. -/
def askWidth (p : Profile) (name : Text) : Inquiry (Except WidthError Sizing) :=
  .lookup name fun
    | .found width => .done (.ok ⟨name, width, .symbols⟩)
    | .notFound => p.askPointer name (.unknownType name)
    | .ambiguous candidates =>
        .choose name candidates fun
          | none => p.askPointer name (.ambiguous name candidates)
          | some choice =>
              .lookup choice fun
                | .found width => .done (.ok ⟨name, width, .candidate choice⟩)
                | _ => p.askPointer name (.ambiguous name candidates)

def sizing (p : Profile) (type : Text) : Inquiry (Except WidthError Sizing) :=
  let name := bareType type
  if name.isEmpty then .done (.error (.unknownType (trim type)))
  else
    match p.sizing? name with
    | some s => .done (.ok s)
    | none => p.askWidth name

variable {σ : Type}

def width (p : Profile) (r : Responder σ) (type : Text) (s : σ) : Except WidthError Nat × σ :=
  let (answer, _, s) := (p.sizing type).run r s
  (answer.map Sizing.width, s)

end Profile

end MemberOffsets
