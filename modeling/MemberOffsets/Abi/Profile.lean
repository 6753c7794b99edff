import MemberOffsets.Abi.BuiltIn
import MemberOffsets.Text.Basic

set_option autoImplicit false

namespace MemberOffsets

open Text

def canonicalName (name : Text) : Text := upper (collapse name)

def qualifiers : List Text :=
  ["const".toList, "volatile".toList, "struct".toList, "union".toList, "enum".toList]

def isQualifier (word : Text) : Bool := qualifiers.any (sameIgnoringCase · word)

theorem ne_nil_of_isQualifier {word : Text} (h : isQualifier word = true) : word ≠ [] := by
  rintro rfl
  exact absurd h (by decide)

def endsWord (c : Char) : Bool := isBlank c || c == '*'

def firstWord (s : Text) : Text := s.takeWhile (!endsWord ·)

def afterFirstWord (s : Text) : Text := s.dropWhile (!endsWord ·)

theorem length_afterFirstWord_lt {s : Text} (h : firstWord s ≠ []) :
    (afterFirstWord s).length < s.length := by
  have happ := congrArg List.length (List.takeWhile_append_dropWhile (p := (!endsWord ·)) (l := s))
  have hpos := List.length_pos_iff.mpr h
  simp only [List.length_append] at happ
  simp only [firstWord, afterFirstWord] at *
  omega

/-- Drops the qualifiers in front, each as long as something is left behind it. -/
def dropQualifiers (s : Text) : Text :=
  if _ : isQualifier (firstWord s) = true ∧ afterFirstWord s ≠ [] then
    dropQualifiers (trimStart (afterFirstWord s))
  else s
termination_by s.length
decreasing_by
  rename_i h
  have := length_afterFirstWord_lt (ne_nil_of_isQualifier h.1)
  have := length_trimStart_le (afterFirstWord s)
  omega

/-- Drops one `const` at the end, as long as something is left before it. -/
def dropTrailingConst (s : Text) : Text :=
  let r := s.reverse
  if sameIgnoringCase "const".toList (firstWord r).reverse && !(afterFirstWord r).isEmpty then
    trimEnd (afterFirstWord r).reverse
  else s

def joinStars : Text → Text
  | [] => []
  | ' ' :: '*' :: r => '*' :: joinStars r
  | c :: r => c :: joinStars r

def bareType (type : Text) : Text :=
  joinStars (collapse (dropTrailingConst (dropQualifiers (trim type))))

def isAliasChar (c : Char) : Bool := c.isUpper || c.isDigit || c == '_'

def isPointerAlias (name : Text) : Bool :=
  name.all isAliasChar &&
    match name with
    | 'L' :: 'P' :: r => r.head?.any fun c => c.isUpper || c == '_'
    | 'P' :: r => r.head?.any fun c => c.isUpper || c == '_'
    | _ => false

/-- `overrides` holds what the caller has set; `widths` holds that too, unless a later change of the
text mode has reset it. Keys are canonical names. -/
structure Profile where
  pointer : PointerWidth
  widths : WidthTable
  overrides : WidthTable
  unicode : Bool

namespace Profile

def new (pointer : PointerWidth) : Profile := ⟨pointer, BuiltIn.table pointer, .empty, true⟩

def x86 : Profile := new .bits32

def x64 : Profile := new .bits64

def textAliases : List Text := ["TCHAR".toList, "TBYTE".toList]

def withUnicode (p : Profile) (unicode : Bool) : Profile :=
  { p with
    widths := p.widths.insertAll (textAliases.map (·, if unicode then 2 else 1))
    unicode }

def withWidth (p : Profile) (name : Text) (width : Nat) : Profile :=
  { p with
    widths := p.widths.insert (canonicalName name, width)
    overrides := p.overrides.insert (canonicalName name, width) }

def withWidths (p : Profile) (entries : List (Text × Nat)) : Profile :=
  entries.foldl (fun p e => p.withWidth e.1 e.2) p

def pointerBytes (p : Profile) : Nat := p.pointer.bytes

def widthOf? (p : Profile) (name : Text) : Option Nat := p.widths.get? (canonicalName name)

def override? (p : Profile) (name : Text) : Option Nat := p.overrides.get? (canonicalName name)

def knows (p : Profile) (name : Text) : Bool := (p.widthOf? name).isSome

end Profile

end MemberOffsets
