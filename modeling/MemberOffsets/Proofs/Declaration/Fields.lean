import MemberOffsets.Proofs.Declaration.Spelling

set_option autoImplicit false

namespace MemberOffsets

open Text

def isWordBoundary (before after : Text) : Bool :=
  before.getLast?.any isWordChar != after.head?.any isWordChar

theorem isWordBoundary_write (before : Text) (w : DeclaratorSpelling) :
    isWordBoundary before w.write = !Declarator.endsInWord false before := by
  have name : isWordChar w.ident.first = true :=
    isWordChar_of_isIdentChar (isIdentChar_of_isIdentStart _ w.ident.start)
  cases last : before.getLast? <;>
    simp [isWordBoundary, Declarator.endsInWord, last, DeclaratorSpelling.write, Identifier.text,
      name]

namespace FieldDecl

structure Shows (f : FieldDecl) (before : Text) (w : DeclaratorSpelling) : Prop where
  type : f.type = collapse before
  name : f.name = w.ident.text ++ squash (DeclaratorSpelling.suffix w.dims)
  dims : f.dims = w.dims.map fun dim => collapse dim.inside

theorem shows_decl (before : Text) (w : DeclaratorSpelling) :
    Shows ⟨collapse before, w.decl⟩ before w where
  type := rfl
  name := by
    have ident : squash w.ident.text = w.ident.text :=
      squash_of_dark fun c member => isBlank_of_isIdentChar (w.ident.isIdentChar c member)
    rw [name, w.text_decl, DeclaratorSpelling.write, squash_append, ident]
  dims := rfl

-- The name and the dimensions leave only one identifier.
theorem Shows.eq {f g : FieldDecl} {before : Text} {w : DeclaratorSpelling}
    (left : f.Shows before w) (right : g.Shows before w) : f = g := by
  obtain ⟨type, ⟨ident, dims⟩⟩ := f
  obtain ⟨type', ⟨ident', dims'⟩⟩ := g
  obtain rfl : type = type' := left.type.trans right.type.symm
  obtain rfl : dims = dims' := left.dims.trans right.dims.symm
  have named : ident ++ Declarator.suffix dims = ident' ++ Declarator.suffix dims :=
    left.name.trans right.name.symm
  obtain rfl : ident = ident' := List.append_cancel_right named
  rfl

theorem read?_eq_some_iff (s : Text) (f : FieldDecl) :
    read? s = some f ↔
      ∃ (type : Text) (w : DeclaratorSpelling) (tail : Blanks), s = type ++ w.write ++ tail.val ∧
        allBlank type = false ∧ isWordBoundary type w.write = true ∧ f.Shows type w := by
  constructor
  · intro read
    obtain ⟨type, w, tail, spelled, named, apart, rfl⟩ := read?_eq_some read
    refine ⟨type, w, tail, spelled, named, ?_, shows_decl type w⟩
    rw [isWordBoundary_write, apart, Bool.not_false]
  · rintro ⟨type, w, tail, rfl, named, boundary, shows⟩
    rw [isWordBoundary_write, Bool.not_eq_true'] at boundary
    rw [read?_write named boundary, shows.eq (shows_decl type w)]

end FieldDecl

/-- A declarator at the end of a statement is read off it whatever precedes it, and nothing else is
read as a field. Blanks set it apart, but any word boundary does. -/
theorem field_rightmost :
    (∀ (type : Text) (gap : Blanks) (w : DeclaratorSpelling) (tail : Blanks),
      allBlank type = false → gap.val ≠ [] →
        ∃ f, FieldDecl.read? (type ++ gap.val ++ w.write ++ tail.val) = some f ∧ f.Shows type w) ∧
      ∀ (s : Text) (f : FieldDecl), FieldDecl.read? s = some f ↔
        ∃ (type : Text) (w : DeclaratorSpelling) (tail : Blanks),
          s = type ++ w.write ++ tail.val ∧ allBlank type = false ∧
            isWordBoundary type w.write = true ∧ f.Shows type w := by
  refine ⟨?_, FieldDecl.read?_eq_some_iff⟩
  intro type gap w tail named apart
  have named' : allBlank (type ++ gap.val) = false := by
    simp only [allBlank, List.all_append] at named ⊢
    simp [named]
  have apart' : Declarator.endsInWord false (type ++ gap.val) = false := by
    have last := List.getLast?_eq_some_getLast apart
    have blank := allBlank_iff.mp gap.property _ (List.getLast_mem apart)
    simp [Declarator.endsInWord, last, isWordChar_of_isBlank blank]
  have same := collapse_congr (words_append_right type gap.property)
  exact ⟨_, FieldDecl.read?_write named' apart' w tail, same ▸ FieldDecl.shows_decl type w⟩

-- Brackets in the type, one of them never closed, take nothing from the name.
theorem field_rightmost_unclosed :
    allBlank "Größe a[2]  b[".toList = false ∧ [' '] ≠ ([] : Text) ∧
      ∃ f, FieldDecl.read? "Größe a[2]  b[ Buffer [ N + 1 ][2]\n".toList = some f ∧
        f.type = "Größe a[2] b[".toList ∧ f.name = "Buffer[N+1][2]".toList ∧
          f.dims = ["N + 1".toList, "2".toList] := by
  let ident : Identifier := ⟨'B', "uffer".toList, rfl, forall_mem_of_all (by decide)⟩
  let first : DimSpelling := ⟨⟨[' '], rfl⟩, " N + 1 ".toList, forall_mem_of_all (by decide)⟩
  let second : DimSpelling := ⟨⟨[], rfl⟩, ['2'], forall_mem_of_all (by decide)⟩
  have named : allBlank "Größe a[2]  b[".toList = false := by decide
  have apart : [' '] ≠ ([] : Text) := by decide
  obtain ⟨f, read, shows⟩ := field_rightmost.1 "Größe a[2]  b[".toList ⟨[' '], rfl⟩
    ⟨ident, [first, second]⟩ ⟨['\n'], rfl⟩ named apart
  refine ⟨named, apart, f, read, ?_, ?_, ?_⟩
  · rw [shows.type]
    decide
  · rw [shows.name]
    decide
  · rw [shows.dims]
    decide

end MemberOffsets
