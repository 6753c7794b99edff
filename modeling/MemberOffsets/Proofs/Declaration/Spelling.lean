import Mathlib.Data.List.TakeWhile
import MemberOffsets.Declaration.Segment
import MemberOffsets.Proofs.Text.Characters
import MemberOffsets.Proofs.Text.Words

set_option autoImplicit false

namespace MemberOffsets

open Text

abbrev Blanks := { s : Text // allBlank s = true }

theorem Blanks.head?_append {p : Char → Bool} (dark : ∀ c, isBlank c = true → p c = false)
    (gap : Blanks) {t : Text} (stop : ∀ c ∈ t.head?, p c = false) :
    ∀ c ∈ (gap.val ++ t).head?, p c = false := by
  intro c member
  obtain ⟨s, blank⟩ := gap
  cases s with
  | nil => exact stop c member
  | cons d s =>
    obtain rfl : d = c := by simpa using member
    exact dark d (allBlank_iff.mp blank d List.mem_cons_self)

structure Identifier where
  first : Char
  rest : Text
  start : isIdentStart first = true
  later : ∀ c ∈ rest, isIdentChar c = true

def Identifier.text (i : Identifier) : Text := i.first :: i.rest

theorem Identifier.isIdentChar (i : Identifier) : ∀ c ∈ i.text, isIdentChar c = true := by
  intro c member
  rcases List.mem_cons.mp member with rfl | later
  · exact isIdentChar_of_isIdentStart _ i.start
  · exact i.later c later

structure DimSpelling where
  gap : Blanks
  inside : Text
  plain : ∀ c ∈ inside, c ≠ '[' ∧ c ≠ ']'

def DimSpelling.write (d : DimSpelling) : Text := d.gap.val ++ '[' :: d.inside ++ [']']

structure DeclaratorSpelling where
  ident : Identifier
  dims : List DimSpelling

namespace DeclaratorSpelling

def suffix (dims : List DimSpelling) : Text := dims.flatMap DimSpelling.write

def write (d : DeclaratorSpelling) : Text := d.ident.text ++ suffix d.dims

def decl (d : DeclaratorSpelling) : Declarator :=
  ⟨d.ident.text, d.dims.map fun dim => collapse dim.inside⟩

end DeclaratorSpelling

def isMark (c : Char) : Bool := c == ';' || c == '{' || c == '}'

-- The type is kept with the blanks around it. It ends in a blank, or in a character that cannot
-- belong to one word with the name, as the star of a pointer.
structure FieldSpelling where
  type : Text
  declarator : DeclaratorSpelling
  gap : Blanks
  named : allBlank type = false
  typePlain : ∀ c ∈ type, isMark c = false ∧ c ≠ '[' ∧ c ≠ ']'
  boundary : ∀ c ∈ type.getLast?, isBlank c = true ∨ isWordChar c = false
  declaratorPlain : ∀ c ∈ declarator.write, isMark c = false

namespace FieldSpelling

def statement (f : FieldSpelling) : Text := f.type ++ f.declarator.write ++ f.gap.val

def write (f : FieldSpelling) : Text := f.statement ++ [';']

def decl (f : FieldSpelling) : FieldDecl := ⟨collapse f.type, f.declarator.decl⟩

end FieldSpelling

structure TagSpelling where
  gap : Blanks
  ident : Identifier
  apart : gap.val ≠ []

def TagSpelling.write (t : TagSpelling) : Text := t.gap.val ++ t.ident.text

structure AttributeSpelling where
  gap : Blanks
  inside : Text
  plain : ∀ c ∈ inside, isMark c = false ∧ c ≠ ']'

def AttributeSpelling.write (a : AttributeSpelling) : Text :=
  a.gap.val ++ '[' :: '[' :: a.inside ++ [']', ']']

structure HeaderSpelling where
  kind : Kind
  attributes : List AttributeSpelling
  tag : Option (Blanks × Identifier)
  opening : Blanks
  apart : attributes = [] → ∀ t ∈ tag, t.1.val ≠ []

namespace HeaderSpelling

def tagged (h : HeaderSpelling) : Text :=
  h.tag.elim [] (fun t => t.1.val ++ t.2.text) ++ h.opening.val

def write (h : HeaderSpelling) : Text :=
  h.kind.keyword ++ h.attributes.flatMap AttributeSpelling.write ++ h.tagged

def decl (h : HeaderSpelling) : BlockHeader := ⟨h.kind, h.tag.map (·.2.text)⟩

end HeaderSpelling

structure BlockSpelling where
  lead : Blanks
  kind : Kind
  tag : Option TagSpelling
  opening : Blanks
  closing : Blanks
  declarator : Option (Blanks × DeclaratorSpelling)
  gap : Blanks
  declaratorPlain : ∀ d ∈ declarator, ∀ c ∈ d.2.write, isMark c = false

namespace BlockSpelling

def header (b : BlockSpelling) : Text :=
  b.kind.keyword ++ b.tag.elim [] TagSpelling.write ++ b.opening.val

def heading (b : BlockSpelling) : HeaderSpelling where
  kind := b.kind
  attributes := []
  tag := b.tag.map fun t => (t.gap, t.ident)
  opening := b.opening
  apart := by
    rintro - t member
    obtain ⟨tag, -, rfl⟩ := Option.map_eq_some_iff.mp member
    exact tag.apart

theorem write_heading (b : BlockSpelling) : b.heading.write = b.header := by
  cases tag : b.tag <;>
    simp [heading, HeaderSpelling.write, HeaderSpelling.tagged, header, tag, TagSpelling.write]

theorem decl_heading (b : BlockSpelling) :
    b.heading.decl = ⟨b.kind, b.tag.map (·.ident.text)⟩ := by
  cases tag : b.tag <;> simp [heading, HeaderSpelling.decl, tag]

def trailer (b : BlockSpelling) : Text :=
  b.declarator.elim [] (fun d => d.1.val ++ d.2.write) ++ b.gap.val

def source (b : BlockSpelling) (members : Text) : Text :=
  b.header ++ '{' :: (members ++ b.closing.val) ++ '}' :: b.trailer ++ [';']

def decl (b : BlockSpelling) (members : Text) : BlockDecl :=
  ⟨b.kind, b.tag.map (·.ident.text), b.declarator.map (·.2.decl), b.source members⟩

end BlockSpelling

abbrev Spelling := MemberTree BlockSpelling FieldSpelling

namespace Spelling

mutual

def write : Spelling → Text
  | .field f => f.write
  | .block b ms => b.lead.val ++ b.source (writeAll ms)

def writeAll : List Spelling → Text
  | [] => []
  | m :: ms => write m ++ writeAll ms

end

mutual

def statement : Spelling → Statement
  | .field f => .field f.decl
  | .block b ms => .block (b.decl (writeAll ms)) (statementsOf ms)

def statementsOf : List Spelling → List Statement
  | [] => []
  | m :: ms => statement m :: statementsOf ms

end

end Spelling

namespace Declarator

theorem readDims?_append {s : Text} (blank : allBlank s = true) (t : Text) :
    readDims? (s ++ t) = readDims? t := by
  induction s with
  | nil => rfl
  | cons c s ih =>
    simp only [allBlank, List.all_cons, Bool.and_eq_true] at blank
    simp [readDims?, blank.1, ih blank.2]

theorem readDim?_append {inside : Text} (plain : ∀ c ∈ inside, c ≠ '[' ∧ c ≠ ']') (t : Text) :
    readDim? (inside ++ ']' :: t) = (readDims? t).map (inside, ·) := by
  induction inside with
  | nil => simp [readDim?]
  | cons c inside ih =>
    obtain ⟨opens, closes⟩ := plain c List.mem_cons_self
    have rest := ih fun d member => plain d (List.mem_cons_of_mem c member)
    cases h : readDims? t <;> simp [readDim?, opens, closes, rest, h]

theorem readDims?_suffix (dims : List DimSpelling) (tail : Blanks) :
    readDims? (DeclaratorSpelling.suffix dims ++ tail.val) =
      some (dims.map fun dim => collapse dim.inside) := by
  induction dims with
  | nil => simpa [DeclaratorSpelling.suffix, readDims?] using readDims?_append tail.property []
  | cons dim dims ih =>
    have bracket : isBlank '[' = false := by decide
    simp only [DeclaratorSpelling.suffix] at ih
    simp only [DeclaratorSpelling.suffix, List.flatMap_cons, DimSpelling.write, List.append_assoc,
      List.cons_append, List.nil_append, readDims?_append dim.gap.property, readDims?, bracket,
      Bool.false_eq_true, if_false, if_true, readDim?_append dim.plain, ih, Option.map_some,
      List.map_cons]

-- A bracket is not closed at the next one that opens, or at the end.
theorem readDim?_eq_none {inside t : Text} (plain : ∀ c ∈ inside, c ≠ '[' ∧ c ≠ ']')
    (stop : ∀ c ∈ t.head?, c = '[') : readDim? (inside ++ t) = none := by
  induction inside with
  | nil =>
    cases t with
    | nil => rfl
    | cons c t => simp [readDim?, stop c rfl]
  | cons c inside ih =>
    obtain ⟨opens, closes⟩ := plain c List.mem_cons_self
    have rest := ih fun d member => plain d (List.mem_cons_of_mem c member)
    simp [readDim?, opens, closes, rest]

theorem readDim?_eq_some {s dim : Text} {later : List Text}
    (read : readDim? s = some (dim, later)) :
    ∃ t, s = dim ++ ']' :: t ∧ (∀ c ∈ dim, c ≠ '[' ∧ c ≠ ']') ∧ readDims? t = some later := by
  induction s generalizing dim with
  | nil => simp [readDim?] at read
  | cons c s ih =>
    by_cases closes : c = ']'
    · simp only [readDim?, closes, if_true] at read
      obtain ⟨ds, rest, same⟩ := Option.map_eq_some_iff.mp read
      obtain ⟨rfl, rfl⟩ := Prod.mk.inj same
      exact ⟨s, by simp [closes], by simp, rest⟩
    · by_cases opens : c = '['
      · simp [readDim?, opens] at read
      · simp only [readDim?, closes, opens, if_false] at read
        obtain ⟨⟨inner, ds⟩, rest, same⟩ := Option.map_eq_some_iff.mp read
        obtain ⟨rfl, rfl⟩ := Prod.mk.inj same
        obtain ⟨t, rfl, plain, after⟩ := ih rest
        refine ⟨t, rfl, ?_, after⟩
        intro d member
        rcases List.mem_cons.mp member with rfl | member
        · exact ⟨opens, closes⟩
        · exact plain d member

-- The blanks met so far belong to the next dimension, or stand at the end.
theorem readDims?_spelled (n : Nat) (gap : Blanks) {s : Text} {ds : List Text}
    (short : s.length ≤ n) (read : readDims? s = some ds) :
    ∃ (dims : List DimSpelling) (tail : Blanks),
      gap.val ++ s = DeclaratorSpelling.suffix dims ++ tail.val ∧
        ds = dims.map fun dim => collapse dim.inside := by
  induction n generalizing gap s ds with
  | zero =>
    obtain rfl : s = [] := List.length_eq_zero_iff.mp (by omega)
    obtain rfl : [] = ds := by simpa [readDims?] using read
    exact ⟨[], gap, by simp [DeclaratorSpelling.suffix], rfl⟩
  | succ n ih =>
    cases s with
    | nil =>
      obtain rfl : [] = ds := by simpa [readDims?] using read
      exact ⟨[], gap, by simp [DeclaratorSpelling.suffix], rfl⟩
    | cons c s =>
      simp only [List.length_cons] at short
      by_cases blank : isBlank c = true
      · simp only [readDims?, blank, if_true] at read
        have wider : allBlank (gap.val ++ [c]) = true := by
          have := gap.property
          simp_all [allBlank]
        obtain ⟨dims, tail, same, values⟩ := ih ⟨gap.val ++ [c], wider⟩ (by omega) read
        exact ⟨dims, tail, by simpa using same, values⟩
      · by_cases opens : c = '['
        · subst opens
          simp only [readDims?, blank, if_true] at read
          obtain ⟨⟨inside, later⟩, dim, same⟩ := Option.map_eq_some_iff.mp read
          obtain ⟨t, rfl, plain, rest⟩ := readDim?_eq_some dim
          have shorter : t.length ≤ n := by
            simp only [List.length_append, List.length_cons] at short
            omega
          obtain ⟨dims, tail, text, values⟩ := ih ⟨[], rfl⟩ shorter rest
          simp only [List.nil_append] at text
          refine ⟨⟨gap, inside, plain⟩ :: dims, tail, ?_, ?_⟩
          · simp [DeclaratorSpelling.suffix, DimSpelling.write, text]
          · simp [← same, values]
        · simp [readDims?, blank, opens] at read

theorem readDims?_eq_some {s : Text} {ds : List Text} (read : readDims? s = some ds) :
    ∃ (dims : List DimSpelling) (tail : Blanks), s = DeclaratorSpelling.suffix dims ++ tail.val ∧
      ds = dims.map fun dim => collapse dim.inside :=
  readDims?_spelled s.length ⟨[], rfl⟩ (Nat.le_refl _) read

theorem head?_suffix (dims : List DimSpelling) (tail : Blanks) :
    ∀ c ∈ (DeclaratorSpelling.suffix dims ++ tail.val).head?, isIdentChar c = false := by
  have dark (c : Char) := isIdentChar_of_isBlank (c := c)
  cases dims with
  | nil => simpa [DeclaratorSpelling.suffix] using tail.head?_append dark (t := []) (by simp)
  | cons dim dims =>
    simp only [DeclaratorSpelling.suffix, List.flatMap_cons, DimSpelling.write, List.append_assoc,
      List.cons_append]
    apply dim.gap.head?_append dark
    intro c member
    obtain rfl : '[' = c := by simpa using member
    decide

theorem read?_write (d : DeclaratorSpelling) (tail : Blanks) :
    read? (d.write ++ tail.val) = some d.decl := by
  have stop := head?_suffix d.dims tail
  simp only [DeclaratorSpelling.write, Identifier.text, List.cons_append, List.append_assoc, read?,
    d.ident.start, if_true, dropWhile_append_stop d.ident.later stop,
    takeWhile_append_stop d.ident.later stop, readDims?_suffix, Option.map_some,
    DeclaratorSpelling.decl]

theorem read?_eq_some {s : Text} {d : Declarator} (read : read? s = some d) :
    ∃ (w : DeclaratorSpelling) (tail : Blanks), s = w.write ++ tail.val ∧ d = w.decl := by
  cases s with
  | nil => simp [read?] at read
  | cons c s =>
    by_cases start : isIdentStart c = true
    · simp only [read?, start, if_true] at read
      obtain ⟨ds, dims, rfl⟩ := Option.map_eq_some_iff.mp read
      obtain ⟨spelled, tail, text, rfl⟩ := readDims?_eq_some dims
      have later : ∀ c ∈ s.takeWhile isIdentChar, isIdentChar c = true :=
        List.all_eq_true.mp List.all_takeWhile
      refine ⟨⟨⟨c, s.takeWhile isIdentChar, start, later⟩, spelled⟩, tail, ?_, rfl⟩
      rw [DeclaratorSpelling.write, List.append_assoc, ← text]
      simp [Identifier.text]
    · simp [read?, start] at read

-- No dimensions reach over a name: it stands between them, or in a bracket that nothing closes.
theorem readDims?_write (before : Text) (d : DeclaratorSpelling) (tail : Blanks) :
    readDims? (before ++ (d.write ++ tail.val)) = none ∧
      readDim? (before ++ (d.write ++ tail.val)) = none := by
  induction before with
  | nil =>
    have name := isIdentChar_of_isIdentStart _ d.ident.start
    constructor
    · have other : d.ident.first ≠ '[' := fun same => absurd (same ▸ name) (by decide)
      simp [DeclaratorSpelling.write, Identifier.text, readDims?, isBlank_of_isIdentChar name,
        other]
    · have ident : ∀ c ∈ d.ident.text, c ≠ '[' ∧ c ≠ ']' := by
        intro c member
        have char := d.ident.isIdentChar c member
        constructor <;> exact fun same => absurd (same ▸ char) (by decide)
      have blanks (gap : Blanks) : ∀ c ∈ gap.val, c ≠ '[' ∧ c ≠ ']' := by
        intro c member
        have blank := allBlank_iff.mp gap.property c member
        exact ⟨ne_of_isBlank blank (by decide), ne_of_isBlank blank (by decide)⟩
      have both (gap : Blanks) : ∀ c ∈ d.ident.text ++ gap.val, c ≠ '[' ∧ c ≠ ']' := by
        intro c member
        exact (List.mem_append.mp member).elim (ident c) (blanks gap c)
      cases dims : d.dims with
      | nil =>
        simpa [DeclaratorSpelling.write, dims, DeclaratorSpelling.suffix] using
          readDim?_eq_none (both tail) (t := []) (by simp)
      | cons dim dims' =>
        simpa [DeclaratorSpelling.write, dims, DeclaratorSpelling.suffix, DimSpelling.write] using
          readDim?_eq_none (both dim.gap)
            (t := '[' :: (dim.inside ++ ']' :: (DeclaratorSpelling.suffix dims' ++ tail.val)))
            (by simp)
  | cons c before ih =>
    obtain ⟨outside, inside⟩ := ih
    simp [readDims?, readDim?, outside, inside]

/-- Whether a word character is the last of the text, or stands before it if it is empty. -/
def endsInWord (afterWord : Bool) (s : Text) : Bool := s.getLast?.elim afterWord isWordChar

@[simp] theorem endsInWord_cons (afterWord : Bool) (c : Char) (s : Text) :
    endsInWord afterWord (c :: s) = endsInWord (isWordChar c) s := by
  cases last : s.getLast? <;> simp [endsInWord, List.getLast?_cons, last]

-- No declarator starts before the name, where a word boundary sets the two apart.
theorem read?_eq_none {c : Char} {s : Text} (apart : endsInWord (isWordChar c) s = false)
    (d : DeclaratorSpelling) (tail : Blanks) : read? (c :: s ++ (d.write ++ tail.val)) = none := by
  by_cases start : isIdentStart c = true
  · obtain ⟨x, rest, split⟩ : ∃ x rest, s.dropWhile isIdentChar = x :: rest := by
      cases h : s.dropWhile isIdentChar with
      | cons x rest => exact ⟨x, rest, rfl⟩
      | nil =>
        have idents := List.dropWhile_eq_nil_iff.mp h
        cases last : s.getLast? with
        | none =>
          have word := isWordChar_of_isIdentChar (isIdentChar_of_isIdentStart c start)
          simp [endsInWord, last, word] at apart
        | some d =>
          have word := isWordChar_of_isIdentChar (idents d (List.mem_of_getLast? last))
          simp [endsInWord, last, word] at apart
    have dropped : (s ++ (d.write ++ tail.val)).dropWhile isIdentChar =
        x :: rest ++ (d.write ++ tail.val) := by
      rw [List.dropWhile_append, split]
      rfl
    rw [List.cons_append, read?, if_pos start, dropped, (readDims?_write _ d tail).1,
      Option.map_none]
  · simp [read?, start]

theorem find?_write {s : Text} {afterWord : Bool} (apart : endsInWord afterWord s = false)
    (d : DeclaratorSpelling) (tail : Blanks) :
    find? afterWord (s ++ (d.write ++ tail.val)) = some (s, d.decl) := by
  induction s generalizing afterWord with
  | nil =>
    have whole := read?_write d tail
    obtain rfl : afterWord = false := apart
    simp only [DeclaratorSpelling.write, Identifier.text, List.cons_append, List.append_assoc,
      List.nil_append] at whole ⊢
    simp [find?, whole]
  | cons c s ih =>
    rw [endsInWord_cons] at apart
    have outside := read?_eq_none apart d tail
    rw [List.cons_append] at outside ⊢
    simp [find?, outside, ih apart]

theorem find?_eq_some {s before : Text} {afterWord : Bool} {d : Declarator}
    (found : find? afterWord s = some (before, d)) :
    ∃ (w : DeclaratorSpelling) (tail : Blanks), s = before ++ w.write ++ tail.val ∧ d = w.decl ∧
      endsInWord afterWord before = false := by
  induction s generalizing afterWord before with
  | nil => simp [find?] at found
  | cons c s ih =>
    simp only [find?] at found
    split at found
    · rename_i e here
      obtain ⟨rfl, rfl⟩ := Prod.mk.inj (Option.some.inj found)
      cases afterWord with
      | true => simp at here
      | false =>
        rw [if_neg Bool.false_ne_true] at here
        obtain ⟨w, tail, text, same⟩ := read?_eq_some here
        exact ⟨w, tail, by simpa using text, same, rfl⟩
    · obtain ⟨⟨start, e⟩, later, same⟩ := Option.map_eq_some_iff.mp found
      obtain ⟨rfl, rfl⟩ := Prod.mk.inj same
      obtain ⟨w, tail, text, same, apart⟩ := ih later
      exact ⟨w, tail, by simp [text], same, by simpa using apart⟩

end Declarator

namespace DeclaratorSpelling

theorem write_ne_nil (d : DeclaratorSpelling) : d.write ≠ [] := by
  simp [write, Identifier.text]

theorem text_decl (d : DeclaratorSpelling) : d.decl.text = squash d.write := by
  have dim (t : DimSpelling) : '[' :: squash (collapse t.inside) ++ [']'] = squash t.write := by
    have gap : squash t.gap.val = [] := by simpa [squash, allBlank] using t.gap.property
    have opens : squash ['['] = ['['] := by decide
    have closes : squash [']'] = [']'] := by decide
    rw [DimSpelling.write, ← List.singleton_append (l := t.inside), squash_append, squash_append,
      squash_append, gap, opens, closes, squash_collapse]
    rfl
  have dims : Declarator.suffix (d.dims.map fun t => collapse t.inside) =
      squash (suffix d.dims) := by
    induction d.dims with
    | nil => rfl
    | cons t ts ih =>
      rw [suffix, List.flatMap_cons, squash_append, ← dim, ← suffix, ← ih]
      rfl
  have ident : squash d.ident.text = d.ident.text := by
    apply squash_of_dark
    intro c member
    exact isBlank_of_isIdentChar (d.ident.isIdentChar c member)
  rw [write, squash_append, ident, ← dims]
  rfl

theorem getLast?_write (d : DeclaratorSpelling) :
    ∀ c ∈ d.write.getLast?, isBlank c = false := by
  rcases List.eq_nil_or_concat d.dims with plain | ⟨init, last, dims⟩
  · intro c last
    have member : c ∈ d.ident.text := by
      simpa [write, plain, suffix] using List.mem_of_mem_getLast? last
    exact isBlank_of_isIdentChar (d.ident.isIdentChar c member)
  · rw [write, dims, suffix, List.concat_eq_append, List.flatMap_append]
    simp only [List.flatMap_cons, List.flatMap_nil, DimSpelling.write, List.append_nil,
      ← List.append_assoc, List.getLast?_concat]
    rintro _ ⟨⟩
    decide

end DeclaratorSpelling

namespace FieldSpelling

theorem apart (f : FieldSpelling) : Declarator.endsInWord false f.type = false := by
  cases last : f.type.getLast? with
  | none => simp [Declarator.endsInWord, last]
  | some c =>
    have other : isWordChar c = false := (f.boundary c last).elim isWordChar_of_isBlank id
    simp [Declarator.endsInWord, last, other]

end FieldSpelling

namespace FieldDecl

theorem trim_write {type : Text} (named : allBlank type = false) (d : DeclaratorSpelling)
    (tail : Blanks) : trim (type ++ d.write ++ tail.val) = trimStart type ++ d.write := by
  obtain ⟨init, last, concat⟩ : ∃ init last, d.write = init ++ [last] :=
    ⟨_, _, (List.dropLast_concat_getLast d.write_ne_nil).symm⟩
  have ends := d.getLast?_write
  rw [concat] at ends
  rw [trim_append_right _ tail.property, trim, trimStart_append_right named, concat,
    ← List.append_assoc]
  exact trimEnd_concat _ (ends last (by simp))

theorem read?_write {type : Text} (named : allBlank type = false)
    (apart : Declarator.endsInWord false type = false) (d : DeclaratorSpelling) (tail : Blanks) :
    read? (type ++ d.write ++ tail.val) = some ⟨collapse type, d.decl⟩ := by
  have apart' : Declarator.endsInWord false (trimStart type) = false := by
    rwa [Declarator.endsInWord, getLast?_trimStart named]
  have found := Declarator.find?_write apart' d ⟨[], rfl⟩
  rw [List.append_nil] at found
  rw [read?, trim_write named, found]
  simp [collapse_congr (words_trimStart type), collapse_ne_nil named]

theorem read?_statement (f : FieldSpelling) : read? f.statement = some f.decl :=
  read?_write f.named f.apart f.declarator f.gap

theorem read?_eq_some {s : Text} {f : FieldDecl} (read : read? s = some f) :
    ∃ (type : Text) (w : DeclaratorSpelling) (tail : Blanks), s = type ++ w.write ++ tail.val ∧
      allBlank type = false ∧ Declarator.endsInWord false type = false ∧
        f = ⟨collapse type, w.decl⟩ := by
  cases found : Declarator.find? false (trim s) with
  | none => simp [read?, found] at read
  | some result =>
    obtain ⟨before, d⟩ := result
    obtain ⟨w, tail, text, rfl, apart⟩ := Declarator.find?_eq_some found
    by_cases empty : collapse before = []
    · simp [read?, found, empty] at read
    · simp only [read?, found, List.isEmpty_iff, empty, if_false, Option.some.injEq] at read
      obtain ⟨lead, rear, blank, blank', whole⟩ := exists_trim s
      have named : allBlank before = false := by
        rw [Bool.eq_false_iff]
        intro blank
        exact empty (by rw [collapse, words_eq_nil blank]; rfl)
      have nonempty : before ≠ [] := by
        rintro rfl
        exact empty rfl
      refine ⟨lead ++ before, w, ⟨tail.val ++ rear, ?_⟩, ?_, ?_, ?_, ?_⟩
      · simpa [allBlank] using And.intro (by simpa [allBlank] using tail.property)
          (by simpa [allBlank] using blank')
      · rw [whole, text]
        simp
      · simp only [allBlank, List.all_append] at named ⊢
        simp [named]
      · rwa [Declarator.endsInWord, List.getLast?_append_of_ne_nil _ nonempty]
      · rw [← read, collapse_congr (words_append_left blank before)]

end FieldDecl

end MemberOffsets
