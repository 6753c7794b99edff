import MemberOffsets.Proofs.Declaration.Origin

set_option autoImplicit false

namespace MemberOffsets

open Text

structure Declarator.Plain (d : Declarator) : Prop where
  ident : ∃ i : Identifier, d.ident = i.text
  free : ∀ dim ∈ d.dims, CommentFree dim
  dark : ∀ dim ∈ d.dims, ∀ c ∈ dim, isBlank c = false
  plain : ∀ dim ∈ d.dims, ∀ c ∈ dim, isMark c = false ∧ c ≠ '[' ∧ c ≠ ']'

structure FieldDecl.Plain (f : FieldDecl) : Prop where
  named : f.type ≠ []
  collapsed : collapse f.type = f.type
  free : CommentFree f.type
  plain : ∀ c ∈ f.type, isMark c = false ∧ c ≠ '[' ∧ c ≠ ']'
  declarator : f.declarator.Plain

structure BlockDecl.Plain (b : BlockDecl) : Prop where
  tag : ∀ t ∈ b.tag, ∃ i : Identifier, t = i.text
  declarator : ∀ d ∈ b.declarator, d.Plain

structure Plain (ms : List Statement) : Prop where
  fields : ∀ f ∈ MemberTree.leavesOf ms, f.Plain
  blocks : ∀ b ∈ MemberTree.blocksOf ms, b.Plain

def dimsOf (ms : List Statement) : List Text :=
  (MemberTree.leavesOf ms).flatMap FieldDecl.dims ++ (MemberTree.blocksOf ms).flatMap BlockDecl.dims

section Found

variable {text : Text} (free : CommentFree text)

include free

theorem Declarator.From.plain {d : Declarator} (origin : d.From text)
    (dark : ∀ dim ∈ d.dims, ∀ c ∈ dim, isBlank c = false ∧ c ≠ '{' ∧ c ≠ '}') : d.Plain := by
  obtain ⟨w, part, single, rfl⟩ := origin
  have inside (dim : Text) (among : dim ∈ w.decl.dims) : ∃ t ∈ w.dims,
      dim = collapse t.inside ∧ t.inside <:+: w.write := by
    obtain ⟨t, here, rfl⟩ := List.mem_map.mp among
    obtain ⟨before, after, split⟩ := List.append_of_mem here
    refine ⟨t, here, rfl, w.ident.text ++ DeclaratorSpelling.suffix before ++ t.gap.val ++ ['['],
      [']'] ++ DeclaratorSpelling.suffix after, ?_⟩
    simp [DeclaratorSpelling.write, split, DeclaratorSpelling.suffix, DimSpelling.write]
  refine ⟨⟨w.ident, rfl⟩, ?_, fun dim among c member => (dark dim among c member).1, ?_⟩
  · intro dim among
    obtain ⟨t, -, rfl, within⟩ := inside dim among
    exact (free.part (within.trans part)).collapse
  · intro dim among c member
    obtain ⟨blank, opens, closes⟩ := dark dim among c member
    obtain ⟨t, here, rfl, within⟩ := inside dim among
    rcases mem_collapse member with rfl | ⟨kept, -⟩
    · exact absurd blank (by decide)
    · have semicolon : c ≠ ';' := fun same => single (same ▸ within.subset kept)
      exact ⟨by simp [isMark, semicolon, opens, closes], t.plain c kept⟩

theorem FieldDecl.From.plain {f : FieldDecl} (origin : f.From text)
    (type : ∀ c ∈ f.type, c ∉ ['{', '}', '[', ']'])
    (dark : ∀ dim ∈ f.dims, ∀ c ∈ dim, isBlank c = false ∧ c ≠ '{' ∧ c ≠ '}') : f.Plain := by
  obtain ⟨⟨s, part, single, nonempty, same⟩, declarator⟩ := origin
  refine ⟨by rwa [same], by rw [same, collapse_collapse], ?_, ?_, declarator.plain free dark⟩
  · rw [same]
    exact (free.part part).collapse
  · intro c member
    have brackets := type c member
    simp only [List.mem_cons, List.not_mem_nil, or_false, not_or] at brackets
    have semicolon : c ≠ ';' := by
      rintro rfl
      rcases mem_collapse (same ▸ member) with space | ⟨kept, -⟩
      · exact absurd space (by decide)
      · exact single kept
    exact ⟨by simp [isMark, semicolon, brackets], brackets.2.2⟩

theorem BlockDecl.From.plain {b : BlockDecl} (origin : b.From text)
    (dark : ∀ dim ∈ b.dims, ∀ c ∈ dim, isBlank c = false ∧ c ≠ '{' ∧ c ≠ '}') : b.Plain := by
  refine ⟨origin.tag, ?_⟩
  intro d among
  apply (origin.declarator d among).plain free
  simpa [BlockDecl.dims, Option.mem_def.mp among] using dark

theorem plain_of_statements {ms : List Statement} (read : statements text = .ok ms)
    (types : ∀ f ∈ MemberTree.leavesOf ms, ∀ c ∈ f.type, c ∉ ['{', '}', '[', ']'])
    (dark : ∀ dim ∈ dimsOf ms, ∀ c ∈ dim, isBlank c = false ∧ c ≠ '{' ∧ c ≠ '}') : Plain ms := by
  obtain ⟨fields, blocks⟩ := statements_from read
  constructor
  · intro f among
    apply (fields f among).plain free (types f among)
    intro dim here
    exact dark dim (List.mem_append_left _ (List.mem_flatMap.mpr ⟨f, among, here⟩))
  · intro b among
    apply (blocks b among).plain free
    intro dim here
    exact dark dim (List.mem_append_right _ (List.mem_flatMap.mpr ⟨b, among, here⟩))

end Found

def FieldDecl.code (f : FieldDecl) : Text := f.type ++ ' ' :: f.name ++ [';']

def BlockDecl.openingCode (b : BlockDecl) : Text :=
  b.kind.keyword ++ b.tag.elim [] (' ' :: ·) ++ [' ', '{']

def BlockDecl.closingCode (b : BlockDecl) : Text := '}' :: b.name.elim [] (' ' :: ·) ++ [';']

mutual

def code : Statement → List Text
  | .field f => [f.code]
  | .block b ms => b.openingCode :: codeAll ms ++ [b.closingCode]

def codeAll : List Statement → List Text
  | [] => []
  | m :: ms => code m ++ codeAll ms

end

namespace Declarator

theorem suffix_cons {dim : Text} (dark : ∀ c ∈ dim, isBlank c = false) (dims : List Text) :
    suffix (dim :: dims) = '[' :: dim ++ ']' :: suffix dims := by
  simp [suffix, squash_of_dark dark]

namespace Plain

variable {d : Declarator}

theorem mem_text (plain : d.Plain) : ∀ c ∈ d.text, isMark c = false ∧ isBlank c = false := by
  obtain ⟨ident, dims⟩ := d
  obtain ⟨⟨i, rfl⟩, -, -, marks⟩ := plain
  intro c member
  rcases List.mem_append.mp member with ident | suffix
  · have ident := i.isIdentChar c ident
    exact ⟨isMark_of_isIdentChar ident, isBlank_of_isIdentChar ident⟩
  · obtain ⟨dim, among, inside⟩ := List.mem_flatMap.mp suffix
    simp only [List.cons_append, List.mem_cons, List.mem_append, mem_squash, List.not_mem_nil,
      or_false] at inside
    rcases inside with rfl | ⟨here, dark⟩ | rfl
    · decide
    · exact ⟨(marks dim among c here).1, dark⟩
    · decide

theorem spelled (plain : d.Plain) : ∃ w : DeclaratorSpelling, w.write = d.text ∧ w.decl = d := by
  obtain ⟨ident, dims⟩ := d
  obtain ⟨⟨i, rfl⟩, -, dark, marks⟩ := plain
  have suffixed : ∃ ws : List DimSpelling, DeclaratorSpelling.suffix ws = suffix dims ∧
      (ws.map fun w => collapse w.inside) = dims := by
    induction dims with
    | nil => exact ⟨[], rfl, rfl⟩
    | cons dim dims ih =>
      obtain ⟨ws, written, same⟩ := ih
        (fun d member => dark d (List.mem_cons_of_mem dim member))
        (fun d member => marks d (List.mem_cons_of_mem dim member))
      have here := dark dim List.mem_cons_self
      have plain := marks dim List.mem_cons_self
      refine ⟨⟨⟨[], rfl⟩, dim, fun c member => (plain c member).2⟩ :: ws, ?_, ?_⟩
      · rw [suffix_cons here, ← written]
        simp [DeclaratorSpelling.suffix, DimSpelling.write]
      · simp [collapse_of_dark here, same]
  obtain ⟨ws, written, same⟩ := suffixed
  refine ⟨⟨i, ws⟩, ?_, ?_⟩
  · rw [DeclaratorSpelling.write, written]
    rfl
  · rw [DeclaratorSpelling.decl, same]

theorem commentFree (plain : d.Plain) : CommentFree d.text := by
  obtain ⟨ident, dims⟩ := d
  obtain ⟨⟨i, rfl⟩, free, dark, -⟩ := plain
  have ident : CommentFree i.text := by
    apply CommentFree.of_slashless
    intro member
    exact absurd (i.isIdentChar '/' member) (by decide)
  have suffixed : CommentFree (suffix dims) ∧ ∀ c ∈ (suffix dims).head?, c = '[' := by
    induction dims with
    | nil => exact ⟨.nil, by simp [suffix]⟩
    | cons dim dims ih =>
      obtain ⟨rest, first⟩ := ih
        (fun d member => free d (List.mem_cons_of_mem dim member))
        (fun d member => dark d (List.mem_cons_of_mem dim member))
      rw [suffix_cons (dark dim List.mem_cons_self)]
      refine ⟨?_, by simp⟩
      have closed : CommentFree (']' :: suffix dims) := rest.cons (by decide)
      have inner := (free dim List.mem_cons_self).append closed (fun _ => by simp)
      exact inner.cons (by decide)
  apply ident.append suffixed.1
  intro _ c first
  rw [suffixed.2 c first]
  decide

end Plain

end Declarator

namespace FieldDecl.Plain

variable {f : FieldDecl}

theorem spelled (plain : f.Plain) :
    ∃ w : FieldSpelling, w.write = '\n' :: f.code ∧ w.decl = f := by
  obtain ⟨w, written, same⟩ := plain.declarator.spelled
  have words : words ('\n' :: f.type ++ [' ']) = words f.type := by
    rw [words_append_right _ (by decide), words_blank _ _ (by decide)]
  have named : allBlank ('\n' :: f.type ++ [' ']) = false := by
    rw [Bool.eq_false_iff]
    intro blank
    apply plain.named
    rw [← plain.collapsed, collapse, ← words, words_eq_nil blank]
    rfl
  have marks : ∀ c ∈ '\n' :: f.type ++ [' '], isMark c = false ∧ c ≠ '[' ∧ c ≠ ']' := by
    intro c member
    simp only [List.cons_append, List.mem_cons, List.mem_append, List.not_mem_nil, or_false]
      at member
    rcases member with rfl | type | rfl
    · decide
    · exact plain.plain c type
    · decide
  have boundary : ∀ c ∈ ('\n' :: f.type ++ [' ']).getLast?,
      isBlank c = true ∨ isWordChar c = false := by
    rw [List.getLast?_concat]
    rintro _ ⟨⟩
    exact .inl (by decide)
  have name : ∀ c ∈ w.write, isMark c = false := by
    intro c member
    exact (plain.declarator.mem_text c (written ▸ member)).1
  refine ⟨⟨'\n' :: f.type ++ [' '], w, ⟨[], rfl⟩, named, marks, boundary, name⟩, ?_, ?_⟩
  · simp [FieldSpelling.write, FieldSpelling.statement, code, FieldDecl.name, written]
  · rw [FieldSpelling.decl, collapse_congr words, plain.collapsed, same]

end FieldDecl.Plain

def BlockDecl.sourceless (b : BlockDecl) : BlockDecl := { b with source := [] }

namespace BlockDecl.Plain

variable {b : BlockDecl}

theorem tag_spelled (plain : b.Plain) : ∃ tag : Option TagSpelling,
    tag.elim [] TagSpelling.write = b.tag.elim [] (' ' :: ·) ∧
      tag.map (·.ident.text) = b.tag := by
  cases tag : b.tag with
  | none => exact ⟨none, rfl, rfl⟩
  | some t =>
    obtain ⟨i, rfl⟩ := plain.tag t tag
    exact ⟨some ⟨⟨[' '], by decide⟩, i, by simp⟩, rfl, rfl⟩

theorem declarator_spelled (plain : b.Plain) : ∃ declarator : Option (Blanks × DeclaratorSpelling),
    declarator.elim [] (fun d => d.1.val ++ d.2.write) = b.name.elim [] (' ' :: ·) ∧
      declarator.map (·.2.decl) = b.declarator ∧
        ∀ d ∈ declarator, ∀ c ∈ d.2.write, isMark c = false := by
  cases declarator : b.declarator with
  | none => exact ⟨none, by simp [BlockDecl.name, declarator], rfl, by simp⟩
  | some d =>
    have here := plain.declarator d declarator
    obtain ⟨w, written, same⟩ := here.spelled
    refine ⟨some (⟨[' '], by decide⟩, w), ?_, by simp [same], ?_⟩
    · simp [BlockDecl.name, declarator, written]
    · rintro _ ⟨⟩ c member
      exact (here.mem_text c (written ▸ member)).1

theorem spelled (plain : b.Plain) : ∃ w : BlockSpelling,
    (∀ members, w.lead.val ++ w.source members =
      '\n' :: b.openingCode ++ members ++ '\n' :: b.closingCode) ∧
    ∀ members, (w.decl members).sourceless = b.sourceless := by
  obtain ⟨tag, tagWritten, tagSame⟩ := plain.tag_spelled
  obtain ⟨declarator, written, same, marks⟩ := plain.declarator_spelled
  refine ⟨⟨⟨['\n'], by decide⟩, b.kind, tag, ⟨[' '], by decide⟩, ⟨['\n'], by decide⟩, declarator,
    ⟨[], rfl⟩, marks⟩, ?_, ?_⟩
  · intro members
    simp [BlockSpelling.source, BlockSpelling.header, BlockSpelling.trailer, openingCode,
      closingCode, tagWritten, written]
  · intro members
    simp [BlockSpelling.decl, BlockDecl.sourceless, tagSame, same]

end BlockDecl.Plain

namespace Plain

theorem field {f : FieldDecl} {ms : List Statement} (plain : Plain (.field f :: ms)) :
    f.Plain ∧ Plain ms := by
  obtain ⟨fields, blocks⟩ := plain
  constructor
  · exact fields f (by simp [MemberTree.leavesOf, MemberTree.leaves])
  · exact ⟨fun g among => fields g (List.mem_append_right _ among),
      fun b among => blocks b (List.mem_append_right _ among)⟩

theorem block {b : BlockDecl} {inner ms : List Statement} (plain : Plain (.block b inner :: ms)) :
    b.Plain ∧ Plain inner ∧ Plain ms := by
  obtain ⟨fields, blocks⟩ := plain
  refine ⟨blocks b (by simp [MemberTree.blocksOf, MemberTree.blocks]), ?_, ?_⟩
  · exact ⟨fun g among => fields g (List.mem_append_left _ among),
      fun c among => blocks c (List.mem_append_left _ (List.mem_cons_of_mem b among))⟩
  · exact ⟨fun g among => fields g (List.mem_append_right _ among),
      fun c among => blocks c (List.mem_append_right _ among)⟩

-- The spelling keeps everything but the sources of the blocks.
theorem spelled {ms : List Statement} (plain : Plain ms) : ∃ ws : List Spelling,
    Spelling.writeAll ws = (codeAll ms).flatMap ('\n' :: ·) ∧
      MemberTree.mapAll BlockDecl.sourceless id (Spelling.statementsOf ws) =
        MemberTree.mapAll BlockDecl.sourceless id ms := by
  induction ms using MemberTree.members_induction with
  | nil => exact ⟨[], rfl, rfl⟩
  | field f ms ih =>
    obtain ⟨here, rest⟩ := plain.field
    obtain ⟨w, written, same⟩ := here.spelled
    obtain ⟨ws, later, statements⟩ := ih rest
    refine ⟨.field w :: ws, ?_, ?_⟩
    · simp [Spelling.writeAll, Spelling.write, written, later, codeAll, code]
    · simp [Spelling.statementsOf, Spelling.statement, same, statements]
  | block b inner ms ihInner ih =>
    obtain ⟨here, members, rest⟩ := plain.block
    obtain ⟨w, written, same⟩ := here.spelled
    obtain ⟨us, inside, innerStatements⟩ := ihInner members
    obtain ⟨ws, later, statements⟩ := ih rest
    refine ⟨.block w us :: ws, ?_, ?_⟩
    · simp [Spelling.writeAll, Spelling.write, written, inside, later, codeAll, code]
    · simp [Spelling.statementsOf, Spelling.statement, innerStatements, statements, same]

end Plain

structure CodeLine (s : Text) : Prop where
  nonempty : s ≠ []
  first : ∀ c ∈ s.head?, isBlank c = false
  last : ∀ c ∈ s.getLast?, isBlank c = false
  spaced : ∀ c ∈ s, isBlank c = true → c = ' '
  free : CommentFree s

namespace CodeLine

variable {s t : Text}

theorem collapse (free : CommentFree s) (nonempty : collapse s ≠ []) : CodeLine (collapse s) := by
  refine ⟨nonempty, (collapse_dark s).1, (collapse_dark s).2, ?_, free.collapse⟩
  intro c member blank
  rcases mem_collapse member with space | ⟨-, dark⟩
  · exact space
  · rw [dark] at blank
    contradiction

theorem of_dark (nonempty : s ≠ []) (dark : ∀ c ∈ s, isBlank c = false) (free : CommentFree s) :
    CodeLine s := by
  refine ⟨nonempty, ?_, ?_, ?_, free⟩
  · intro c first
    exact dark c (List.mem_of_mem_head? first)
  · intro c last
    exact dark c (List.mem_of_mem_getLast? last)
  · intro c member blank
    rw [dark c member] at blank
    contradiction

theorem append (left : CodeLine s) (right : CodeLine t) : CodeLine (s ++ ' ' :: t) := by
  refine ⟨by simp, ?_, ?_, ?_, ?_⟩
  · intro c first
    obtain ⟨d, r, rfl⟩ := List.exists_cons_of_ne_nil left.nonempty
    exact left.first c (by simpa using first)
  · intro c last
    rw [List.getLast?_append_of_ne_nil _ (by simp), List.getLast?_cons_of_ne_nil right.nonempty]
      at last
    exact right.last c last
  · intro c member blank
    rcases List.mem_append.mp member with before | after
    · exact left.spaced c before blank
    · rcases List.mem_cons.mp after with space | after
      · exact space
      · exact right.spaced c after blank
  · have spaced : CommentFree (' ' :: t) := right.free.cons (by decide)
    exact left.free.append spaced (fun _ => by simp)

theorem semicolon (dark : ∀ c ∈ s, isBlank c = false) (free : CommentFree s) :
    CodeLine (s ++ [';']) := by
  apply of_dark (by simp)
  · intro c member
    rcases List.mem_append.mp member with before | after
    · exact dark c before
    · rw [List.mem_singleton.mp after]
      decide
  · have single : CommentFree [';'] := .of_slashless (by decide)
    exact free.append single (fun _ => by simp)

end CodeLine

theorem Declarator.Plain.codeLine {d : Declarator} (plain : d.Plain) : CodeLine (d.text ++ [';']) :=
  .semicolon (fun c member => (plain.mem_text c member).2) plain.commentFree

theorem FieldDecl.Plain.codeLine {f : FieldDecl} (plain : f.Plain) : CodeLine f.code := by
  have type : CodeLine f.type := by
    have named := plain.named
    rw [← plain.collapsed] at named ⊢
    exact .collapse plain.free named
  have whole := type.append plain.declarator.codeLine
  simpa [code, FieldDecl.name] using whole

namespace BlockDecl.Plain

variable {b : BlockDecl}

theorem openingLine (plain : b.Plain) : CodeLine b.openingCode := by
  have word (i : Text) (nonempty : i ≠ []) (ident : ∀ c ∈ i, isIdentChar c = true) :
      CodeLine i := by
    apply CodeLine.of_dark nonempty
    · exact fun c member => isBlank_of_isIdentChar (ident c member)
    · apply CommentFree.of_slashless
      intro member
      exact absurd (ident '/' member) (by decide)
  have keyword := word b.kind.keyword (by cases b.kind <;> decide) b.kind.isIdentChar_keyword
  have brace : CodeLine ['{'] := .of_dark (by simp) (by simp; decide) (.of_slashless (by decide))
  cases tag : b.tag with
  | none => simpa [openingCode, tag] using keyword.append brace
  | some t =>
    obtain ⟨i, rfl⟩ := plain.tag t tag
    have tagged := word i.text (by simp [Identifier.text]) i.isIdentChar
    simpa [openingCode, tag] using (keyword.append tagged).append brace

theorem closingLine (plain : b.Plain) : CodeLine b.closingCode := by
  have brace : CodeLine ['}'] := .of_dark (by simp) (by simp; decide) (.of_slashless (by decide))
  cases declarator : b.declarator with
  | none =>
    have closed : CodeLine (['}'] ++ [';']) :=
      .semicolon (by simp; decide) (.of_slashless (by decide))
    simpa [closingCode, BlockDecl.name, declarator] using closed
  | some d =>
    have whole := brace.append (plain.declarator d declarator).codeLine
    simpa [closingCode, BlockDecl.name, declarator] using whole

end BlockDecl.Plain

theorem Plain.codeLines {ms : List Statement} (plain : Plain ms) :
    ∀ s ∈ codeAll ms, CodeLine s := by
  induction ms using MemberTree.members_induction with
  | nil => simp [codeAll]
  | field f ms ih =>
    obtain ⟨here, rest⟩ := plain.field
    simpa [codeAll, code] using ⟨here.codeLine, ih rest⟩
  | block b inner ms ihInner ih =>
    obtain ⟨here, members, rest⟩ := plain.block
    intro s member
    simp only [codeAll, code, List.cons_append, List.append_assoc, List.mem_cons, List.mem_append,
      List.not_mem_nil, false_or] at member
    rcases member with rfl | inside | rfl | later
    · exact here.openingLine
    · exact ihInner members s inside
    · exact here.closingLine
    · exact ih rest s later

end MemberOffsets
