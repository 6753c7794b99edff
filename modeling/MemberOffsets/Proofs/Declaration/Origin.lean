import MemberOffsets.Proofs.Declaration.Comments
import MemberOffsets.Proofs.Declaration.Segmentation

set_option autoImplicit false

namespace MemberOffsets

open Text

def Declarator.From (text : Text) (d : Declarator) : Prop :=
  ∃ w : DeclaratorSpelling, w.write <:+: text ∧ ';' ∉ w.write ∧ d = w.decl

structure FieldDecl.From (text : Text) (f : FieldDecl) : Prop where
  type : ∃ s, s <:+: text ∧ ';' ∉ s ∧ collapse s ≠ [] ∧ f.type = collapse s
  declarator : f.declarator.From text

structure BlockDecl.From (text : Text) (b : BlockDecl) : Prop where
  tag : ∀ t ∈ b.tag, ∃ i : Identifier, t = i.text
  declarator : ∀ d ∈ b.declarator, d.From text

section Parts

variable {s t : Text} (inside : s <:+: t)

include inside

theorem Declarator.From.within {d : Declarator} (origin : d.From s) : d.From t := by
  obtain ⟨w, part, single, same⟩ := origin
  exact ⟨w, part.trans inside, single, same⟩

theorem FieldDecl.From.within {f : FieldDecl} (origin : f.From s) : f.From t := by
  obtain ⟨⟨type, part, single, nonempty, same⟩, declarator⟩ := origin
  exact ⟨⟨type, part.trans inside, single, nonempty, same⟩, declarator.within inside⟩

theorem BlockDecl.From.within {b : BlockDecl} (origin : b.From s) : b.From t :=
  ⟨origin.tag, fun d among => (origin.declarator d among).within inside⟩

end Parts

theorem FieldDecl.from_of_read? {text : Text} {f : FieldDecl} (single : ';' ∉ text)
    (read : read? text = some f) : f.From text := by
  obtain ⟨type, w, tail, spelled, named, -, rfl⟩ := read?_eq_some read
  have before : type <:+: text := ⟨[], w.write ++ tail.val, by simp [spelled]⟩
  have name : w.write <:+: text := ⟨type, tail.val, by simp [spelled]⟩
  constructor
  · exact ⟨type, before, fun member => single (before.subset member), collapse_ne_nil named, rfl⟩
  · exact ⟨w, name, fun member => single (name.subset member), rfl⟩

theorem dropAttributes?_part {inside : Bool} {s r : Text}
    (dropped : dropAttributes? inside s = some r) : r <:+ s := by
  fun_induction dropAttributes? inside s with
  | case1 => simp_all
  | case2 => simp at dropped
  | case3 s ih => exact (ih dropped).trans ⟨['[', '['], rfl⟩
  | case4 c s hc hb ih => exact (ih dropped).trans (List.suffix_cons c s)
  | case5 c s hc hb => simp_all
  | case6 s ih => exact (ih dropped).trans ⟨[']', ']'], rfl⟩
  | case7 => simp at dropped
  | case8 c s hc hb ih => exact (ih dropped).trans (List.suffix_cons c s)

namespace BlockHeader

theorem splitTag_part (s : Text) :
    (splitTag s).2 <:+ s ∧ ∀ t ∈ (splitTag s).1, ∃ i : Identifier, t = i.text := by
  cases s with
  | nil => simp [splitTag]
  | cons c r =>
    by_cases start : isIdentStart c = true
    · simp only [splitTag, start, if_true]
      constructor
      · exact (List.dropWhile_suffix isIdentChar).trans (List.suffix_cons c r)
      · intro t same
        obtain rfl : c :: r.takeWhile isIdentChar = t := by simpa using same
        have later : ∀ d ∈ r.takeWhile isIdentChar, isIdentChar d = true :=
          List.all_eq_true.mp List.all_takeWhile
        exact ⟨⟨c, r.takeWhile isIdentChar, start, later⟩, rfl⟩
    · simp [splitTag, start]

theorem read?_part {s t : Text} {header : BlockHeader} (read : read? s = some (header, t)) :
    '{' :: t <:+ s ∧ ∀ tag ∈ header.tag, ∃ i : Identifier, tag = i.text := by
  simp only [read?, Option.bind_eq_bind, Option.bind_eq_some_iff] at read
  obtain ⟨⟨kind, s₁⟩, keyword, read⟩ := read
  split at read
  · simp at read
  · obtain ⟨s₂, attributes, read⟩ := Option.bind_eq_some_iff.mp read
    obtain ⟨part, tag⟩ := splitTag_part s₂
    split at read
    · rename_i brace
      simp only [Option.some.injEq, Prod.mk.injEq] at read
      obtain ⟨rfl, rest⟩ := read
      rw [rest] at brace
      refine ⟨?_, tag⟩
      rw [← brace, append_of_keyword? keyword]
      exact ((List.dropWhile_suffix isBlank).trans part).trans
        ((dropAttributes?_part attributes).trans (List.suffix_append _ s₁))
    · simp at read

end BlockHeader

namespace BlockTail

theorem read_part (after : Text) :
    (read after).rest <:+ after ∧ ∀ d ∈ (read after).declarator, d.From after := by
  have behind : (cutAt ';' after).2 <:+ after :=
    (List.tail_suffix _).trans (List.dropWhile_suffix _)
  have before : (cutAt ';' after).1 <+: after := List.takeWhile_prefix _
  simp only [read]
  split
  · exact ⟨behind, by simp⟩
  · split
    · rename_i d declarator
      refine ⟨behind, ?_⟩
      rintro _ ⟨⟩
      obtain ⟨w, tail, spelled, rfl⟩ := Declarator.read?_eq_some declarator
      have part : w.write <:+: (cutAt ';' after).1 :=
        List.IsInfix.trans ⟨[], tail.val, by simp [spelled]⟩ (trim_part _)
      have single : ';' ∉ w.write := fun member => not_mem_cutAt ';' after (part.subset member)
      exact ⟨w, part.trans before.isInfix, single, rfl⟩
    · exact ⟨List.suffix_refl after, by simp⟩

end BlockTail

theorem Piece.statement_part {s text rest : Text} (next : next? s = some (.statement text, rest)) :
    text <:+: s ∧ ';' ∉ text ∧ rest <:+ s := by
  have start : trimStart s <:+ s := List.dropWhile_suffix isBlank
  rcases next?_cases next with
    ⟨piece, rfl⟩ | ⟨header, opened, -, ⟨-, piece⟩ | ⟨body, after, source, -, piece, -⟩⟩
  · obtain rfl := statement.inj piece
    have before : (cutAt ';' (trimStart s)).1 <+: trimStart s := List.takeWhile_prefix _
    have behind : (cutAt ';' (trimStart s)).2 <:+ trimStart s :=
      (List.tail_suffix _).trans (List.dropWhile_suffix _)
    exact ⟨before.isInfix.trans start.isInfix, not_mem_cutAt ';' _, behind.trans start⟩
  · contradiction
  · contradiction

theorem Piece.block_part {s inner stray rest : Text} {b : BlockDecl}
    (next : next? s = some (.block b inner stray, rest)) :
    inner <:+: s ∧ rest <:+ s ∧ b.From s := by
  have start : trimStart s <:+ s := List.dropWhile_suffix isBlank
  rcases next?_cases next with
    ⟨piece, -⟩ | ⟨header, opened, read, ⟨-, piece⟩ | ⟨body, after, source, closed, piece, rfl⟩⟩
  · contradiction
  · contradiction
  · obtain ⟨rfl, rfl, -⟩ := block.inj piece
    obtain ⟨bracePart, tag⟩ := BlockHeader.read?_part read
    have openedPart := (List.suffix_cons '{' opened).trans bracePart
    have whole := append_of_splitAtClose closed
    have bodyPart : inner <:+: opened := ⟨[], '}' :: after, by simp [whole]⟩
    have afterPart : after <:+ opened := ⟨inner ++ ['}'], by simp [whole]⟩
    obtain ⟨restPart, declarator⟩ := BlockTail.read_part after
    have inside : after <:+ s := (afterPart.trans openedPart).trans start
    refine ⟨bodyPart.trans (openedPart.trans start).isInfix, restPart.trans inside, tag, ?_⟩
    intro d among
    exact (declarator d among).within inside.isInfix

structure MembersFrom (text : Text) (ms : List Statement) : Prop where
  fields : ∀ f ∈ MemberTree.leavesOf ms, f.From text
  blocks : ∀ b ∈ MemberTree.blocksOf ms, b.From text

namespace MembersFrom

variable {s t : Text} {ms : List Statement}

theorem nil (text : Text) : MembersFrom text [] := by
  constructor <;> simp [MemberTree.leavesOf, MemberTree.blocksOf]

theorem within (inside : s <:+: t) (origin : MembersFrom s ms) : MembersFrom t ms :=
  ⟨fun f among => (origin.fields f among).within inside,
    fun b among => (origin.blocks b among).within inside⟩

theorem field {f : FieldDecl} (origin : f.From t) (later : MembersFrom t ms) :
    MembersFrom t (.field f :: ms) := by
  constructor
  · intro g among
    rcases List.mem_cons.mp among with rfl | among
    · exact origin
    · exact later.fields g among
  · simpa [MemberTree.blocksOf, MemberTree.blocks] using later.blocks

theorem block {b : BlockDecl} {inner : List Statement} (origin : b.From t)
    (members : MembersFrom t inner) (later : MembersFrom t ms) :
    MembersFrom t (.block b inner :: ms) := by
  constructor
  · intro f among
    rcases List.mem_append.mp among with among | among
    · exact members.fields f among
    · exact later.fields f among
  · intro c among
    rcases List.mem_append.mp among with among | among
    · rcases List.mem_cons.mp among with rfl | among
      · exact origin
      · exact members.blocks c among
    · exact later.blocks c among

end MembersFrom

theorem statements_from {text : Text} {ms : List Statement} (read : statements text = .ok ms) :
    MembersFrom text ms := by
  induction text using statements.induct generalizing ms with
  | case1 s next =>
    rw [statements_none next] at read
    obtain rfl := Except.ok.inj read
    exact .nil s
  | case2 s text rest next ih =>
    obtain ⟨textPart, single, restPart⟩ := Piece.statement_part next
    rw [statements_statement next] at read
    cases tail : statements rest with
    | error e => simp [tail, Except.map] at read
    | ok later =>
      have behind := (ih tail).within restPart.isInfix
      simp only [tail, Except.map, Except.ok.injEq] at read
      cases field : FieldDecl.read? text with
      | none =>
        simp only [field] at read
        exact read ▸ behind
      | some f =>
        simp only [field] at read
        exact read ▸ .field ((FieldDecl.from_of_read? single field).within textPart) behind
  | case3 s b inner stray rest next ihInner ihRest =>
    obtain ⟨innerPart, restPart, block⟩ := Piece.block_part next
    rw [statements_block next] at read
    obtain ⟨members, innerRead, read⟩ := bind_eq_ok.mp read
    obtain ⟨later, restRead, read⟩ := bind_eq_ok.mp read
    obtain rfl := Except.ok.inj read
    exact .block block ((ihInner innerRead).within innerPart)
      ((ihRest restRead).within restPart.isInfix)
  | case4 s rest _ next =>
    rw [statements_unclosed next] at read
    contradiction

end MemberOffsets
