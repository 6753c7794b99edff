import MemberOffsets.Proofs.Declaration.Respacing

set_option autoImplicit false

namespace MemberOffsets

open Text

namespace HeaderSpelling

variable (h : HeaderSpelling)

theorem head?_dark (t : Text) : ∀ c ∈ (h.write ++ t).head?, isBlank c = false := by
  have full : h.kind.keyword ≠ [] := by cases h.kind <;> decide
  obtain ⟨d, r, keyword⟩ := List.exists_cons_of_ne_nil full
  intro c first
  obtain rfl : d = c := by simpa [write, keyword] using first
  exact isBlank_of_isIdentChar (h.kind.isIdentChar_keyword d (by simp [keyword]))

theorem read?_collapse :
    BlockHeader.read? (collapse (h.write ++ ['{'])) = some (h.decl, []) := by
  have last : ∀ c ∈ (h.write ++ ['{']).getLast?, isBlank c = false := by
    simp
    decide
  have spaced : Respaced (h.write ++ ['{']) (collapse (h.write ++ ['{'])) :=
    respaced_of_words ⟨h.head?_dark _, last⟩ (collapse_dark _) (words_collapse _).symm
  have read := BlockHeader.read?_respaced spaced
  rw [BlockHeader.read?_write] at read
  generalize BlockHeader.read? (collapse (h.write ++ ['{'])) = found at read ⊢
  cases read with
  | @some x y same =>
    obtain ⟨header, rest⟩ := y
    obtain ⟨rfl, behind⟩ := same
    exact congrArg (fun rest => some (h.decl, rest)) behind.eq_nil

-- The header that starts the text also ends it, so no later start is tried.
theorem atEnd?_collapse :
    BlockHeader.atEnd? false (collapse (h.write ++ ['{'])) = some h.decl := by
  have read := h.read?_collapse
  have full : collapse (h.write ++ ['{']) ≠ [] := by
    have brace : isBlank '{' = false := by decide
    exact collapse_ne_nil (by simp [allBlank, brace])
  obtain ⟨c, r, same⟩ := List.exists_cons_of_ne_nil full
  rw [same] at read ⊢
  simp [BlockHeader.atEnd?, read, allBlank]

end HeaderSpelling

def leadingBlock (h : HeaderSpelling) (body after : Text) : Text :=
  h.write ++ '{' :: (body ++ '}' :: after)

section

variable (h : HeaderSpelling) {body : Text} (matching : BracesMatch body) (after : Text)

include matching

theorem Shell.split_leadingBlock :
    split (leadingBlock h body after) =
      .ok (if allBlank (cutAt ';' after).2 then
        ⟨collapse (h.write ++ ['{']), body, collapse ('}' :: after), h.kind, h.decl.tag⟩
      else .bare (leadingBlock h body after)) := by
  have braceless : '{' ∉ h.write := not_mem_of_plain h.plain rfl
  have single : ';' ∉ h.write := not_mem_of_plain h.plain rfl
  rw [leadingBlock, split_cut braceless single (matching.splitAtClose after), enclosing,
    h.atEnd?_collapse]
  rfl

theorem Piece.next?_leadingBlock :
    ∃ source, next? (leadingBlock h body after) =
      some (.block ⟨h.kind, h.decl.tag, (BlockTail.read after).declarator, source⟩ body
        (BlockTail.read after).stray, (BlockTail.read after).rest) :=
  ⟨_, next?_header ⟨[], rfl⟩ h (matching.splitAtClose after)⟩

theorem statements_leadingBlock {ms later : List Statement} (members : statements body = .ok ms)
    (behind : statements (BlockTail.read after).rest = .ok later) :
    ∃ source, statements (leadingBlock h body after) =
      .ok (.block ⟨h.kind, h.decl.tag, (BlockTail.read after).declarator, source⟩ ms :: later) := by
  obtain ⟨source, next⟩ := Piece.next?_leadingBlock h matching after
  refine ⟨source, ?_⟩
  rw [statements_block next, members, behind]
  rfl

end

structure ClosingSpelling where
  name : Option (Blanks × Identifier)
  gap : Blanks
  semicolon : Option Blanks

namespace ClosingSpelling

variable (e : ClosingSpelling)

def front : Text := e.name.elim [] (fun n => n.1.val ++ n.2.text) ++ e.gap.val

def rest : Text := e.semicolon.elim [] Subtype.val

def write : Text := e.front ++ e.semicolon.elim [] (fun tail => ';' :: tail.val)

theorem cutAt_write : cutAt ';' e.write = (e.front, e.rest) := by
  have plain : ∀ c ∈ e.front, isMark c = false := by
    intro c member
    rcases List.mem_append.mp member with name | gap
    · cases written : e.name with
      | none => simp [written] at name
      | some n =>
        simp only [written, Option.elim_some, List.mem_append] at name
        rcases name with gap | ident
        · exact n.1.plain c gap
        · exact isMark_of_isIdentChar (n.2.isIdentChar c ident)
    · exact e.gap.plain c gap
  have single : ';' ∉ e.front := not_mem_of_plain plain rfl
  rw [write, rest]
  cases e.semicolon with
  | none => simpa using cutAt_absent single
  | some tail => exact cutAt_append single

theorem allBlank_rest : allBlank e.rest = true := by
  rw [rest]
  cases e.semicolon with
  | none => rfl
  | some tail => exact tail.property

theorem read_write :
    BlockTail.read e.write = ⟨e.name.map (⟨·.2.text, []⟩), [], e.rest⟩ := by
  have read := BlockTail.read_of_cut e.cutAt_write (e.name.map fun n => (n.1, ⟨n.2, []⟩)) e.gap
    (by cases named : e.name <;> simp [front, named, DeclaratorSpelling.write,
      DeclaratorSpelling.suffix])
  rw [read, Option.map_map]
  rfl

end ClosingSpelling

theorem BlockHeader.read?_eq_none {s : Text} (unbraced : '{' ∉ s) : read? s = none := by
  cases read : read? s with
  | none => rfl
  | some found => exact absurd ((read?_part read).1.subset List.mem_cons_self) unbraced

theorem statements_unbraced {s : Text} (unbraced : '{' ∉ s)
    (last : allBlank (cutAt ';' s).2 = true) :
    statements s = .ok [] ∨ ∃ f, statements s = .ok [.field f] := by
  by_cases empty : trimStart s = []
  · exact .inl (statements_none (by simp [Piece.next?, empty]))
  · have header : BlockHeader.read? (trimStart s) = none :=
      BlockHeader.read?_eq_none fun member =>
        unbraced ((List.dropWhile_sublist isBlank).subset member)
    have next : Piece.next? s =
        some (.statement (cutAt ';' (trimStart s)).1, (cutAt ';' (trimStart s)).2) := by
      simp [Piece.next?, empty, header]
    have blank : allBlank (cutAt ';' (trimStart s)).2 = true := by
      have dark : isBlank ';' = false := by decide
      rw [← squash_eq_nil, squash_cutAt dark] at last ⊢
      rwa [squash_trimStart]
    rw [statements_statement next, statements_blank blank]
    cases FieldDecl.read? (cutAt ';' (trimStart s)).1 with
    | none => exact .inl rfl
    | some f => exact .inr ⟨f, rfl⟩

-- Where the semicolon is missing, what stands there is read once more, as a field.
theorem statements_behind {after : Text} (unbraced : '{' ∉ after)
    (last : allBlank (cutAt ';' after).2 = true) :
    statements (BlockTail.read after).rest = .ok [] ∨
      ∃ f, statements (BlockTail.read after).rest = .ok [.field f] ∧
        (BlockTail.read after).declarator = none := by
  have blank : statements (cutAt ';' after).2 = .ok [] := statements_blank last
  simp only [BlockTail.read]
  split
  · exact .inl blank
  · split
    · exact .inl blank
    · rcases statements_unbraced unbraced last with blank | ⟨f, one⟩
      · exact .inl blank
      · exact .inr ⟨f, one, rfl⟩

theorem statements_unseparated {h : HeaderSpelling} {body after : Text} {ms : List Statement}
    (matching : BracesMatch body) (unbraced : '{' ∉ after)
    (last : allBlank (cutAt ';' after).2 = true)
    (read : statements (leadingBlock h body after) = .ok ms) (several : 2 ≤ ms.length) :
    ∃ f, ms.getLast? = some (.field f) ∧
      statements (BlockTail.read after).rest = .ok [.field f] ∧
      (BlockTail.read after).declarator = none := by
  obtain ⟨inner, segmented⟩ := segment_of_bracesMatch matching
  have members := segment_eq_ok.mp segmented
  rcases statements_behind unbraced last with behind | ⟨f, behind, unnamed⟩
  · obtain ⟨source, alone⟩ := statements_leadingBlock h matching after members behind
    rw [read, Except.ok.injEq] at alone
    simp [alone] at several
  · obtain ⟨source, both⟩ := statements_leadingBlock h matching after members behind
    rw [read, Except.ok.injEq] at both
    exact ⟨f, by simp [both], behind, unnamed⟩

end MemberOffsets
