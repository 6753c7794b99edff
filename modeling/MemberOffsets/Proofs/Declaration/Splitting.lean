import Mathlib.Data.List.Infix
import MemberOffsets.Proofs.Declaration.Segmentation

set_option autoImplicit false

namespace MemberOffsets

open Text

/-- No statement of the text begins like a block: from the first character of a part between
semicolons that is not blank, the text does not go on as a header. -/
def Blockless (body : Text) : Prop :=
  ∀ part later, part :: later <:+ body.splitOn ';' → allBlank part = false →
    BlockHeader.read? (trimStart ([';'].intercalate (part :: later))) = none

instance (body : Text) : Decidable (Blockless body) :=
  decidable_of_iff
    (∀ parts ∈ (body.splitOn ';').tails, ∀ part ∈ parts.head?, allBlank part = false →
      BlockHeader.read? (trimStart ([';'].intercalate parts)) = none)
    (by
      constructor
      · intro all part later behind
        exact all _ ((List.mem_tails _ _).mpr behind) part rfl
      · rintro blockless (_ | ⟨part, later⟩) member _ ⟨⟩
        exact blockless part later ((List.mem_tails _ _).mp member))

theorem FieldDecl.read?_blank {s : Text} (blank : allBlank s = true) : read? s = none := by
  simp [read?, trim, trimStart_eq_nil blank, trimEnd, Declarator.find?]

theorem FieldDecl.read?_trimStart (s : Text) : read? (trimStart s) = read? s := by
  rw [read?, trim_trimStart, read?]

namespace Blockless

theorem single {s : Text} (blockless : Blockless s) (absent : ';' ∉ s) (dark : allBlank s = false) :
    BlockHeader.read? (trimStart s) = none := by
  have header := blockless s [] (by rw [List.splitOn_eq_singleton absent]) dark
  simpa using header

theorem first {s t : Text} (blockless : Blockless (s ++ ';' :: t)) (absent : ';' ∉ s) :
    BlockHeader.read? (trimStart s ++ ';' :: t) = none := by
  cases blank : allBlank s with
  | true =>
    rw [trimStart_eq_nil blank]
    rfl
  | false =>
    have parts := List.splitOn_append_cons_self_of_not_mem absent t
    have header := blockless s (t.splitOn ';') (by rw [parts]) blank
    rwa [← parts, List.intercalate_splitOn, trimStart_semicolon] at header

theorem later {s t : Text} (blockless : Blockless (s ++ ';' :: t)) (absent : ';' ∉ s) :
    Blockless t := by
  intro part behind inside
  apply blockless part behind
  rw [List.splitOn_append_cons_self_of_not_mem absent]
  exact inside.trans (List.suffix_cons s _)

end Blockless

namespace Piece

theorem next?_single {s : Text} (blockless : Blockless s) (absent : ';' ∉ s)
    (dark : allBlank s = false) : next? s = some (.statement (trimStart s), []) := by
  have nonempty := trimStart_ne_nil dark
  have cut := cutAt_absent (not_mem_trimStart absent)
  simp [next?, nonempty, blockless.single absent dark, cut]

theorem next?_first {s t : Text} (blockless : Blockless (s ++ ';' :: t)) (absent : ';' ∉ s) :
    next? (s ++ ';' :: t) = some (.statement (trimStart s), t) := by
  have cut : cutAt ';' (trimStart s ++ ';' :: t) = (trimStart s, t) :=
    cutAt_append (not_mem_trimStart absent)
  simp [next?, trimStart_semicolon, blockless.first absent, cut]

end Piece

theorem statements_splitOn {body : Text} (blockless : Blockless body) :
    statements body = .ok (((body.splitOn ';').filterMap FieldDecl.read?).map .field) := by
  induction body using part_induction ';' with
  | single s absent =>
    rw [List.splitOn_eq_singleton absent]
    cases blank : allBlank s with
    | true =>
      rw [statements_blank blank]
      simp [FieldDecl.read?_blank blank]
    | false =>
      rw [statements_statement (Piece.next?_single blockless absent blank), statements_blank rfl,
        FieldDecl.read?_trimStart]
      cases read : FieldDecl.read? s <;> simp [Except.map, read]
  | part s t absent ih =>
    rw [statements_statement (Piece.next?_first blockless absent), ih (blockless.later absent),
      FieldDecl.read?_trimStart, List.splitOn_append_cons_self_of_not_mem absent]
    cases read : FieldDecl.read? s <;> simp [Except.map, read]

theorem segment_splitOn (body : Text) (blockless : Blockless body) :
    segment body = .ok (((body.splitOn ';').filterMap FieldDecl.read?).map .field) :=
  segment_eq_ok.mpr (statements_splitOn blockless)

theorem segment_splitOn_junk :
    let body := ";;  ; INT a; 42; Lonely;struct S *p; \t;WCHAR b[4]".toList
    Blockless body ∧
      segment body = .ok ([⟨"INT".toList, ⟨['a'], []⟩⟩, ⟨"struct S *".toList, ⟨['p'], []⟩⟩,
        ⟨"WCHAR".toList, ⟨['b'], [['4']]⟩⟩].map .field) := by
  intro body
  have blockless : Blockless body := by decide
  have fields : (body.splitOn ';').filterMap FieldDecl.read? =
      [⟨"INT".toList, ⟨['a'], []⟩⟩, ⟨"struct S *".toList, ⟨['p'], []⟩⟩,
        ⟨"WCHAR".toList, ⟨['b'], [['4']]⟩⟩] := by decide
  exact ⟨blockless, fields ▸ segment_splitOn body blockless⟩

end MemberOffsets
