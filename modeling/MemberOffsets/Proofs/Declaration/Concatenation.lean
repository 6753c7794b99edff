import MemberOffsets.Proofs.Declaration.Closing

set_option autoImplicit false

namespace MemberOffsets

open Text

def LastAttributeEnds (s : Text) : Prop :=
  ∀ behind, '[' :: '[' :: behind <:+ s → ¬ ['[', '['] <:+: '[' :: behind → ']' ∈ behind

instance (s : Text) : Decidable (LastAttributeEnds s) :=
  decidable_of_iff
    (∀ part ∈ s.tails, ['[', '['] <+: part → ¬ ['[', '['] <:+: part.tail → ']' ∈ part.drop 2)
    (by
      constructor
      · intro all behind part last
        exact all _ ((List.mem_tails _ s).mpr part) ⟨behind, rfl⟩ last
      · rintro ends part member ⟨behind, rfl⟩ last
        exact ends behind ((List.mem_tails _ s).mp member) last)

def AttributesEnd (s : Text) : Prop :=
  ∀ behind, '[' :: '[' :: behind <:+ s → ']' ∈ behind

theorem LastAttributeEnds.attributesEnd {s : Text} (ends : LastAttributeEnds s) :
    AttributesEnd s := by
  intro behind part
  induction length : behind.length using Nat.strongRecOn generalizing behind with
  | _ n ih =>
    by_cases another : ['[', '['] <:+: '[' :: behind
    · obtain ⟨between, later, split⟩ := another
      have within : '[' :: '[' :: later <:+ '[' :: behind := ⟨between, by simpa using split⟩
      have shorter : later.length < n := by
        have := within.length_le
        simp only [List.length_cons] at this
        omega
      have inner := (within.trans (List.suffix_cons '[' _)).trans part
      have member := within.subset (List.mem_cons_of_mem '[' (List.mem_cons_of_mem '['
        (ih later.length shorter later inner rfl)))
      simpa using member
    · exact ends behind part another

namespace AttributesEnd

theorem suffix {s t : Text} (ended : AttributesEnd t) (part : s <:+ t) : AttributesEnd s :=
  fun behind opens => ended behind (opens.trans part)

theorem of_append_semicolon {s : Text} (ended : AttributesEnd (s ++ [';'])) :
    AttributesEnd s := by
  rintro behind ⟨before, rfl⟩
  simpa using ended (behind ++ [';']) ⟨before, by simp⟩

end AttributesEnd

theorem dropAttributes?_semicolon {inside : Bool} {s : Text} (ended : AttributesEnd s)
    (closes : inside = true → ']' ∈ s) (t : Text) :
    dropAttributes? inside (s ++ ';' :: t) =
      (dropAttributes? inside s).map (· ++ ';' :: t) := by
  fun_induction dropAttributes? inside s with
  | case1 =>
    have dark : isBlank ';' = false := by decide
    simp [dropAttributes?, dark]
  | case2 => simp at closes
  | case3 s ih =>
    have here : ']' ∈ s := ended s (List.suffix_refl _)
    have rest := ended.suffix (List.suffix_append ['[', '['] s)
    rw [← ih rest fun _ => here]
    rfl
  | case4 c s single blank ih =>
    have opens : c ≠ '[' := ne_of_isBlank blank (by decide)
    rw [← ih (ended.suffix (List.suffix_cons c s)) (by simp)]
    simp [dropAttributes?, opens, blank]
  | case5 c s single dark =>
    cases s with
    | nil => simp [dropAttributes?, dark]
    | cons d s =>
      have opens : c = '[' → d ≠ '[' := by
        rintro rfl rfl
        exact single s rfl rfl
      simp only [List.cons_append, Option.map_some]
      rw [dropAttributes?, if_neg dark]
      simpa using opens
  | case6 s ih =>
    rw [← ih (ended.suffix (List.suffix_append [']', ']'] s)) (by simp)]
    rfl
  | case7 s double =>
    cases s with
    | nil => simp [dropAttributes?]
    | cons d s =>
      have single : d ≠ ']' := by
        rintro rfl
        exact double s rfl rfl
      simp [dropAttributes?, single]
  | case8 c s double other ih =>
    have here : ']' ∈ s := by
      simpa [Ne.symm other] using closes rfl
    rw [← ih (ended.suffix (List.suffix_cons c s)) fun _ => here]
    simp [dropAttributes?, other]

namespace BlockHeader

theorem keyword?_append_semicolon (s t : Text) :
    keyword? (s ++ ';' :: t) = (keyword? s).map fun (kind, r) => (kind, r ++ ';' :: t) := by
  cases found : keyword? (s ++ ';' :: t) with
  | none =>
    cases before : keyword? s with
    | none => rfl
    | some result =>
      obtain ⟨kind, r⟩ := result
      rw [append_of_keyword? before, List.append_assoc, keyword?_append] at found
      contradiction
  | some result =>
    obtain ⟨kind, r⟩ := result
    obtain ⟨y, rfl, rfl⟩ := keyword?_semicolon found
    rw [keyword?_append]
    rfl

theorem read?_append_semicolon {s : Text} (ended : AttributesEnd s) (t : Text) :
    read? (s ++ ';' :: t) = (read? s).map fun (header, r) => (header, r ++ ';' :: t) := by
  simp only [read?, keyword?_append_semicolon, Option.bind_eq_bind]
  cases found : keyword? s with
  | none => rfl
  | some result =>
    obtain ⟨kind, r⟩ := result
    have part : r <:+ s := ⟨kind.keyword, (append_of_keyword? found).symm⟩
    have first : (r ++ ';' :: t).head?.any isWordChar = r.head?.any isWordChar := by
      cases r with
      | nil => rfl
      | cons c r => rfl
    have outside : false = true → ']' ∈ r := by simp
    have attributes := dropAttributes?_semicolon (ended.suffix part) outside t
    simp only [Option.map_some, Option.bind_some, first]
    split
    · rfl
    · rw [attributes]
      cases dropAttributes? false r with
      | none => rfl
      | some u =>
        simp only [Option.map_some, Option.bind_some, splitTag_semicolon, trimStart_semicolon]
        cases trimStart (splitTag u).2 with
        | nil => rfl
        | cons c v =>
          by_cases opens : c = '{'
          · subst opens
            rfl
          · simp [opens]

end BlockHeader

structure Complete (s : Text) : Prop where
  last : ∀ c ∈ s.getLast?, c = ';'
  attributes : AttributesEnd s

namespace Complete

theorem suffix {s t : Text} (complete : Complete t) (part : s <:+ t) : Complete s := by
  obtain ⟨front, rfl⟩ := part
  constructor
  · intro c member
    apply complete.last c
    simp [List.getLast?_append, Option.mem_def.mp member]
  · exact complete.attributes.suffix (List.suffix_append front s)

theorem eq_concat {s : Text} (complete : Complete s) (nonempty : s ≠ []) :
    ∃ r, s = r ++ [';'] ∧ AttributesEnd r := by
  have last := List.getLast?_eq_some_getLast nonempty
  obtain ⟨r, whole⟩ := List.getLast?_eq_some_iff.mp last
  rw [complete.last _ last] at whole
  have attributes := complete.attributes
  rw [whole] at attributes
  exact ⟨r, whole, attributes.of_append_semicolon⟩

theorem semicolon_mem {s : Text} (complete : Complete s) (nonempty : s ≠ []) : ';' ∈ s := by
  obtain ⟨r, rfl, -⟩ := complete.eq_concat nonempty
  simp

end Complete

theorem BlockHeader.read?_append {s : Text} (complete : Complete s) (nonempty : s ≠ []) (t : Text) :
    read? (s ++ t) = (read? s).map fun (header, r) => (header, r ++ t) := by
  obtain ⟨r, rfl, attributes⟩ := complete.eq_concat nonempty
  rw [List.append_assoc, List.singleton_append, read?_append_semicolon attributes,
    read?_append_semicolon attributes]
  simp [Function.comp_def]

theorem splitAtClose_append {depth : Nat} {s body after : Text}
    (found : splitAtClose depth s = some (body, after)) (t : Text) :
    splitAtClose depth (s ++ t) = some (body, after ++ t) := by
  obtain ⟨stays, equal⟩ := staysOpen_of_splitAtClose found
  rw [← append_of_splitAtClose found, List.append_assoc, List.cons_append]
  exact splitAtClose_of_staysOpen stays equal (after ++ t)

theorem BlockTail.read_append {after : Text} (member : ';' ∈ after) (t : Text) :
    read (after ++ t) =
      ⟨(read after).declarator, (read after).stray, (read after).rest ++ t⟩ := by
  simp only [read, cutAt_append_of_mem member]
  split
  · rfl
  · split <;> rfl

-- The brace that closes a block is not the end of the text, so a semicolon is left behind it.
theorem Complete.after {s opened inner after : Text} {header : BlockHeader} (complete : Complete s)
    (read : BlockHeader.read? s = some (header, opened))
    (closed : splitAtClose 0 opened = some (inner, after)) : ';' ∈ after := by
  have braced : '}' :: after <:+ opened := ⟨inner, append_of_splitAtClose closed⟩
  have part := (braced.trans (List.suffix_cons '{' opened)).trans (BlockHeader.read?_part read).1
  have semicolon := (complete.suffix part).semicolon_mem (by simp)
  simpa using semicolon

namespace Piece

theorem next?_eq_none {s : Text} : next? s = none ↔ trimStart s = [] := by
  constructor
  · intro next
    simp only [next?] at next
    split at next
    · exact List.isEmpty_iff.mp ‹_›
    · repeat' split at next
      all_goals simp at next
  · intro empty
    simp [next?, empty]

theorem eq_nil_of_next? {s : Text} (complete : Complete s) (next : next? s = none) : s = [] := by
  by_contra nonempty
  obtain ⟨r, rfl, -⟩ := complete.eq_concat nonempty
  have blank := next?_eq_none.mp next
  rw [trimStart_semicolon] at blank
  simp at blank

theorem next?_append {s rest : Text} {piece : Piece} (complete : Complete s)
    (next : next? s = some (piece, rest)) (closed : ∀ r, piece ≠ .unclosed r) (t : Text) :
    next? (s ++ t) = some (piece, rest ++ t) := by
  have nonempty : trimStart s ≠ [] := by
    intro empty
    rw [next?_eq_none.mpr empty] at next
    contradiction
  have dark : allBlank s = false := by
    by_contra blank
    exact nonempty (trimStart_eq_nil (by simpa using blank))
  have part : trimStart s <:+ s := List.dropWhile_suffix isBlank
  have start := complete.suffix part
  simp only [next?, trimStart_append_right dark, List.isEmpty_iff, List.append_eq_nil_iff, nonempty,
    false_and, if_false, BlockHeader.read?_append start nonempty] at next ⊢
  cases read : BlockHeader.read? (trimStart s) with
  | none =>
    have cut := cutAt_append_of_mem (start.semicolon_mem nonempty) t
    simp only [read, Option.some.injEq, Prod.mk.injEq] at next
    obtain ⟨rfl, rfl⟩ := next
    simp [cut]
  | some result =>
    obtain ⟨header, opened⟩ := result
    simp only [read] at next
    cases found : splitAtClose 0 opened with
    | none =>
      simp only [found, Option.some.injEq, Prod.mk.injEq] at next
      exact absurd next.1.symm (closed _)
    | some result =>
      obtain ⟨inner, after⟩ := result
      simp only [found, Option.some.injEq, Prod.mk.injEq] at next
      obtain ⟨rfl, rfl⟩ := next
      have tail := BlockTail.read_append (start.after read found) t
      have source : (trimStart s ++ t).take
          ((trimStart s ++ t).length - ((BlockTail.read after).rest ++ t).length) =
          (trimStart s).take ((trimStart s).length - (BlockTail.read after).rest.length) := by
        rw [List.length_append, List.length_append, Nat.add_sub_add_right,
          List.take_append_of_le_length (Nat.sub_le _ _)]
      simp only [Option.map_some, splitAtClose_append found, tail, source]

end Piece

theorem statements_append {x : Text} {xs : List Statement} (complete : Complete x)
    (read : statements x = .ok xs) (y : Text) :
    statements (x ++ y) = (statements y).map (xs ++ ·) := by
  induction x using statements.induct generalizing xs with
  | case1 s next =>
    obtain rfl := Piece.eq_nil_of_next? complete next
    obtain rfl : [] = xs := by simpa [statements_none next] using read
    rw [List.nil_append]
    cases statements y <;> rfl
  | case2 s text rest next ih =>
    have next' := Piece.next?_append complete next (by simp) y
    have behind := complete.suffix (Piece.statement_part next).2.2
    rw [statements_statement next] at read
    cases tail : statements rest with
    | error place => simp [tail, Except.map] at read
    | ok later =>
      simp only [tail, Except.map, Except.ok.injEq] at read
      rw [statements_statement next', ih behind tail, ← read]
      cases statements y <;> cases FieldDecl.read? text <;> rfl
  | case3 s b inner stray rest next ihInner ihRest =>
    have next' := Piece.next?_append complete next (by simp) y
    have behind := complete.suffix (Piece.block_part next).2.1
    rw [statements_block next] at read
    obtain ⟨members, segmented, read⟩ := bind_eq_ok.mp read
    obtain ⟨later, tail, read⟩ := bind_eq_ok.mp read
    obtain rfl := Except.ok.inj read
    rw [statements_block next', segmented, ihRest behind tail]
    cases statements y <;> rfl
  | case4 s unclosed rest next =>
    rw [statements_unclosed next] at read
    contradiction

-- Text that ends with a statement is read the same whatever follows, and what follows is read
-- as it is on its own, an error of it being as much later as the text is long.
theorem segment_append (x y : Text) (xs : List Statement) (ends : x.getLast? = some ';')
    (attributes : LastAttributeEnds x) (read : segment x = .ok xs) :
    (∀ ys, segment y = .ok ys → segment (x ++ y) = .ok (xs ++ ys)) ∧
      ∀ place, segment y = .error place →
        segment (x ++ y) = .error ⟨place.start + utf8Length x, place.span⟩ := by
  have complete : Complete x := by
    constructor
    · intro c member
      exact Option.some.inj (member.symm.trans ends)
    · exact attributes.attributesEnd
  have whole := statements_append complete (segment_eq_ok.mp read) y
  constructor
  · intro ys segmented
    rw [segment_eq_ok, whole, segment_eq_ok.mp segmented]
    rfl
  · intro place failed
    cases rest : statements y with
    | ok ys => simp [segment, rest, Except.mapError] at failed
    | error behind =>
      obtain ⟨opened, -, ⟨before, rfl⟩, -⟩ := statements_error rest
      simp only [segment, rest, Except.mapError, Except.error.injEq] at failed
      subst failed
      rw [segment, whole, rest]
      simp only [Except.map, Except.mapError, Unbalanced.at, utf8Length_append]
      congr 2
      omega

theorem segment_append_attributed :
    let x := "union[[;]]\x7bINT a;\x7du;".toList
    let members : List Statement :=
      [.block ⟨.union, none, some ⟨['u'], []⟩, x⟩ [.field ⟨"INT".toList, ⟨['a'], []⟩⟩]]
    x.getLast? = some ';' ∧ LastAttributeEnds x ∧ segment x = .ok members ∧
      segment (x ++ "CHAR b".toList) =
        .ok (members ++ [.field ⟨"CHAR".toList, ⟨['b'], []⟩⟩]) ∧
      segment (x ++ "struct\x7b".toList) = .error ⟨26, ['{']⟩ := by
  intro x members
  have field : Piece.next? "INT a;".toList = some (.statement "INT a".toList, []) := by decide
  have block : Piece.next? x = some (.block ⟨.union, none, some ⟨['u'], []⟩, x⟩ "INT a;".toList [],
      []) := by decide
  have plain : Piece.next? "CHAR b".toList = some (.statement "CHAR b".toList, []) := by decide
  have unclosed : Piece.next? "struct\x7b".toList = some (.unclosed ['{'], []) := by decide
  have empty : statements [] = .ok [] := statements_blank rfl
  have read : segment x = .ok members := by
    rw [segment_eq_ok, statements_block block, statements_statement field, empty]
    rfl
  have followed : segment "CHAR b".toList = .ok [.field ⟨"CHAR".toList, ⟨['b'], []⟩⟩] := by
    rw [segment_eq_ok, statements_statement plain, empty]
    rfl
  have failed : segment "struct\x7b".toList = .error ⟨6, ['{']⟩ := by
    rw [segment, statements_unclosed unclosed]
    rfl
  have ends : x.getLast? = some ';' := by decide
  have attributes : LastAttributeEnds x := by decide
  refine ⟨ends, attributes, read, ?_, ?_⟩
  · exact (segment_append x _ members ends attributes read).1 _ followed
  · exact (segment_append x _ members ends attributes read).2 _ failed

-- An attribute that is still open reaches over the semicolon and makes a block of the statement.
example :
    Piece.next? "struct[[;".toList = some (.statement "struct[[".toList, []) ∧
      Piece.next? "struct[[;]]\x7b\x7d;".toList =
        some (.block ⟨.struct, none, none, "struct[[;]]\x7b\x7d;".toList⟩ [] [], []) := by
  decide

end MemberOffsets
