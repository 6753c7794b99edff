import MemberOffsets.Proofs.Declaration.Closing

set_option autoImplicit false

namespace MemberOffsets

open Text

theorem head?_append_cons (s : Text) (c : Char) (t u : Text) :
    (s ++ c :: t).head? = (s ++ c :: u).head? := by
  cases s <;> rfl

-- Headers: what is read of a text up to an opening brace does not depend on what follows the brace.
theorem dropAttributes?_first {inside : Bool} {s r : Text} {c : Char}
    (dropped : dropAttributes? inside s = some r) (first : r.head? = some c) (single : c ≠ '[') :
    ∃ front, s = front ++ r ∧
      ∀ t, t.head? = some c → dropAttributes? inside (front ++ t) = some t := by
  fun_induction dropAttributes? inside s with
  | case1 =>
    obtain rfl := Option.some.inj dropped
    contradiction
  | case2 | case7 => contradiction
  | case3 s ih =>
    obtain ⟨front, rfl, reads⟩ := ih dropped
    exact ⟨'[' :: '[' :: front, rfl, reads⟩
  | case4 d s _ blank ih =>
    obtain ⟨front, rfl, reads⟩ := ih dropped
    have gap : allBlank [d] = true := by simpa [allBlank] using blank
    exact ⟨d :: front, rfl, fun t here => (dropAttributes?_blank gap false _).trans (reads t here)⟩
  | case5 d s _ dark =>
    obtain rfl := Option.some.inj dropped
    obtain rfl : d = c := by simpa using first
    refine ⟨[], rfl, ?_⟩
    rintro (_ | ⟨e, t⟩) here
    · contradiction
    · obtain rfl : e = d := by simpa using here
      rw [List.nil_append, dropAttributes?, if_neg dark]
      exact fun _ same => absurd same single
  | case6 s ih =>
    obtain ⟨front, rfl, reads⟩ := ih dropped
    exact ⟨']' :: ']' :: front, rfl, reads⟩
  | case8 d s _ other ih =>
    obtain ⟨front, rfl, reads⟩ := ih dropped
    refine ⟨d :: front, rfl, fun t here => ?_⟩
    rw [List.cons_append, dropAttributes?, if_neg other, reads t here]
    exact fun _ same => absurd same other

namespace BlockHeader

theorem splitTag_brace {s t : Text} (brace : trimStart (splitTag s).2 = '{' :: t) :
    ∃ front, s = front ++ '{' :: t ∧ ∀ u,
      (splitTag (front ++ '{' :: u)).1 = (splitTag s).1 ∧
        trimStart (splitTag (front ++ '{' :: u)).2 = '{' :: u := by
  obtain ⟨front, rfl⟩ : '{' :: t <:+ s := by
    rw [← brace]
    exact (List.dropWhile_suffix isBlank).trans (splitTag_part s).1
  have tag (u : Text) := splitTag_append_cons front (c := '{') (by decide) u
  have start (r u : Text) := trimStart_append_cons r (c := '{') (by decide) u
  have blank : trimStart (splitTag front).2 = [] := by
    rw [tag, start] at brace
    simpa using brace
  refine ⟨front, rfl, fun u => ?_⟩
  rw [tag, tag, start, blank]
  exact ⟨rfl, rfl⟩

theorem head?_ne_bracket {s t : Text} (brace : trimStart (splitTag s).2 = '{' :: t) :
    s.head? ≠ some '[' := by
  intro first
  obtain ⟨r, rfl⟩ := List.head?_eq_some_iff.mp first
  have dark : isBlank '[' = false := by decide
  have untagged : splitTag ('[' :: r) = (none, '[' :: r) := by simp [splitTag, isIdentStart]
  rw [untagged, trimStart_cons r dark] at brace
  simp at brace

theorem read?_brace {s t : Text} {header : BlockHeader} (read : read? s = some (header, t)) :
    ∃ front, s = front ++ '{' :: t ∧ ∀ u, read? (front ++ '{' :: u) = some (header, u) := by
  simp only [read?, Option.bind_eq_bind, Option.bind_eq_some_iff] at read
  obtain ⟨⟨kind, r⟩, keyword, read⟩ := read
  split at read
  · simp at read
  · rename_i apart
    obtain ⟨tail, attributes, read⟩ := Option.bind_eq_some_iff.mp read
    split at read
    · rename_i opened brace
      obtain ⟨rfl, rfl⟩ := Prod.mk.inj (Option.some.inj read)
      have bracket := head?_ne_bracket brace
      obtain ⟨tagged, rfl, reads⟩ := splitTag_brace brace
      have same (x u : Text) := head?_append_cons x '{' u opened
      obtain ⟨c, first⟩ : ∃ c, (tagged ++ '{' :: opened).head? = some c := by
        cases tagged <;> exact ⟨_, rfl⟩
      obtain ⟨between, rfl, drops⟩ :=
        dropAttributes?_first attributes first fun same => bracket (same ▸ first)
      refine ⟨kind.keyword ++ (between ++ tagged), ?_, fun u => ?_⟩
      · simpa using append_of_keyword? keyword
      · have behind := drops (tagged ++ '{' :: u) ((same tagged u).trans first)
        have outside : ∀ d ∈ (between ++ (tagged ++ '{' :: u)).head?, isWordChar d = false := by
          intro d here
          rw [← List.append_assoc, same, List.append_assoc] at here
          simpa [Option.mem_def.mp here] using apart
        rw [List.append_assoc, List.append_assoc, read?_keyword kind outside behind, (reads u).1,
          (reads u).2]
        rfl
    · simp at read

end BlockHeader

-- Tails: up to the end of a block, and without the blanks there, its tail is read as before.
theorem BlockTail.read_taken (after : Text) :
    ∃ taken, after = taken ++ (read after).rest ∧
      read (trimEnd taken) = ⟨(read after).declarator, [], []⟩ := by
  obtain ⟨taken, front, whole, cut, same⟩ : ∃ taken front, after = taken ++ (cutAt ';' after).2 ∧
      cutAt ';' (trimEnd taken) = (front, []) ∧ trim front = trim (cutAt ';' after).1 := by
    by_cases ended : ';' ∈ after
    · obtain ⟨front, rest, rfl, absent⟩ := List.eq_append_cons_of_mem ended
      rw [cutAt_append absent]
      refine ⟨front ++ [';'], front, by simp, ?_, rfl⟩
      rw [trimEnd_concat front (by decide), cutAt_append absent]
    · obtain ⟨gap, blank, parts⟩ := exists_trimEnd after
      rw [cutAt_absent ended]
      refine ⟨after, trimEnd after, by simp, ?_, ?_⟩
      · exact cutAt_absent fun member => ended ((trimEnd_part after).subset member)
      · conv_rhs => rw [parts, trim_append_right _ blank]
  simp only [read]
  split
  · rename_i empty
    exact ⟨taken, whole, by simp only [cut, same, empty, if_true]⟩
  · rename_i full
    split
    · rename_i d declarator
      exact ⟨taken, whole, by simp only [cut, same, full, declarator]; rfl⟩
    · exact ⟨[], rfl, rfl⟩

namespace Piece

theorem next?_eq_block {s inner stray rest : Text} {b : BlockDecl}
    (next : next? s = some (.block b inner stray, rest)) :
    ∃ header opened after, BlockHeader.read? (trimStart s) = some (header, opened) ∧
      splitAtClose 0 opened = some (inner, after) ∧ rest = (BlockTail.read after).rest ∧
      b = ⟨header.kind, header.tag, (BlockTail.read after).declarator,
        trim ((trimStart s).take ((trimStart s).length - rest.length))⟩ := by
  simp only [next?] at next
  split at next
  · simp at next
  · split at next
    · simp at next
    · rename_i header opened read
      split at next
      · simp at next
      · rename_i inner' after closed
        simp only [Option.some.injEq, Prod.mk.injEq, block.injEq] at next
        obtain ⟨⟨rfl, rfl, -⟩, rfl⟩ := next
        exact ⟨header, opened, after, read, closed, rfl, rfl⟩

theorem next?_source {s inner stray rest : Text} {b : BlockDecl}
    (next : next? s = some (.block b inner stray, rest)) :
    b.source <:+: s ∧ next? b.source = some (.block b inner [], []) := by
  obtain ⟨header, opened, after, read, closed, rfl, rfl⟩ := next?_eq_block next
  obtain ⟨front, start, reads⟩ := BlockHeader.read?_brace read
  obtain ⟨taken, whole, tail⟩ := BlockTail.read_taken after
  have closes := (bracesMatch_of_splitAtClose closed).splitAtClose (trimEnd taken)
  let block (taken : Text) : Text := front ++ '{' :: (inner ++ '}' :: taken)
  have text : trimStart s = block taken ++ (BlockTail.read after).rest := by
    rw [start, ← append_of_splitAtClose closed]
    conv_lhs => rw [whole]
    simp [block]
  have dark (taken : Text) : trimStart (block taken) = block taken := by
    apply trimStart_eq_self
    rw [head?_append_cons front '{' _ opened, ← start]
    exact trimStart_dark s
  have source : trim (block taken) = block (trimEnd taken) := by
    have brace := trimEnd_append_cons (front ++ '{' :: inner) (c := '}') (by decide) taken
    rw [trim, dark]
    simpa [block] using brace
  simp only [text, List.length_append, Nat.add_sub_cancel, List.take_left, source]
  constructor
  · have part : block taken <+: trimStart s := ⟨_, text.symm⟩
    rw [← source]
    exact ((trim_part _).trans part.isInfix).trans (List.dropWhile_suffix isBlank).isInfix
  · have nonempty : block (trimEnd taken) ≠ [] := by simp [block]
    have whole : trim (block (trimEnd taken)) = block (trimEnd taken) := by rw [← source, trim_trim]
    have header := reads (inner ++ '}' :: trimEnd taken)
    simp only [next?, dark, List.isEmpty_iff, nonempty, if_false]
    rw [header]
    simp [closes, tail, whole]

end Piece

def Excerpted (text : Text) (m : Statement) : Prop :=
  ∀ path b inner, m.at? path = some (.block b inner) →
    statements b.source = .ok [.block b inner] ∧ b.source <:+: text

namespace Excerpted

theorem within {s t : Text} {m : Statement} (excerpted : Excerpted s m) (inside : s <:+: t) :
    Excerpted t m := by
  intro path b inner here
  obtain ⟨alone, part⟩ := excerpted path b inner here
  exact ⟨alone, part.trans inside⟩

theorem field (text : Text) (f : FieldDecl) : Excerpted text (.field f) := by
  intro path b inner here
  cases path <;> simp at here

theorem block {text : Text} {b : BlockDecl} {ms : List Statement}
    (alone : statements b.source = .ok [.block b ms]) (part : b.source <:+: text)
    (members : ∀ m ∈ ms, Excerpted text m) : Excerpted text (.block b ms) := by
  intro path b' inner here
  cases path with
  | nil =>
    obtain ⟨rfl, rfl⟩ : b = b' ∧ ms = inner := by simpa using here
    exact ⟨alone, part⟩
  | cons i path =>
    obtain ⟨m, among, here⟩ := Option.bind_eq_some_iff.mp here
    exact members m (List.mem_of_getElem? among) path b' inner here

end Excerpted

theorem statements_excerpted {body : Text} {ms : List Statement}
    (read : statements body = .ok ms) : ∀ m ∈ ms, Excerpted body m := by
  induction body using statements.induct generalizing ms with
  | case1 s next =>
    rw [statements_none next] at read
    obtain rfl := Except.ok.inj read
    simp
  | case2 s text rest next ih =>
    have part := (Piece.statement_part next).2.2.isInfix
    rw [statements_statement next] at read
    cases tail : statements rest with
    | error place => simp [tail, Except.map] at read
    | ok later =>
      have behind : ∀ m ∈ later, Excerpted s m := fun m among => (ih tail m among).within part
      simp only [tail, Except.map, Except.ok.injEq] at read
      subst read
      cases FieldDecl.read? text with
      | none => exact behind
      | some f => exact List.forall_mem_cons.mpr ⟨.field s f, behind⟩
  | case3 s b inner stray rest next ihInner ihRest =>
    obtain ⟨innerPart, restPart, -⟩ := Piece.block_part next
    obtain ⟨sourcePart, again⟩ := Piece.next?_source next
    rw [statements_block next] at read
    obtain ⟨members, innerRead, read⟩ := bind_eq_ok.mp read
    obtain ⟨later, restRead, read⟩ := bind_eq_ok.mp read
    obtain rfl := Except.ok.inj read
    have alone : statements b.source = .ok [.block b members] := by
      rw [statements_block again, innerRead, statements_blank rfl]
      rfl
    have inside : ∀ m ∈ members, Excerpted s m := fun m among =>
      (ihInner innerRead m among).within innerPart
    have behind : ∀ m ∈ later, Excerpted s m := fun m among =>
      (ihRest restRead m among).within restPart.isInfix
    exact List.forall_mem_cons.mpr ⟨.block alone sourcePart inside, behind⟩
  | case4 s unclosed rest next =>
    rw [statements_unclosed next] at read
    contradiction

/-- Wherever a block stands in the tree of a text, its source is a part of the text, and segmented
on its own it gives that block with all its members and the same source. -/
theorem segment_source (text : Text) (ms : List Statement) (read : segment text = .ok ms) :
    ∀ m ∈ ms, ∀ path b inner, m.at? path = some (.block b inner) →
      segment b.source = .ok [.block b inner] ∧ b.source <:+: text := by
  intro m member path b inner here
  obtain ⟨alone, inside⟩ := statements_excerpted (segment_eq_ok.mp read) m member path b inner here
  exact ⟨segment_eq_ok.mpr alone, inside⟩

-- A block without its semicolon, so that its source ends with the brace, and in it one whose
-- attribute holds braces and whose source ends with its name.
theorem segment_source_unterminated :
    let text := "struct\x7bunion[[\x7b\x7d]]\x7bINT a;\x7du \x7d\nINT *p".toList
    let source := "union[[\x7b\x7d]]\x7bINT a;\x7du".toList
    let u : BlockDecl := ⟨.union, none, some ⟨['u'], []⟩, source⟩
    let a : Statement := .field ⟨"INT".toList, ⟨['a'], []⟩⟩
    let whole := "struct\x7bunion[[\x7b\x7d]]\x7bINT a;\x7du \x7d".toList
    let outer : Statement := .block ⟨.struct, none, none, whole⟩ [.block u [a]]
    segment text = .ok [outer, .field ⟨"INT *".toList, ⟨['p'], []⟩⟩] ∧
      outer.at? [0] = some (.block u [a]) ∧ segment source = .ok [.block u [a]] ∧
      source <:+: text := by
  intro text source u a whole outer
  let members := "union[[\x7b\x7d]]\x7bINT a;\x7du ".toList
  have first : Piece.next? text =
      some (.block ⟨.struct, none, none, whole⟩ members "INT *p".toList, "\nINT *p".toList) := by
    decide
  have union : Piece.next? members = some (.block u "INT a;".toList [], []) := by decide
  have field : Piece.next? "INT a;".toList = some (.statement "INT a".toList, []) := by decide
  have last : Piece.next? "\nINT *p".toList = some (.statement "INT *p".toList, []) := by decide
  have empty : statements [] = .ok [] := statements_blank rfl
  have read : segment text = .ok [outer, .field ⟨"INT *".toList, ⟨['p'], []⟩⟩] := by
    rw [segment_eq_ok, statements_block first, statements_block union, statements_statement field,
      statements_statement last, empty]
    rfl
  have inside : outer.at? [0] = some (.block u [a]) := by simp [outer]
  exact ⟨read, inside, segment_source text _ read outer List.mem_cons_self [0] u [a] inside⟩

end MemberOffsets
