import MemberOffsets.Declaration.Block

set_option autoImplicit false

namespace MemberOffsets

open Text

inductive Piece where
  | statement (text : Text)
  /-- A block, its body not yet cut, and what stands behind it and is no declarator. -/
  | block (decl : BlockDecl) (body stray : Text)
  | unclosed (rest : Text)
deriving DecidableEq, Repr

namespace Piece

def next? (body : Text) : Option (Piece × Text) :=
  let s := trimStart body
  if s.isEmpty then none
  else
    match BlockHeader.read? s with
    | none =>
        let (before, rest) := cutAt ';' s
        some (.statement before, rest)
    | some (header, opened) =>
        match splitAtClose 0 opened with
        | none => some (.unclosed ('{' :: opened), [])
        | some (inner, after) =>
            let tail := BlockTail.read after
            let source := trim (s.take (s.length - tail.rest.length))
            some
              (.block ⟨header.kind, header.tag, tail.declarator, source⟩ inner tail.stray,
                tail.rest)

theorem length_rest_lt {body rest : Text} {piece : Piece} (h : next? body = some (piece, rest)) :
    rest.length < body.length := by
  have hle := length_trimStart_le body
  simp only [next?] at h
  split at h
  · simp at h
  · rename_i hne
    split at h
    · have := length_cutAt_snd_lt ';' (trimStart body) (by simpa using hne)
      simp only [Option.some.injEq, Prod.mk.injEq] at h
      obtain ⟨-, rfl⟩ := h
      omega
    · rename_i hr
      have hread := BlockHeader.length_of_read? hr
      split at h
      · simp only [Option.some.injEq, Prod.mk.injEq] at h
        obtain ⟨-, rfl⟩ := h
        simp only [List.length_nil]
        omega
      · rename_i after hs
        have hclose := length_of_splitAtClose hs
        have htail := BlockTail.length_read_rest_le after
        simp only [Option.some.injEq, Prod.mk.injEq] at h
        obtain ⟨-, rfl⟩ := h
        omega

theorem length_body_lt {body rest inner stray : Text} {decl : BlockDecl}
    (h : next? body = some (.block decl inner stray, rest)) : inner.length < body.length := by
  have hle := length_trimStart_le body
  simp only [next?] at h
  split at h
  · simp at h
  · split at h
    · simp at h
    · rename_i hr
      have hread := BlockHeader.length_of_read? hr
      split at h
      · simp at h
      · rename_i hs
        have hclose := length_of_splitAtClose hs
        simp only [Option.some.injEq, Prod.mk.injEq, block.injEq] at h
        obtain ⟨⟨-, rfl, -⟩, -⟩ := h
        omega

end Piece

def statements (body : Text) : Except Text (List Statement) :=
  match _ : Piece.next? body with
  | none => .ok []
  | some (.statement text, rest) => do
      let later ← statements rest
      match FieldDecl.read? text with
      | some decl => .ok (.field decl :: later)
      | none => .ok later
  | some (.block decl inner _, rest) => do
      let members ← statements inner
      let later ← statements rest
      .ok (.block decl members :: later)
  | some (.unclosed rest, _) => .error rest
termination_by body.length
decreasing_by
  · exact Piece.length_rest_lt ‹_›
  · exact Piece.length_body_lt ‹_›
  · exact Piece.length_rest_lt ‹_›

def segment (body : Text) : Except Unbalanced (List Statement) :=
  (statements body).mapError fun rest => .at (utf8Length body - utf8Length rest) rest

def memberCount (body : Text) : Nat :=
  match _ : Piece.next? body with
  | none => 0
  | some (.statement text, rest) =>
      if (FieldDecl.read? text).isSome then memberCount rest + 1 else memberCount rest
  | some (.block _ _ _, rest) => memberCount rest + 1
  | some (.unclosed _, _) => 0
termination_by body.length
decreasing_by
  · exact Piece.length_rest_lt ‹_›
  · exact Piece.length_rest_lt ‹_›
  · exact Piece.length_rest_lt ‹_›

inductive Remark where
  | skipped (text : Text)
  | unsupported (kind : Kind) (text : Text)
  | unterminated (kind : Kind) (text : Text)
  | block (kind : Kind) (tag : Option Text) (memberCount : Nat)
deriving DecidableEq, Repr

namespace Remark

def ofStray (kind : Kind) (stray : Text) : List Remark :=
  if stray.isEmpty then []
  else if stray.head? = some '*' || stray.elem ',' then [.unsupported kind stray]
  else [.unterminated kind stray]

def ofBody (body : Text) : List Remark :=
  match _ : Piece.next? body with
  | none => []
  | some (.statement text, rest) =>
      if (FieldDecl.read? text).isNone then .skipped text :: ofBody rest else ofBody rest
  | some (.block decl inner stray, rest) =>
      ofBody inner ++ ofStray decl.kind stray ++
        [.block decl.kind decl.tag (memberCount inner)] ++ ofBody rest
  | some (.unclosed _, _) => []
termination_by body.length
decreasing_by
  · exact Piece.length_rest_lt ‹_›
  · exact Piece.length_rest_lt ‹_›
  · exact Piece.length_body_lt ‹_›
  · exact Piece.length_rest_lt ‹_›

end Remark

end MemberOffsets
