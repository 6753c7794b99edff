import MemberOffsets.Declaration.Source
import MemberOffsets.Declaration.Statement

set_option autoImplicit false

namespace MemberOffsets

open Text

/-- The text behind blanks and `[[…]]` attributes; `inside` tells whether it starts within one. An
attribute ends at its first `]`, and there is no text if that one is single. -/
def dropAttributes? : (inside : Bool) → Text → Option Text
  | false, [] => some []
  | true, [] => none
  | false, '[' :: '[' :: r => dropAttributes? true r
  | false, c :: r => if isBlank c then dropAttributes? false r else some (c :: r)
  | true, ']' :: ']' :: r => dropAttributes? false r
  | true, c :: r => if c = ']' then none else dropAttributes? true r

theorem length_of_dropAttributes? {inside : Bool} {s r : Text}
    (h : dropAttributes? inside s = some r) : r.length ≤ s.length := by
  fun_induction dropAttributes? inside s with
  | case1 => simp_all
  | case2 => simp at h
  | case3 s ih => simpa using Nat.le_succ_of_le (Nat.le_succ_of_le (ih h))
  | case4 c s hc hb ih => simpa using Nat.le_succ_of_le (ih h)
  | case5 c s hc hb => simp_all
  | case6 s ih => simpa using Nat.le_succ_of_le (Nat.le_succ_of_le (ih h))
  | case7 => simp at h
  | case8 c s hc hb ih => simpa using Nat.le_succ_of_le (ih h)

structure BlockHeader where
  kind : Kind
  tag : Option Text
deriving DecidableEq, Repr

namespace BlockHeader

def keyword? (s : Text) : Option (Kind × Text) :=
  [Kind.struct, Kind.union].findSome? fun kind => (dropStart? kind.keyword s).map (kind, ·)

def splitTag : Text → Option Text × Text
  | [] => (none, [])
  | c :: r =>
      if isIdentStart c then (some (c :: r.takeWhile isIdentChar), r.dropWhile isIdentChar)
      else (none, c :: r)

def read? (s : Text) : Option (BlockHeader × Text) := do
  let (kind, r) ← keyword? s
  if r.head?.any isWordChar then none
  else
    let r ← dropAttributes? false r
    let (tag, r) := splitTag r
    match trimStart r with
    | '{' :: r => some (⟨kind, tag⟩, r)
    | _ => none

theorem length_of_splitTag (s : Text) : (splitTag s).2.length ≤ s.length := by
  cases s with
  | nil => simp [splitTag]
  | cons c r =>
      simp only [splitTag]
      split
      · have := (List.dropWhile_sublist (l := r) isIdentChar).length_le
        simp only [List.length_cons]
        omega
      · simp

theorem length_of_keyword? {s r : Text} {kind : Kind} (h : keyword? s = some (kind, r)) :
    r.length < s.length := by
  obtain ⟨k, -, hk⟩ := List.exists_of_findSome?_eq_some h
  obtain ⟨t, ht, he⟩ := Option.map_eq_some_iff.mp hk
  simp only [Prod.mk.injEq] at he
  obtain ⟨rfl, rfl⟩ := he
  have hpos : 0 < k.keyword.length := by cases k <;> decide
  have := congrArg List.length (append_of_dropStart? ht)
  simp only [List.length_append] at this
  omega

theorem length_of_read? {s r : Text} {header : BlockHeader} (h : read? s = some (header, r)) :
    r.length < s.length := by
  simp only [read?, Option.bind_eq_bind, Option.bind_eq_some_iff] at h
  obtain ⟨⟨kind, s₁⟩, h₁, h⟩ := h
  split at h
  · simp at h
  · obtain ⟨s₂, h₂, h⟩ := Option.bind_eq_some_iff.mp h
    have l₁ := length_of_keyword? h₁
    have l₂ : s₂.length ≤ s₁.length := length_of_dropAttributes? h₂
    have l₃ := length_of_splitTag s₂
    have l₄ := length_trimStart_le (splitTag s₂).2
    split at h
    · rename_i heq
      simp only [Option.some.injEq, Prod.mk.injEq] at h
      obtain ⟨-, rfl⟩ := h
      simp only [heq, List.length_cons] at l₄
      omega
    · simp at h

end BlockHeader

/-- What follows a closing brace. `stray` is text that stands there and is no declarator; it is left
to the next statement, as a missing `;` would leave it. -/
structure BlockTail where
  declarator : Option Declarator
  stray : Text
  rest : Text
deriving DecidableEq, Repr

def BlockTail.read (after : Text) : BlockTail :=
  let (before, rest) := cutAt ';' after
  let candidate := trim before
  if candidate.isEmpty then ⟨none, [], rest⟩
  else
    match Declarator.read? candidate with
    | some d => ⟨some d, [], rest⟩
    | none => ⟨none, candidate, after⟩

theorem BlockTail.length_read_rest_le (after : Text) : (read after).rest.length ≤ after.length := by
  have := length_cutAt_snd_le ';' after
  simp only [read]
  split
  · exact this
  · split
    · exact this
    · exact Nat.le_refl _

def BlockHeader.atEnd? (afterWord : Bool) : Text → Option BlockHeader
  | [] => none
  | c :: r =>
      match if afterWord then none else read? (c :: r) with
      | some (header, rest) => if allBlank rest then some header else atEnd? (isWordChar c) r
      | none => atEnd? (isWordChar c) r

structure Shell where
  opening : Text
  body : Text
  closing : Text
  kind : Kind
  tag : Option Text
deriving DecidableEq, Repr

namespace Shell

def bare (text : Text) : Shell := ⟨[], text, [], .struct, none⟩

def enclosing (before body after : Text) : Shell :=
  let opening := collapse (before ++ ['{'])
  let header := (BlockHeader.atEnd? false opening).getD ⟨.struct, none⟩
  ⟨opening, body, collapse ('}' :: after), header.kind, header.tag⟩

/-- A statement before the first brace, or one after the brace that closes it, makes the text a bare
body. -/
def split (text : Text) : Except Unbalanced Shell :=
  let before := text.takeWhile (· != '{')
  match text.dropWhile (· != '{') with
  | [] => .ok (bare text)
  | brace :: opened =>
      if before.elem ';' then .ok (bare text)
      else
        match splitAtClose 0 opened with
        | none => .error (.at (utf8Length before) (brace :: opened))
        | some (body, after) =>
            if allBlank (cutAt ';' after).2 then .ok (enclosing before body after)
            else .ok (bare text)

end Shell

end MemberOffsets
