import MemberOffsets.Text.Basic

set_option autoImplicit false

namespace MemberOffsets

open Text

inductive Zone where
  | code
  | lineComment
  | blockComment
deriving DecidableEq, Repr

-- A block comment leaves one space, so that the tokens on either side stay apart. One that is never
-- closed takes the rest.
def stripFrom : Zone → Text → Text
  | _, [] => []
  | .code, '/' :: '/' :: r => stripFrom .lineComment r
  | .code, '/' :: '*' :: r => ' ' :: stripFrom .blockComment r
  | .code, c :: r => c :: stripFrom .code r
  | .lineComment, '\n' :: r => '\n' :: stripFrom .code r
  | .lineComment, _ :: r => stripFrom .lineComment r
  | .blockComment, '*' :: '/' :: r => stripFrom .code r
  | .blockComment, _ :: r => stripFrom .blockComment r

def stripComments (text : Text) : Text := stripFrom .code text

def tidyLines (text : Text) : Text :=
  unlines (((lines text).map trim).filter (!·.isEmpty))

def normalize (text : Text) : Text := tidyLines (stripComments text)

/-- A brace that nothing closes, or a place from which on there is none to close: its byte offset,
and the text from there cut to a preview. -/
structure Unbalanced where
  start : Nat
  span : Text
deriving DecidableEq, Repr

def previewLength : Nat := 48

def Unbalanced.at (start : Nat) (rest : Text) : Unbalanced := ⟨start, rest.take previewLength⟩

/-- Cuts the text behind an opening brace at the brace that closes it; `depth` braces are open
besides. -/
def splitAtClose : Nat → Text → Option (Text × Text)
  | _, [] => none
  | depth, c :: r =>
      if c = '}' then
        match depth with
        | 0 => some ([], r)
        | d + 1 => (splitAtClose d r).map fun (body, after) => (c :: body, after)
      else if c = '{' then (splitAtClose (depth + 1) r).map fun (body, after) => (c :: body, after)
      else (splitAtClose depth r).map fun (body, after) => (c :: body, after)

theorem append_of_splitAtClose {depth : Nat} {s body after : Text}
    (h : splitAtClose depth s = some (body, after)) : body ++ '}' :: after = s := by
  induction s generalizing depth body with
  | nil => simp [splitAtClose] at h
  | cons c r ih =>
      simp only [splitAtClose] at h
      split at h
      · subst c
        cases depth with
        | zero => simp_all
        | succ d =>
            obtain ⟨p, hp, he⟩ := Option.map_eq_some_iff.mp h
            simp only [Prod.mk.injEq] at he
            obtain ⟨rfl, rfl⟩ := he
            simp [ih hp]
      · split at h
        all_goals
          obtain ⟨p, hp, he⟩ := Option.map_eq_some_iff.mp h
          simp only [Prod.mk.injEq] at he
          obtain ⟨rfl, rfl⟩ := he
          simp [ih hp]

theorem length_of_splitAtClose {depth : Nat} {s body after : Text}
    (h : splitAtClose depth s = some (body, after)) :
    body.length < s.length ∧ after.length < s.length := by
  have := congrArg List.length (append_of_splitAtClose h)
  simp only [List.length_append, List.length_cons] at this
  omega

def matchBrace (text : Text) (start : Nat) : Except Unbalanced Nat :=
  match dropBytes? start text with
  | none => .error ⟨start, []⟩
  | some rest =>
      match rest.dropWhile (· != '{') with
      | [] => .error (.at start rest)
      | brace :: r =>
          let first := start + utf8Length (rest.takeWhile (· != '{'))
          match splitAtClose 0 r with
          | some (body, _) => .ok (first + 1 + utf8Length body)
          | none => .error (.at first (brace :: r))

end MemberOffsets
