import MemberOffsets.Proofs.Checked.Comments
import MemberOffsets.Proofs.Checked.Segments
import MemberOffsets.Proofs.Checked.TypeNames

set_option autoImplicit false

namespace MemberOffsets.Checked

open Text

def behindSemicolon (text : Text) : Checked Text := do
  match find? [';'] text with
  | some semicolon => slice text (semicolon + 1) (utf8Length text)
  | none => return []

def splitShell (text : Text) : Checked (Except Unbalanced Shell) := do
  match find? ['{'] text with
  | none => return .ok (.bare text)
  | some opening =>
      if (← slice text 0 opening).elem ';' then return .ok (.bare text)
      else
        match ← matchBrace text opening with
        | .error place => return .error place
        | .ok closing =>
            let size := utf8Length text
            let later ← behindSemicolon (← slice text (closing + 1) size)
            if !(trim later).isEmpty then return .ok (.bare text)
            else
              let front := collapse (← slice text 0 (opening + 1))
              let header := (BlockHeader.atEnd? false front).getD ⟨.struct, none⟩
              let body ← slice text (opening + 1) closing
              let back := collapse (← slice text closing size)
              return .ok ⟨front, body, back, header.kind, header.tag⟩

theorem behindSemicolon_eq (text : Text) : behindSemicolon text = .ok (cutAt ';' text).2 := by
  rw [behindSemicolon]
  rcases find?_cases ';' text with ⟨absent, missing⟩ | ⟨front, rest, rfl, absent, found⟩
  · rw [missing, cutAt_absent absent]
    rfl
  · rw [found, cutAt_append absent]
    have parts : front ++ ';' :: rest = (front ++ [';']) ++ rest := by simp
    exact slice_end parts (by rw [utf8Length_append]; rfl)

theorem splitShell_eq (text : Text) : splitShell text = .ok (Shell.split text) := by
  rw [splitShell]
  rcases find?_cases '{' text with ⟨absent, missing⟩ | ⟨before, behind, rfl, absent, found⟩
  · rw [missing, Shell.split_braceless absent]
    rfl
  · have front : slice (before ++ '{' :: behind) 0 (utf8Length before) = .ok before :=
      slice_front rfl rfl
    rw [found, Shell.split_first absent]
    simp only [front, ok_bind, List.elem_eq_mem, decide_eq_true_eq, matchBrace_eq,
      matchBrace_here]
    by_cases several : ';' ∈ before
    · rw [if_pos several, if_pos several]
      rfl
    · rw [if_neg several, if_neg several]
      cases closed : splitAtClose 0 behind with
      | none => rfl
      | some parts =>
        obtain ⟨body, after⟩ := parts
        have whole : before ++ '{' :: behind = before ++ '{' :: (body ++ '}' :: after) := by
          rw [append_of_splitAtClose closed]
        have parts : before ++ '{' :: behind = (before ++ ['{']) ++ behind := by simp
        have opened : slice (before ++ '{' :: behind) 0 (utf8Length before + 1) =
            .ok (before ++ ['{']) := slice_front parts (by rw [utf8Length_append]; rfl)
        simp only [slice_behind whole, slice_inside whole, slice_closing whole, opened,
          behindSemicolon_eq, ok_bind, isEmpty_trim]
        cases allBlank (cutAt ';' after).2 <;> rfl

/-- No check ever fails, whatever characters a text holds: each slice lies between two boundaries of
characters, no difference of positions or depths is negative, each pass of a loop leaves less than
it found, and the texts of nested blocks are shorter than the text around them. What comes out is
what the functions on characters give. -/
theorem never_traps (text : Text) :
    stripComments text = .ok (MemberOffsets.stripComments text) ∧
      (∀ start, matchBrace text start = .ok (MemberOffsets.matchBrace text start)) ∧
      segment text = .ok (MemberOffsets.segment text) ∧
      splitField text = .ok (FieldDecl.read? text) ∧
      splitShell text = .ok (Shell.split text) ∧
      bareType text = .ok (MemberOffsets.bareType text) :=
  ⟨stripComments_eq text, matchBrace_eq text, segment_eq text, splitField_eq text,
    splitShell_eq text, bareType_eq text⟩

end MemberOffsets.Checked
