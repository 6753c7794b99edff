import MemberOffsets.Proofs.Declaration.Closing
import MemberOffsets.Proofs.Declaration.Plain

set_option autoImplicit false

namespace MemberOffsets

open Text

namespace Shell

theorem ne_bare {text : Text} {shell : Shell} (shelled : shell.opening ≠ []) :
    shell ≠ bare text := fun same => shelled (same ▸ rfl)

theorem split_cut {before body after : Text} (braceless : '{' ∉ before) (single : ';' ∉ before)
    (closed : splitAtClose 0 (body ++ '}' :: after) = some (body, after)) :
    split (before ++ '{' :: (body ++ '}' :: after)) =
      .ok (if allBlank (cutAt ';' after).2 then enclosing before body after
        else bare (before ++ '{' :: (body ++ '}' :: after))) := by
  rw [split_first braceless, if_neg single, closed]

theorem collapse_opening {before : Text} (braceless : '{' ∉ before) (single : ';' ∉ before) :
    ∃ s, collapse (before ++ ['{']) = s ++ ['{'] ∧ '{' ∉ s ∧ ';' ∉ s := by
  have brace : isBlank '{' = false := by decide
  have full : collapse (before ++ ['{']) ≠ [] := collapse_ne_nil (by simp [allBlank, brace])
  obtain ⟨s, c, same⟩ : ∃ s c, collapse (before ++ ['{']) = s ++ [c] :=
    ⟨_, _, (List.dropLast_concat_getLast full).symm⟩
  have dark : isBlank c = false := (collapse_dark (before ++ ['{'])).2 c (by simp [same])
  have squashed := squash_collapse (before ++ ['{'])
  have last (d : Char) (dark : isBlank d = false) : squash [d] = [d] := by simp [squash, dark]
  rw [same, squash_append, squash_append, last c dark, last '{' brace] at squashed
  obtain ⟨start, ends⟩ := List.append_inj' squashed rfl
  obtain rfl : c = '{' := by simpa using ends
  have absent (d : Char) (dark : isBlank d = false) (unused : d ∉ before) : d ∉ s := by
    intro member
    have kept : d ∈ squash before := start ▸ mem_squash.mpr ⟨member, dark⟩
    exact unused (mem_squash.mp kept).1
  exact ⟨s, same, absent '{' brace braceless, absent ';' (by decide) single⟩

theorem collapse_closing (after : Text) :
    ∃ s, collapse ('}' :: after) = '}' :: s ∧ squash s = squash after := by
  have brace : isBlank '}' = false := by decide
  have full : collapse ('}' :: after) ≠ [] := collapse_ne_nil (by simp [allBlank, brace])
  obtain ⟨c, s, same⟩ := List.exists_cons_of_ne_nil full
  have dark : isBlank c = false := (collapse_dark ('}' :: after)).1 c (by simp [same])
  have squashed := squash_collapse ('}' :: after)
  rw [same] at squashed
  simp only [squash, List.filter_cons, dark, brace, Bool.not_false, if_true, List.cons.injEq]
    at squashed
  exact ⟨s, squashed.1 ▸ same, squashed.2⟩

theorem split_exchange {text : Text} {shell : Shell} (read : split text = .ok shell)
    (shelled : shell.opening ≠ []) {body : Text}
    (closes : ∀ t, splitAtClose 0 (body ++ '}' :: t) = some (body, t)) :
    split (shell.opening ++ body ++ shell.closing) = .ok { shell with body } := by
  obtain ⟨before, old, after, -, braceless, single, -, blank, rfl⟩ :=
    split_eq_enclosing read (ne_bare shelled)
  obtain ⟨s, opening, braceless', single'⟩ := collapse_opening braceless single
  obtain ⟨t, closing, squashed⟩ := collapse_closing after
  have blank' : allBlank (cutAt ';' t).2 = true := by
    rw [← squash_eq_nil, squash_cutAt (by decide)] at blank ⊢
    rwa [squashed]
  have shape : (enclosing before old after).opening ++ body ++
      (enclosing before old after).closing = s ++ '{' :: (body ++ '}' :: t) := by
    simp [enclosing, opening, closing]
  rw [shape, split_cut braceless' single' (closes t), if_pos blank', enclosing,
    enclosing, ← opening, ← closing, collapse_collapse, collapse_collapse]

theorem codeLines_split {text : Text} (free : CommentFree text) {shell : Shell}
    (read : split text = .ok shell) (shelled : shell.opening ≠ []) :
    CodeLine shell.opening ∧ CommentFree shell.body ∧ CodeLine shell.closing := by
  obtain ⟨before, body, after, rfl, -, -, -, -, rfl⟩ := split_eq_enclosing read (ne_bare shelled)
  have opening : before ++ ['{'] <:+: before ++ '{' :: (body ++ '}' :: after) :=
    ⟨[], body ++ '}' :: after, by simp⟩
  have inner : body <:+: before ++ '{' :: (body ++ '}' :: after) :=
    ⟨before ++ ['{'], '}' :: after, by simp⟩
  have closing : '}' :: after <:+: before ++ '{' :: (body ++ '}' :: after) :=
    ⟨before ++ '{' :: body, [], by simp⟩
  obtain ⟨s, closed, -⟩ := collapse_closing after
  refine ⟨.collapse (free.part opening) shelled, free.part inner, ?_⟩
  exact .collapse (free.part closing) (by simp [closed])

def NeverClosed (text : Text) : Prop :=
  ∃ before behind, text = before ++ '{' :: behind ∧ '{' ∉ before ∧ ';' ∉ before ∧
    StaysOpen 0 behind

inductive IsBody : Text → Prop
  | braceless {text : Text} : '{' ∉ text → IsBody text
  | preceded {before : Text} (behind : Text) :
      '{' ∉ before → ';' ∈ before → IsBody (before ++ '{' :: behind)
  | followed {before body front rest : Text} :
      '{' ∉ before → BracesMatch body → ';' ∉ front → allBlank rest = false →
        IsBody (before ++ '{' :: (body ++ '}' :: (front ++ ';' :: rest)))

structure Encloses (text before body after : Text) : Prop where
  whole : text = before ++ '{' :: (body ++ '}' :: after)
  first : '{' ∉ before
  single : ';' ∉ before
  matching : BracesMatch body
  last : allBlank (cutAt ';' after).2 = true

theorem neverClosed_or_isBody_or_encloses (text : Text) :
    NeverClosed text ∨ IsBody text ∨ ∃ before body after, Encloses text before body after := by
  by_cases brace : '{' ∈ text
  · obtain ⟨before, behind, rfl, first⟩ := List.eq_append_cons_of_mem brace
    by_cases statement : ';' ∈ before
    · exact .inr (.inl (.preceded behind first statement))
    · cases closed : splitAtClose 0 behind with
      | none => exact .inl ⟨before, behind, rfl, first, statement, splitAtClose_eq_none.mp closed⟩
      | some found =>
        obtain ⟨body, after⟩ := found
        have matching := bracesMatch_of_splitAtClose closed
        obtain rfl := append_of_splitAtClose closed
        have encloses (last : allBlank (cutAt ';' after).2 = true) :
            ∃ before' body' after', Encloses (before ++ '{' :: (body ++ '}' :: after))
              before' body' after' :=
          ⟨before, body, after, rfl, first, statement, matching, last⟩
        by_cases terminated : ';' ∈ after
        · obtain ⟨front, rest, rfl, terminator⟩ := List.eq_append_cons_of_mem terminated
          rw [cutAt_append terminator] at encloses
          cases blank : allBlank rest with
          | true => exact .inr (.inr (encloses blank))
          | false => exact .inr (.inl (.followed first matching terminator blank))
        · rw [cutAt_absent terminated] at encloses
          exact .inr (.inr (encloses rfl))
  · exact .inr (.inl (.braceless brace))

theorem NeverClosed.split {text : Text} (never : NeverClosed text) :
    ∃ place, Shell.split text = .error place := by
  obtain ⟨before, behind, rfl, first, single, stays⟩ := never
  rw [split_first first, if_neg single, splitAtClose_eq_none.mpr stays]
  exact ⟨_, rfl⟩

theorem IsBody.split {text : Text} (isBody : IsBody text) :
    Shell.split text = .ok (bare text) := by
  cases isBody with
  | braceless absent => exact split_braceless absent
  | preceded behind first statement => rw [split_first first, if_pos statement]
  | @followed before body front rest first matching terminator statement =>
    by_cases preceded : ';' ∈ before
    · rw [split_first first, if_pos preceded]
    · rw [split_cut first preceded (matching.splitAtClose _), cutAt_append terminator, statement]
      rfl

section Encloses

variable {text before body after : Text}

theorem Encloses.split (encloses : Encloses text before body after) :
    Shell.split text = .ok (enclosing before body after) := by
  rw [encloses.whole, split_cut encloses.first encloses.single (encloses.matching.splitAtClose _),
    if_pos encloses.last]

theorem Encloses.split_ne_bare (encloses : Encloses text before body after) :
    Shell.split text ≠ .ok (bare text) := by
  intro same
  have empty := congrArg Shell.opening (Except.ok.inj (encloses.split.symm.trans same))
  exact opening_enclosing before body after empty

theorem Encloses.split_again (encloses : Encloses text before body after) :
    Shell.split ((enclosing before body after).opening ++ body ++
      (enclosing before body after).closing) = .ok (enclosing before body after) :=
  split_exchange encloses.split (opening_enclosing before body after)
    encloses.matching.splitAtClose

end Encloses

/-- A text is an error, a bare body or a shell around a body, and where its first brace, its first
semicolon and the closing brace stand tells which. A shell shows the whole text, blanks apart. -/
theorem split_exact (text : Text) :
    ((∃ place, Shell.split text = .error place) ↔ NeverClosed text) ∧
      (Shell.split text = .ok ⟨[], text, [], .struct, none⟩ ↔ IsBody text) ∧
        (¬ NeverClosed text → ¬ IsBody text → ∃ (shell : Shell) (before after : Text),
          Shell.split text = .ok shell ∧
            text = (before ++ ['{']) ++ shell.body ++ '}' :: after ∧ '{' ∉ before ∧
              BracesMatch shell.body ∧ shell.opening = collapse (before ++ ['{']) ∧
                shell.closing = collapse ('}' :: after) ∧
                  Shell.split (shell.opening ++ shell.body ++ shell.closing) = .ok shell) := by
  have kinds := neverClosed_or_isBody_or_encloses text
  refine ⟨⟨?_, NeverClosed.split⟩, ⟨?_, IsBody.split⟩, ?_⟩
  · rintro ⟨place, failed⟩
    rcases kinds with never | isBody | ⟨before, body, after, encloses⟩
    · exact never
    · rw [isBody.split] at failed
      contradiction
    · rw [encloses.split] at failed
      contradiction
  · intro read
    rcases kinds with never | isBody | ⟨before, body, after, encloses⟩
    · obtain ⟨place, failed⟩ := never.split
      rw [failed] at read
      contradiction
    · exact isBody
    · exact absurd read encloses.split_ne_bare
  · intro closed shelled
    obtain ⟨before, body, after, encloses⟩ := (kinds.resolve_left closed).resolve_left shelled
    refine ⟨enclosing before body after, before, after, encloses.split, ?_, encloses.first,
      encloses.matching, rfl, rfl, encloses.split_again⟩
    rw [encloses.whole]
    simp [enclosing]

-- A declaration whose ends span two lines, a block in its body.
def typedefText : Text :=
  "typedef struct\n _X \x7b struct \x7b INT a; \x7d u; \x7d X,\n *PX;".toList

def typedefShell : Shell :=
  ⟨"typedef struct _X \x7b".toList, " struct \x7b INT a; \x7d u; ".toList,
    "\x7d X, *PX;".toList, .struct, some "_X".toList⟩

theorem split_typedefText : Shell.split typedefText = .ok typedefShell := by decide

theorem split_exact_typedef :
    ¬ NeverClosed typedefText ∧ ¬ IsBody typedefText ∧
      Shell.split (typedefShell.opening ++ typedefShell.body ++ typedefShell.closing) =
        .ok typedefShell := by
  obtain ⟨failing, isBody, cut⟩ := split_exact typedefText
  have closed : ¬ NeverClosed typedefText := by
    rw [← failing, split_typedefText]
    rintro ⟨place, failed⟩
    contradiction
  have shelled : ¬ IsBody typedefText := by
    rw [← isBody, split_typedefText]
    decide
  obtain ⟨shell, before, after, read, -, -, -, -, -, again⟩ := cut closed shelled
  obtain rfl : typedefShell = shell := Except.ok.inj (split_typedefText.symm.trans read)
  exact ⟨closed, shelled, again⟩

end Shell

end MemberOffsets
