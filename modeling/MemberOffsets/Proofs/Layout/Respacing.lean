import MemberOffsets.Proofs.Declaration.Respacing
import MemberOffsets.Proofs.Layout.Resolution

set_option autoImplicit false

namespace MemberOffsets

open Text

theorem respaced_normalize {t t' : Text} (free : CommentFree t) (free' : CommentFree t')
    (same : words t = words t') : Respaced (normalize t) (normalize t') := by
  apply respaced_of_words (normalize_dark t) (normalize_dark t')
  rw [normalize, normalize, words_tidyLines, words_tidyLines, stripComments_eq_self free,
    stripComments_eq_self free', same]

section

variable {σ : Type} (p : Profile) (responder : Responder σ) (base : Nat) (s : σ)

-- The sources of the blocks differ, and nothing else does.
theorem Resolution.ofShell_respaced {x y : Shell} (alike : x.Alike y) :
    Option.Rel (fun a b => a.1.declaration = b.1.declaration ∧ a.2 = b.2)
      (ofShell p responder x base s).toOption (ofShell p responder y base s).toOption := by
  obtain ⟨body, rfl, spaced⟩ := alike
  simp only [ofShell, toOption_bind]
  apply rel_bind (segment_respaced spaced)
  intro ms ms' same
  obtain ⟨members, state⟩ := sizeFields_congr p responder same s
  refine .some ⟨?_, state⟩
  simp only [declaration, root, rootDecl]
  rw [placeBlock_congr members]

theorem resolveDeclaration_respaced {t t' : Text}
    (spaced : Respaced (normalize t) (normalize t')) :
    (p.resolveDeclaration responder t base s).toOption =
      (p.resolveDeclaration responder t' base s).toOption := by
  have resolutions := rel_bind (Shell.split_respaced spaced) fun _ _ alike =>
    Resolution.ofShell_respaced p responder base s alike
  simp only [Profile.resolveDeclaration, Resolution.ofText, toOption_bind]
  apply bind_eq_of_rel resolutions
  rintro ⟨r, s₁⟩ ⟨r', s₂⟩ ⟨same, rfl⟩
  rw [same]

theorem resolveBody_respaced {t t' : Text} (spaced : Respaced (normalize t) (normalize t')) :
    (p.resolveBody responder t base s).toOption = (p.resolveBody responder t' base s).toOption := by
  have bare : (Shell.bare (normalize t)).Alike (.bare (normalize t')) := ⟨_, rfl, spaced⟩
  simp only [Profile.resolveBody, toOption_bind]
  apply bind_eq_of_rel (Resolution.ofShell_respaced p responder base s bare)
  rintro ⟨r, s₁⟩ ⟨r', s₂⟩ ⟨same, rfl⟩
  have roots : r.root = r'.root := congrArg Declaration.root same
  rw [roots]

end

/-- Two texts without comments and with the same words are resolved to the same declaration and to
the same body, or both to none. -/
theorem resolve_respaced {σ : Type} (p : Profile) (responder : Responder σ) (t t' : Text)
    (base : Nat) (s : σ) (free : ¬ ['/', '/'] <:+: t ∧ ¬ ['/', '*'] <:+: t)
    (free' : ¬ ['/', '/'] <:+: t' ∧ ¬ ['/', '*'] <:+: t') (same : words t = words t') :
    (p.resolveDeclaration responder t base s).toOption =
        (p.resolveDeclaration responder t' base s).toOption ∧
      (p.resolveBody responder t base s).toOption =
        (p.resolveBody responder t' base s).toOption := by
  have spaced := respaced_normalize (.of_marks free.1 free.2) (.of_marks free'.1 free'.2) same
  exact ⟨resolveDeclaration_respaced p responder base s spaced,
    resolveBody_respaced p responder base s spaced⟩

-- The nested declaration in one line, and over several lines with other blanks.
theorem resolve_respaced_nested :
    let responder := Responder.ofFunctions (fun _ => .notFound) (fun _ _ => none) (fun _ => false)
    let text :=
      "\nstruct\r\n\tS\x7bunion\x7bINT\u00a0a;CHAR \u3000 b;\x7du[2];INT\u2028c[3];\x7d; ".toList
    words nestedText = words text ∧
    ∃ d, Profile.x64.resolveDeclaration responder nestedText 8 () = .ok (d, ()) ∧
      Profile.x64.resolveDeclaration responder text 8 () = .ok (d, ()) := by
  intro responder text
  have same : words nestedText = words text := by decide
  have alike := (resolve_respaced Profile.x64 responder nestedText text 8 () (by decide) (by decide)
    same).1
  obtain ⟨d, resolved⟩ : ∃ d, Profile.x64.resolveDeclaration responder nestedText 8 () =
      .ok (d, ()) :=
    ⟨_, resolveDeclaration_eq_ok.mpr ⟨_, Resolution.ofText_nestedText, rfl⟩⟩
  refine ⟨same, d, resolved, ?_⟩
  rw [resolved] at alike
  cases other : Profile.x64.resolveDeclaration responder text 8 () with
  | error place =>
    rw [other] at alike
    contradiction
  | ok result =>
    rw [other] at alike
    exact congrArg Except.ok (Option.some.inj alike).symm

end MemberOffsets
