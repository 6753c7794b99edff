import MemberOffsets.Proofs.Declaration.Closing
import MemberOffsets.Proofs.Layout.Resolution

set_option autoImplicit false

namespace MemberOffsets

open Text

section

variable {σ : Type} {p : Profile} {responder : Responder σ} {base : Nat} {s : σ}

theorem segment_body_error {text : Text} {shell : Shell} {place : Unbalanced}
    (split : Shell.split text = .ok shell) (failed : segment shell.body = .error place) :
    place.In text := by
  by_cases shelled : shell = .bare text
  · rw [shelled] at failed
    exact segment_error failed
  · have matching := Shell.bracesMatch_body split shelled
    exact absurd (segment_error failed) (matching.not_in place)

def settle {ε α : Type} (s : σ) : Except ε (α × σ) → Except ε α × σ
  | .ok (a, s') => (.ok a, s')
  | .error e => (.error e, s)

/-- The resolution of a shell's body as an action on the state of whoever answers. Failing takes
back no question that has been asked before. -/
def Resolution.actShell (p : Profile) (responder : Responder σ) (shell : Shell) (base : Nat) :
    ExceptT Unbalanced (StateM σ) Resolution := do
  let statements ← MonadExcept.ofExcept (segment shell.body)
  let members ← modifyGet (p.sizeFields responder statements)
  return ⟨shell, members, base⟩

def Profile.actDeclaration (p : Profile) (responder : Responder σ) (text : Text) (base : Nat) :
    ExceptT Unbalanced (StateM σ) Declaration := do
  let shell ← MonadExcept.ofExcept (Shell.split (normalize text))
  let resolution ← Resolution.actShell p responder shell base
  return resolution.declaration

def Profile.actBody (p : Profile) (responder : Responder σ) (text : Text) (base : Nat) :
    ExceptT Unbalanced (StateM σ) Aggregate := do
  let resolution ← Resolution.actShell p responder (.bare (normalize text)) base
  return resolution.root

theorem run_ofExcept_bind {ε α β : Type} (x : Except ε α) (f : α → ExceptT ε (StateM σ) β) :
    (MonadExcept.ofExcept x >>= f).run s =
      match x with
      | .ok a => (f a).run s
      | .error e => (.error e, s) := by
  cases x <;> rfl

theorem run_bind_pure {ε α β : Type} {action : ExceptT ε (StateM σ) α} {outcome : Except ε (α × σ)}
    (run : action.run s = settle s outcome) (f : α → β) :
    (do return f (← action)).run s = settle s (outcome >>= fun (a, s') => .ok (f a, s')) := by
  have left : StateT.run action.run s = settle s outcome := run
  change StateT.run (action >>= fun a => pure (f a)).run s = _
  rw [ExceptT.run_bind, StateT.run_bind, left]
  cases outcome <;> rfl

theorem Resolution.run_actShell (shell : Shell) :
    (actShell p responder shell base).run s = settle s (ofShell p responder shell base s) := by
  rw [actShell, run_ofExcept_bind, ofShell]
  cases segment shell.body <;> rfl

theorem run_actDeclaration (text : Text) :
    (p.actDeclaration responder text base).run s =
      settle s (p.resolveDeclaration responder text base s) := by
  rw [Profile.actDeclaration, run_ofExcept_bind]
  simp only [Profile.resolveDeclaration, Resolution.ofText]
  cases Shell.split (normalize text) with
  | error place => rfl
  | ok shell => exact run_bind_pure (Resolution.run_actShell shell) Resolution.declaration

theorem run_actBody (text : Text) :
    (p.actBody responder text base).run s = settle s (p.resolveBody responder text base s) :=
  run_bind_pure (Resolution.run_actShell (.bare (normalize text))) Resolution.root

end

structure FailsByText {α : Type} (text : Text)
    (resolve : ∀ {σ : Type}, Profile → Responder σ → Nat → σ → Except Unbalanced (α × σ))
    (act : ∀ {σ : Type}, Profile → Responder σ → Nat → ExceptT Unbalanced (StateM σ) α) :
    Prop where
  placed {σ : Type} (p : Profile) (responder : Responder σ) (base : Nat) (s : σ) :
    ∀ place, resolve p responder base s = .error place → place.In (normalize text)
  -- The action has the outcome of the function, and where it fails, nobody has been asked.
  unasked {σ : Type} (p : Profile) (responder : Responder σ) (base : Nat) (s : σ) :
    (act p responder base).run s = settle s (resolve p responder base s)
  -- Another profile, another base offset and whoever else answers make no difference.
  alike {σ τ : Type} (p p' : Profile) (responder : Responder σ) (responder' : Responder τ)
    (base base' : Nat) (s : σ) (t : τ) : ∀ place,
    resolve p responder base s = .error place ↔ resolve p' responder' base' t = .error place
  matching : BracesMatch (stripComments text) → ∀ {σ : Type} (p : Profile)
    (responder : Responder σ) (base : Nat) (s : σ), ∃ a s', resolve p responder base s = .ok (a, s')

theorem FailsByText.of_eq_error {α : Type} {text : Text}
    {resolve : ∀ {σ : Type}, Profile → Responder σ → Nat → σ → Except Unbalanced (α × σ)}
    {act : ∀ {σ : Type}, Profile → Responder σ → Nat → ExceptT Unbalanced (StateM σ) α}
    {failure : Unbalanced → Prop} (placed : ∀ place, failure place → place.In (normalize text))
    (error : ∀ {σ : Type} (p : Profile) (responder : Responder σ) (base : Nat) (s : σ) (place),
      resolve p responder base s = .error place ↔ failure place)
    (run : ∀ {σ : Type} (p : Profile) (responder : Responder σ) (base : Nat) (s : σ),
      (act p responder base).run s = settle s (resolve p responder base s)) :
    FailsByText text resolve act where
  placed p responder base s place failed :=
    placed place ((error p responder base s place).mp failed)
  unasked := run
  alike p p' responder responder' base base' s t place := by rw [error, error]
  matching braces σ p responder base s := by
    cases outcome : resolve p responder base s with
    | ok result => exact ⟨result.1, result.2, rfl⟩
    | error place =>
      have found := placed place ((error p responder base s place).mp outcome)
      exact absurd found (braces.normalize.not_in place)

theorem failsByText_declaration (text : Text) :
    FailsByText text (fun p responder => p.resolveDeclaration responder text)
      (fun p responder => p.actDeclaration responder text) := by
  refine .of_eq_error ?_ (fun _ _ _ _ _ => resolveDeclaration_eq_error)
    (fun _ _ _ _ => run_actDeclaration text)
  rintro place (split | ⟨shell, split, segmented⟩)
  · exact Shell.split_error split
  · exact segment_body_error split segmented

theorem failsByText_body (text : Text) :
    FailsByText text (fun p responder => p.resolveBody responder text)
      (fun p responder => p.actBody responder text) :=
  .of_eq_error (fun _ => segment_error) (fun _ _ _ _ _ => resolveBody_eq_error)
    (fun _ _ _ _ => run_actBody text)

/-- Segmentation and both resolutions fail only at a brace that nothing closes, in the text that
they are given; the bodies that they cut out are always segmented. -/
theorem resolution_failures (text : Text) :
    (∀ place, segment text = .error place → place.In text) ∧ segmentFrom 0 text = segment text ∧
    (BracesMatch text → ∃ ms, segment text = .ok ms) ∧
    FailsByText text (fun p responder => p.resolveDeclaration responder text)
      (fun p responder => p.actDeclaration responder text) ∧
    FailsByText text (fun p responder => p.resolveBody responder text)
      (fun p responder => p.actBody responder text) ∧
    (∀ b inner stray rest, Piece.next? text = some (.block b inner stray, rest) →
      ∃ ms, segment inner = .ok ms) ∧
    ∀ shell, Shell.split text = .ok shell → shell ≠ .bare text →
      ∃ ms, segment shell.body = .ok ms := by
  refine ⟨fun _ => segment_error, segmentFrom_zero text, segment_of_bracesMatch,
    failsByText_declaration text, failsByText_body text, ?_, ?_⟩
  · intro b inner stray rest next
    exact segment_of_bracesMatch (Piece.bracesMatch_block next)
  · intro shell split shelled
    exact segment_of_bracesMatch (Shell.bracesMatch_body split shelled)

-- A union that nothing closes behind a field, and a declaration whose braces match.
theorem resolution_failures_unclosed :
    let text := "INT a;union\x7bINT b;".toList
    let place : Unbalanced := ⟨11, "\x7bINT b;".toList⟩
    let responder := Responder.ofFunctions (fun _ => .notFound) (fun _ _ => none) (fun _ => false)
    segment text = .error place ∧ place.In text ∧
      Profile.x64.resolveBody responder text 0 () = .error place ∧ place.In (normalize text) ∧
      (Profile.x64.actBody responder text 8).run () = (.error place, ()) ∧
      BracesMatch (stripComments nestedText) ∧
      (∃ d s', Profile.x64.resolveDeclaration responder nestedText 0 () = .ok (d, s')) ∧
      Shell.split nestedText = .ok nestedShell ∧ nestedShell ≠ .bare nestedText ∧
      ∃ ms, segment nestedShell.body = .ok ms := by
  intro text place responder
  have field : Piece.next? text =
      some (.statement "INT a".toList, "union\x7bINT b;".toList) := by decide
  have union : Piece.next? "union\x7bINT b;".toList = some (.unclosed "\x7bINT b;".toList, []) := by
    decide
  have failed : segment text = .error place := by
    rw [segment, statements_statement field, statements_unclosed union]
    rfl
  have normal : normalize text = text := by decide
  obtain ⟨placed, -, -, -, body, -, -⟩ := resolution_failures text
  have bodyFailed : Profile.x64.resolveBody responder text 0 () = .error place := by
    rw [resolveBody_eq_error, normal, failed]
  have elsewhere :=
    (body.alike Profile.x64 Profile.x64 responder responder 0 8 () () place).mp bodyFailed
  have unasked := body.unasked Profile.x64 responder 8 ()
  rw [elsewhere] at unasked
  have matching : BracesMatch (stripComments nestedText) := by decide
  have split : Shell.split nestedText = .ok nestedShell := by decide
  have shelled : nestedShell ≠ .bare nestedText := by decide
  obtain ⟨-, -, -, declaration, -, -, shell⟩ := resolution_failures nestedText
  exact ⟨failed, placed place failed, bodyFailed,
    body.placed Profile.x64 responder 0 () place bodyFailed, unasked, matching,
    declaration.matching matching Profile.x64 responder 0 (), split, shelled,
    shell nestedShell split shelled⟩

end MemberOffsets
