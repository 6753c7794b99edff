import MemberOffsets.Proofs.Layout.Placement
import MemberOffsets.Proofs.Layout.Resolution

set_option autoImplicit false

namespace MemberOffsets

open Text

theorem elementCount_of_literal {dims : List Text} {n : Nat}
    (literal : literalProduct? dims = some n) :
    elementCount dims = .ok (min n wordMax) := by
  have folded := foldlM_countDim dims 1
  have one : min 1 wordMax = 1 := by decide
  rw [one, literal] at folded
  simpa [elementCount] using ok_of_toOption folded

/-- The node that a field of `extent` bytes should have: it takes them all or, where they would pass
the end of the range, none. -/
def FieldDecl.exactAt (d : FieldDecl) (offset extent : Nat) : FieldNode :=
  if offset + extent ≤ wordMax then ⟨d.type, d.name, extent, offset + extent, .resolved⟩
  else ⟨d.type, d.name, 0, offset, .unresolved .offsetOverflow⟩

-- Cutting the bytes at the largest word makes too many of them fit, but only behind nothing.
theorem FieldDecl.exactAt_min_iff (d : FieldDecl) (offset extent : Nat) :
    d.exactAt offset (min extent wordMax) = d.exactAt offset extent ↔
      0 < offset ∨ extent ≤ wordMax := by
  by_cases small : extent ≤ wordMax
  · rw [Nat.min_eq_left small]
    simp [small]
  · have cut : min extent wordMax = wordMax := by omega
    have past : ¬ offset + extent ≤ wordMax := by omega
    rw [cut, exactAt, exactAt, if_neg past]
    by_cases first : offset = 0
    · simp [first, small]
    · have beyond : ¬ offset + wordMax ≤ wordMax := by omega
      simp [beyond, Nat.pos_of_ne_zero first]

namespace SizedField

variable {f : SizedField} {sizing : Sizing} {n : Nat}

theorem extent_of_literal (sized : f.sizing = .ok sizing)
    (literal : literalProduct? f.decl.dims = some n) :
    f.extent = (min (sizing.width * n) wordMax, .resolved) := by
  rw [extent, sized]
  simp only [elementCount_of_literal literal, min_mul_min_right sizing.width n le_rfl]

theorem placeAt_of_literal (sized : f.sizing = .ok sizing)
    (literal : literalProduct? f.decl.dims = some n) (offset : Nat) :
    f.placeAt offset = f.decl.exactAt offset (min (sizing.width * n) wordMax) := by
  rw [placeAt, extent_of_literal sized literal]
  rfl

end SizedField

theorem Profile.resolveStatement_of_width {σ : Type} {p : Profile} {responder : Responder σ}
    {d : FieldDecl} {s : σ} {w n : Nat} (sized : (p.width responder d.type s).1 = .ok w)
    (literal : literalProduct? d.dims = some n) (offset : Nat) :
    p.resolveStatement responder (.field d) offset s =
      .field (d.exactAt offset (min (w * n) wordMax)) := by
  rw [Profile.width] at sized
  simp only [resolveStatement, MemberTree.traverse, place, sizeField]
  generalize (p.sizing d.type).run responder s = run at sized ⊢
  obtain ⟨answer, exchanges, s'⟩ := run
  cases answer with
  | error e => simp [Except.map] at sized
  | ok sizing =>
    obtain rfl : sizing.width = w := by simpa [Except.map] using sized
    exact congrArg _ (SizedField.placeAt_of_literal rfl literal offset)

/-- A field takes exactly the bytes that it should, or none where they would pass the end of the
range, unless it stands at offset zero and is itself longer than the range. Then it is taken for
resolved and fills the range. -/
theorem resolveStatement_exact_iff {σ : Type} (p : Profile) (responder : Responder σ)
    (d : FieldDecl) (offset : Nat) (s : σ) (w n : Nat) (inRange : offset ≤ wordMax)
    (sized : (p.width responder d.type s).1 = .ok w) (literal : literalProduct? d.dims = some n) :
    let node := p.resolveStatement responder (.field d) offset s
    (node = .field (d.exactAt offset (w * n)) ↔ 0 < offset ∨ w * n ≤ wordMax) ∧
      (offset = 0 → wordMax < w * n →
        node = .field ⟨d.type, d.name, wordMax, wordMax, .resolved⟩) ∧
      advance? (MemberTree.traverse (p.sizeField responder) (.field d) s).1 offset =
        some (node, node.offsetAfter) := by
  intro node
  have placed : node = .field (d.exactAt offset (min (w * n) wordMax)) :=
    Profile.resolveStatement_of_width sized literal offset
  refine ⟨?_, ?_, advance?_eq _ inRange⟩
  · rw [placed, MemberTree.field.injEq]
    exact d.exactAt_min_iff offset (w * n)
  · rintro rfl large
    rw [placed, Nat.min_eq_right (Nat.le_of_lt large), FieldDecl.exactAt]
    simp

def doubledField : FieldDecl := ⟨"CHAR".toList, ⟨['a'], ["0xFFFFFFFFFFFFFFFF".toList, ['2']]⟩⟩

theorem width_doubledField :
    let responder := Responder.ofFunctions (fun _ => .notFound) (fun _ _ => none) (fun _ => false)
    (Profile.x64.width responder doubledField.type ()).1 = .ok 1 := by
  intro responder
  have known : Profile.x64.sizing? "CHAR".toList = some ⟨"CHAR".toList, 1, .builtIn⟩ := by decide
  have done : Profile.x64.sizing doubledField.type = .done (.ok ⟨"CHAR".toList, 1, .builtIn⟩) :=
    Profile.sizing_eq_done (by decide) (by decide) (by decide) (by decide) known
  rw [Profile.width, done]
  rfl

theorem literal_doubledField : literalProduct? doubledField.dims = some (2 * wordMax) := by decide

theorem resolveStatement_exact_behind_one :
    let responder := Responder.ofFunctions (fun _ => .notFound) (fun _ _ => none) (fun _ => false)
    let d := doubledField
    1 ≤ wordMax ∧ (Profile.x64.width responder d.type ()).1 = .ok 1 ∧
      literalProduct? d.dims = some (2 * wordMax) ∧ wordMax < 1 + 1 * (2 * wordMax) ∧
      Profile.x64.resolveStatement responder (.field d) 1 () =
        .field ⟨d.type, d.name, 0, 1, .unresolved .offsetOverflow⟩ := by
  intro responder d
  obtain ⟨exactly, -, -⟩ := resolveStatement_exact_iff Profile.x64 responder d 1 () 1 (2 * wordMax)
    (by decide) width_doubledField literal_doubledField
  exact ⟨by decide, width_doubledField, literal_doubledField, by decide,
    exactly.mpr (.inl Nat.one_pos)⟩

-- The field is twice as long as the range, and yet it is resolved and fills the range.
theorem resolveStatement_saturated :
    let responder := Responder.ofFunctions (fun _ => .notFound) (fun _ _ => none) (fun _ => false)
    let d := doubledField
    (Profile.x64.width responder d.type ()).1 = .ok 1 ∧
      literalProduct? d.dims = some (2 * wordMax) ∧ wordMax < 0 + 1 * (2 * wordMax) ∧
      Profile.x64.resolveStatement responder (.field d) 0 () =
        .field ⟨d.type, d.name, wordMax, wordMax, .resolved⟩ := by
  intro responder d
  exact ⟨width_doubledField, literal_doubledField, by decide,
    Profile.resolveStatement_of_width width_doubledField literal_doubledField 0⟩

end MemberOffsets
