import MemberOffsets.Layout.Resolution
import MemberOffsets.Proofs.Abi.TypeName
import MemberOffsets.Proofs.Declaration.Plain
import MemberOffsets.Proofs.Declaration.Segmentation
import MemberOffsets.Proofs.Layout.Placement

set_option autoImplicit false

namespace MemberOffsets

open Text

variable {σ : Type} {p : Profile} {responder : Responder σ} {base : Nat} {s s' : σ}
  {place : Unbalanced}

namespace Resolution

theorem ofShell_eq_ok {shell : Shell} {r : Resolution} :
    ofShell p responder shell base s = .ok (r, s') ↔
      ∃ statements, segment shell.body = .ok statements ∧
        r = ⟨shell, (p.sizeFields responder statements s).1, base⟩ ∧
          s' = (p.sizeFields responder statements s).2 := by
  simp only [ofShell, bind_eq_ok, Except.ok.injEq, Prod.mk.injEq, eq_comm (b := r),
    eq_comm (b := s')]

theorem ofText_eq_ok {text : Text} {r : Resolution} :
    ofText p responder text base s = .ok (r, s') ↔
      ∃ shell, Shell.split (normalize text) = .ok shell ∧
        ofShell p responder shell base s = .ok (r, s') := by
  simp only [ofText, bind_eq_ok]

theorem ofText_nestedText :
    ofText p responder nestedText base s =
      .ok (⟨nestedShell, (p.sizeFields responder (Spelling.statementsOf nestedMembers) s).1, base⟩,
        (p.sizeFields responder (Spelling.statementsOf nestedMembers) s).2) :=
  ofText_eq_ok.mpr ⟨nestedShell, split_nestedText,
    ofShell_eq_ok.mpr ⟨_, segment_nestedMembers, rfl, rfl⟩⟩

end Resolution

theorem resolveDeclaration_eq_ok {text : Text} {d : Declaration} :
    p.resolveDeclaration responder text base s = .ok (d, s') ↔
      ∃ r, Resolution.ofText p responder text base s = .ok (r, s') ∧ d = r.declaration := by
  simp only [Profile.resolveDeclaration, bind_eq_ok, Except.ok.injEq, Prod.mk.injEq, Prod.exists,
    eq_comm (a := d)]
  constructor
  · rintro ⟨r, t, resolved, rfl, rfl⟩
    exact ⟨r, resolved, rfl⟩
  · rintro ⟨r, resolved, rfl⟩
    exact ⟨r, s', resolved, rfl, rfl⟩

theorem resolveBody_eq_ok {text : Text} {a : Aggregate} :
    p.resolveBody responder text base s = .ok (a, s') ↔
      ∃ r, Resolution.ofShell p responder (.bare (normalize text)) base s = .ok (r, s') ∧
        a = r.root := by
  simp only [Profile.resolveBody, bind_eq_ok, Except.ok.injEq, Prod.mk.injEq, Prod.exists,
    eq_comm (a := a)]
  constructor
  · rintro ⟨r, t, resolved, rfl, rfl⟩
    exact ⟨r, resolved, rfl⟩
  · rintro ⟨r, resolved, rfl⟩
    exact ⟨r, s', resolved, rfl, rfl⟩

theorem Resolution.ofShell_eq_error {shell : Shell} :
    ofShell p responder shell base s = .error place ↔ segment shell.body = .error place := by
  simp [ofShell, bind_eq_error]

theorem resolveDeclaration_eq_error {text : Text} :
    p.resolveDeclaration responder text base s = .error place ↔
      Shell.split (normalize text) = .error place ∨
        ∃ shell, Shell.split (normalize text) = .ok shell ∧ segment shell.body = .error place := by
  simp [Profile.resolveDeclaration, Resolution.ofText, Resolution.ofShell_eq_error, bind_eq_error]

theorem resolveBody_eq_error {text : Text} :
    p.resolveBody responder text base s = .error place ↔
      segment (normalize text) = .error place := by
  simp [Profile.resolveBody, Resolution.ofShell_eq_error, bind_eq_error, Shell.bare]

theorem Profile.sizing_eq_done {p : Profile} {name : Text} {found : Sizing}
    (trimmed : trim name = name) (unqualified : isQualifier (firstWord name) = false)
    (bare : joinStars (collapse (dropTrailingConst name)) = name) (nonempty : name ≠ [])
    (known : p.sizing? name = some found) : p.sizing name = .done (.ok found) := by
  have same : bareType name = name := by
    rw [bareType, trimmed, dropQualifiers_eq_self unqualified, bare]
  simp [Profile.sizing, same, nonempty, known]

def nestedField (f : FieldDecl) : SizedField :=
  ⟨f, [], .ok ⟨f.type, if f.type = "INT".toList then 4 else 1, .builtIn⟩⟩

def nestedSized : List SizedStatement :=
  MemberTree.mapAll id nestedField (Spelling.statementsOf nestedMembers)

theorem sizeFields_nestedMembers {σ : Type} (responder : Responder σ) (s : σ) :
    Profile.x64.sizeFields responder (Spelling.statementsOf nestedMembers) s =
      (nestedSized, s) := by
  apply MemberTree.traverseAll_eq_mapAll
  have types : ∀ f ∈ MemberTree.leavesOf (Spelling.statementsOf nestedMembers),
      f.type = "INT".toList ∨ f.type = "CHAR".toList := by decide
  intro f among
  obtain ⟨type, declarator⟩ := f
  rcases types _ among with int | char
  · obtain rfl : type = "INT".toList := int
    have known : Profile.x64.sizing? "INT".toList = some ⟨"INT".toList, 4, .builtIn⟩ := by decide
    rw [Profile.sizeField, Profile.sizing_eq_done (by decide) (by decide) (by decide) (by decide)
      known]
    rfl
  · obtain rfl : type = "CHAR".toList := char
    have known : Profile.x64.sizing? "CHAR".toList = some ⟨"CHAR".toList, 1, .builtIn⟩ := by decide
    rw [Profile.sizeField, Profile.sizing_eq_done (by decide) (by decide) (by decide) (by decide)
      known]
    rfl

-- Placement does not look at the source of a block.
theorem placeMembers_sourceless (ms : List SizedStatement) (kind : Kind) (entry : Nat) :
    placeMembers kind (MemberTree.mapAll BlockDecl.sourceless id ms) entry =
      placeMembers kind ms entry := by
  induction ms using MemberTree.members_induction generalizing kind entry with
  | nil => simp
  | field f ms ih =>
    rw [MemberTree.mapAll_cons, MemberTree.map_field, placeMembers_cons, placeMembers_cons, ih]
    rfl
  | block b inner ms ihInner ih =>
    have here :
        place (.block b.sourceless (MemberTree.mapAll BlockDecl.sourceless id inner)) entry =
          place (.block b inner) entry := by
      rw [place_block, place_block, show b.sourceless.kind = b.kind from rfl, ihInner]
      rfl
    rw [MemberTree.mapAll_cons, MemberTree.map_block, placeMembers_cons, placeMembers_cons, here,
      ih]

theorem placeBlock_congr {ms ms' : List SizedStatement}
    (same : MemberTree.mapAll BlockDecl.sourceless id ms =
      MemberTree.mapAll BlockDecl.sourceless id ms') (b : BlockDecl) (entry : Nat) :
    placeBlock b ms entry = placeBlock b ms' entry := by
  rw [placeBlock, placeBlock, ← placeMembers_sourceless ms, same, placeMembers_sourceless]

theorem sizeFields_congr {σ : Type} (p : Profile) (responder : Responder σ)
    {ms ms' : List Statement}
    (same : MemberTree.mapAll BlockDecl.sourceless id ms =
      MemberTree.mapAll BlockDecl.sourceless id ms') (s : σ) :
    MemberTree.mapAll BlockDecl.sourceless id (p.sizeFields responder ms s).1 =
        MemberTree.mapAll BlockDecl.sourceless id (p.sizeFields responder ms' s).1 ∧
      (p.sizeFields responder ms s).2 = (p.sizeFields responder ms' s).2 := by
  have first := MemberTree.traverseAll_mapAll (p.sizeField responder) BlockDecl.sourceless ms s
  have second := MemberTree.traverseAll_mapAll (p.sizeField responder) BlockDecl.sourceless ms' s
  rw [same, second] at first
  obtain ⟨members, state⟩ := Prod.mk.inj first
  exact ⟨members.symm, state.symm⟩

end MemberOffsets
