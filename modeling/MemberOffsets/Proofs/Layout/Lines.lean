import Mathlib.Data.List.Forall2
import MemberOffsets.Layout.Printing
import MemberOffsets.Proofs.Abi.TypeName
import MemberOffsets.Proofs.Declaration.Plain
import MemberOffsets.Proofs.Layout.Placement
import MemberOffsets.Proofs.Sizing.Order
import MemberOffsets.Proofs.Text.Numerals

set_option autoImplicit false

namespace MemberOffsets

open Text

theorem newline_not_mem_toDigits {base : Nat} (valid : 1 < base) (n : Nat) :
    '\n' ∉ Nat.toDigits base n := by
  intro member
  obtain ⟨d, -, same⟩ := mem_toDigits valid member
  simp at same

theorem newline_not_mem_numeralPair (n : Nat) : '\n' ∉ numeralPair n := by
  have digits {base : Nat} (valid : 1 < base) : '\n' ∉ padded 4 (Nat.toDigits base n) := by
    simp [padded, List.leftpad, newline_not_mem_toDigits valid n]
  exact List.not_mem_append (List.not_mem_append (digits (by decide)) (by decide))
    (digits (by decide))

def WidthError.SingleLine : WidthError → Prop
  | .unknownType name => '\n' ∉ name
  | .ambiguous name _ => '\n' ∉ name

theorem WidthError.SingleLine.message {e : WidthError} (single : e.SingleLine) :
    '\n' ∉ e.message := by
  cases e with
  | unknownType name => exact List.not_mem_append (by decide) single
  | ambiguous name candidates =>
    have named : '\n' ∉ "Ambiguous symbol lookup for ".toList ++ name :=
      List.not_mem_append (by decide) single
    have count : '\n' ∉ decimal candidates.length :=
      newline_not_mem_toDigits (by decide) candidates.length
    exact List.not_mem_append (List.not_mem_append (List.not_mem_append named (by decide)) count)
      (by decide)

theorem newline_not_mem_collapse (s : Text) : '\n' ∉ collapse s := by
  intro member
  rcases mem_collapse member with space | ⟨-, dark⟩
  · exact absurd space (by decide)
  · exact absurd dark (by decide)

theorem newline_not_mem_bareType (type : Text) : '\n' ∉ bareType type := fun member =>
  newline_not_mem_collapse _ (mem_joinStars member)

namespace Profile

variable {σ : Type} (p : Profile) (r : Responder σ)

theorem askWidth_error {name : Text} (single : '\n' ∉ name) {s : σ} {e : WidthError}
    (failed : ((p.askWidth name).run r s).1 = .error e) : e.SingleLine := by
  have course := p.run_askWidth r name s
  rw [failed] at course
  rw [course.reason]
  cases (r.lookup name s).1 <;> exact single

theorem sizing_error {type : Text} (single : '\n' ∉ type) {s : σ} {e : WidthError}
    (failed : ((p.sizing type).run r s).1 = .error e) : e.SingleLine := by
  simp only [sizing] at failed
  split at failed
  · simp only [Inquiry.run, Except.error.injEq] at failed
    rw [← failed]
    exact fun member => single ((trim_part type).subset member)
  · split at failed
    · simp [Inquiry.run] at failed
    · exact p.askWidth_error r (newline_not_mem_bareType type) failed

end Profile

theorem mem_of_foldlM_countDim {dims : List Text} {count : Nat} {dim : Text}
    (failed : dims.foldlM countDim count = .error dim) : dim ∈ dims := by
  induction dims generalizing count with
  | nil => simp [pure, Except.pure] at failed
  | cons d dims ih =>
    rw [List.foldlM_cons] at failed
    cases first : countDim count d with
    | ok next =>
      rw [first] at failed
      exact List.mem_cons_of_mem d (ih failed)
    | error e =>
      have same : e = d := by
        simp only [countDim] at first
        split at first
        · simp at first
        · split at first <;> simp_all
      rw [first] at failed
      obtain rfl : e = dim := Except.error.inj failed
      exact same ▸ List.mem_cons_self

namespace SizedField

variable {f : SizedField}

@[simp] theorem placeAt_type (f : SizedField) (offset : Nat) :
    (f.placeAt offset).type = f.decl.type := by
  simp only [placeAt]
  split <;> rfl

@[simp] theorem placeAt_name (f : SizedField) (offset : Nat) :
    (f.placeAt offset).name = f.decl.name := by
  simp only [placeAt]
  split <;> rfl

theorem newline_not_mem_note (failed : ∀ e, f.sizing = .error e → e.SingleLine)
    (dims : ∀ dim ∈ f.decl.dims, '\n' ∉ dim) (offset : Nat) :
    '\n' ∉ (f.placeAt offset).status.note := by
  have marked (reason : Unresolved) (single : '\n' ∉ reason.message) :
      '\n' ∉ (FieldStatus.unresolved reason).note := by
    have opening : '\n' ∉ ' ' :: unresolvedMarker ++ " (".toList := by decide
    exact List.not_mem_append (List.not_mem_append opening single) (by decide)
  have ignored (dim : Text) (single : '\n' ∉ dim) :
      '\n' ∉ (FieldStatus.arrayLengthIgnored dim).note :=
    List.not_mem_append (List.not_mem_append (by decide) single) (by decide)
  by_cases fits : offset + f.extent.1 ≤ wordMax
  · have status : (f.placeAt offset).status = f.extent.2 := by simp [placeAt, fits]
    rw [status, extent]
    cases sizing : f.sizing with
    | error e => exact marked (.width e) (failed e sizing).message
    | ok s =>
      cases count : elementCount f.decl.dims with
      | ok n => exact List.not_mem_nil
      | error dim => exact ignored dim (dims dim (mem_of_foldlM_countDim count))
  · have status : (f.placeAt offset).status = .unresolved .offsetOverflow := by
      simp [placeAt, fits]
    rw [status]
    exact marked .offsetOverflow (by decide)

end SizedField

structure FieldDecl.SingleLine (f : FieldDecl) : Prop where
  type : '\n' ∉ f.type
  dims : ∀ dim ∈ f.dims, '\n' ∉ dim

theorem newline_not_mem_notes {σ : Type} (p : Profile) (responder : Responder σ)
    {ms : List Statement} (single : ∀ f ∈ MemberTree.leavesOf ms, f.SingleLine) (s : σ) :
    ∀ f ∈ MemberTree.leavesOf (p.sizeFields responder ms s).1,
      ∀ offset, '\n' ∉ (f.placeAt offset).status.note := by
  intro f among
  obtain ⟨decl, here, t, rfl⟩ := MemberTree.mem_leavesOf_traverseAll (p.sizeField responder) among
  obtain ⟨type, dims⟩ := single decl here
  have sizing : (p.sizeField responder decl t).1.sizing =
      ((p.sizing decl.type).run responder t).1 := by rw [p.sizeField_eq]
  have failed : ∀ e, (p.sizeField responder decl t).1.sizing = .error e → e.SingleLine := by
    intro e failed
    rw [sizing] at failed
    exact p.sizing_error responder type failed
  exact SizedField.newline_not_mem_note failed dims

def Noted (line code : Text) : Prop :=
  line = code ∨ ∃ note, '\n' ∉ note ∧ line = code ++ '\t' :: '/' :: '/' :: note

theorem noted_line {f : SizedField} {offset : Nat}
    (single : '\n' ∉ (f.placeAt offset).status.note) :
    Noted (f.placeAt offset).line f.decl.code := by
  refine .inr ⟨' ' :: numeralPair (f.placeAt offset).offsetAfter ++ (f.placeAt offset).status.note,
    ?_, ?_⟩
  · have numerals := newline_not_mem_numeralPair (f.placeAt offset).offsetAfter
    simp [numerals, single]
  · simp [FieldNode.line, FieldDecl.code, offsetComment]

theorem noted_closingLine (b : BlockDecl) (entry : Nat) (ns : List Node) :
    Noted (b.placeAt entry ns).closingLine b.closingCode := by
  refine .inr ⟨' ' :: numeralPair (b.placeAt entry ns).offsetAfter, ?_, ?_⟩
  · simp [newline_not_mem_numeralPair]
  · simp [BlockNode.closingLine, BlockDecl.closingCode, offsetComment, BlockDecl.placeAt]

theorem noted_annotatedAll {ms : List SizedStatement}
    (single : ∀ f ∈ MemberTree.leavesOf ms, ∀ offset, '\n' ∉ (f.placeAt offset).status.note)
    (kind : Kind) (entry : Nat) :
    List.Forall₂ Noted (Node.annotatedAll (placeMembers kind ms entry))
      (codeAll (declared ms)) := by
  induction ms using MemberTree.members_induction generalizing kind entry with
  | nil => simp [Node.annotatedAll, declared, codeAll]
  | field f ms ih =>
    rw [placeMembers_cons]
    generalize kind.next entry _ = next
    have here := noted_line (single f (by simp [MemberTree.leavesOf, MemberTree.leaves]) entry)
    have rest := ih (fun g among => single g (List.mem_append_right _ among)) kind next
    exact .cons here rest
  | block b inner ms ihInner ih =>
    rw [placeMembers_cons, place_block]
    generalize kind.next entry _ = next
    have members := ihInner (fun g among => single g (List.mem_append_left _ among)) b.kind entry
    have rest := ih (fun g among => single g (List.mem_append_right _ among)) kind next
    have closing := noted_closingLine b entry (placeMembers b.kind inner entry)
    have body := List.rel_append members (.cons closing .nil)
    have opening : Noted (b.placeAt entry (placeMembers b.kind inner entry)).openingLine
      b.openingCode := .inl rfl
    have whole := List.rel_append (.cons opening body) rest
    simpa [Node.annotatedAll, Node.annotated, declared, codeAll, code] using whole

structure Carries (line code : Text) : Prop where
  single : '\n' ∉ line
  parts : ∃ (indent gap : Blanks) (note : Text), line = indent.val ++ code ++ gap.val ++ note ∧
    (note = [] ∨ gap.val ≠ [] ∧ ∃ t, note = '/' :: '/' :: t)

theorem CodeLine.not_mem {s : Text} (line : CodeLine s) {c : Char} (blank : isBlank c = true)
    (other : c ≠ ' ') : c ∉ s :=
  fun member => other (line.spaced c member blank)

theorem Noted.carries {line code : Text} (noted : Noted line code) (plain : CodeLine code) :
    Carries line code := by
  have single : '\n' ∉ code := plain.not_mem (by decide) (by decide)
  rcases noted with rfl | ⟨note, noteSingle, rfl⟩
  · exact ⟨single, ⟨[], rfl⟩, ⟨[], rfl⟩, [], by simp, .inl rfl⟩
  · refine ⟨?_, ⟨[], rfl⟩, ⟨['\t'], by decide⟩, '/' :: '/' :: note, by simp, .inr ⟨by simp, _, rfl⟩⟩
    exact List.not_mem_append single (by simp [noteSingle])

theorem carries_of_noted {lines codes : List Text} (noted : List.Forall₂ Noted lines codes)
    (plain : ∀ s ∈ codes, CodeLine s) : List.Forall₂ Carries lines codes := by
  induction noted with
  | nil => exact .nil
  | @cons line code lines codes here _ ih =>
    have rest := ih fun s member => plain s (List.mem_cons_of_mem code member)
    exact .cons (here.carries (plain code List.mem_cons_self)) rest

theorem Blanks.getLast?_ne_slash (gap : Blanks) : gap.val.getLast? ≠ some '/' := by
  intro last
  have blank := allBlank_iff.mp gap.property '/' (List.mem_of_mem_getLast? last)
  exact absurd blank (by decide)

theorem Blanks.commentFree (gap : Blanks) : CommentFree gap.val := by
  apply CommentFree.of_slashless
  intro member
  exact absurd (allBlank_iff.mp gap.property '/' member) (by decide)

theorem Carries.stripped {line code : Text} (carries : Carries line code) (plain : CodeLine code)
    (rest : Text) : ∃ s : Text, stripFrom .code (line ++ '\n' :: rest) =
      s ++ '\n' :: stripFrom .code rest ∧ '\n' ∉ s ∧ trim s = code := by
  obtain ⟨single, indent, gap, note, rfl, comment⟩ := carries
  have start : CommentFree (indent.val ++ code) :=
    indent.commentFree.append plain.free fun last => absurd last indent.getLast?_ne_slash
  have free : CommentFree (indent.val ++ code ++ gap.val) := by
    apply start.append gap.commentFree
    intro _ c first
    have blank := allBlank_iff.mp gap.property c (List.mem_of_mem_head? first)
    constructor <;> rintro rfl <;> exact absurd blank (by decide)
  refine ⟨indent.val ++ code ++ gap.val, ?_, ?_, ?_⟩
  · rcases comment with rfl | ⟨apart, t, rfl⟩
    · rw [List.append_nil, stripFrom_append free (fun _ => by simp), stripFrom_cons (by simp)]
    · have last : (indent.val ++ code ++ gap.val).getLast? ≠ some '/' := by
        rw [List.getLast?_append_of_ne_nil _ apart]
        exact gap.getLast?_ne_slash
      have inner : '\n' ∉ t := by
        intro member
        exact single (by simp [member])
      rw [List.append_assoc, stripFrom_append free (fun slash => absurd slash last),
        List.cons_append, List.cons_append, stripFrom, stripFrom_lineComment inner]
  · exact fun member => single (List.mem_append_left _ member)
  · rw [trim_append_right _ gap.property, trim_append_left indent.property]
    exact trim_eq_self plain.first plain.last

theorem normalize_terminated {lines codes : List Text} (carried : List.Forall₂ Carries lines codes)
    (plain : ∀ s ∈ codes, CodeLine s) : normalize (terminated lines) = unlines codes := by
  have kept : ((Text.lines (stripComments (terminated lines))).map trim).filter (!·.isEmpty) =
      codes := by
    induction carried with
    | nil => decide
    | @cons line code lines codes here _ ih =>
      have first := plain code List.mem_cons_self
      obtain ⟨s, stripped, single, trimmed⟩ := here.stripped first (terminated lines)
      have rest := ih fun s member => plain s (List.mem_cons_of_mem code member)
      have shape : terminated (line :: lines) = line ++ '\n' :: terminated lines := by
        simp [terminated]
      rw [shape, stripComments, stripped, Text.lines,
        List.splitOn_append_cons_self_of_not_mem single, List.map_cons, trimmed,
        List.filter_cons_of_pos (by simpa using first.nonempty)]
      exact congrArg (code :: ·) rest
  rw [normalize, tidyLines, kept]

end MemberOffsets
