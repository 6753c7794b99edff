import MemberOffsets.Declaration.Source
import MemberOffsets.Proofs.Declaration.Spelling

set_option autoImplicit false

namespace MemberOffsets

open Text

theorem splitAtClose_plain {c : Char} (depth : Nat) (opens : c ≠ '{') (closes : c ≠ '}')
    (s : Text) :
    splitAtClose depth (c :: s) =
      (splitAtClose depth s).map fun (body, after) => (c :: body, after) := by
  cases depth <;> simp [splitAtClose, opens, closes]

theorem splitAtClose_opening (depth : Nat) (s : Text) :
    splitAtClose depth ('{' :: s) =
      (splitAtClose (depth + 1) s).map fun (body, after) => ('{' :: body, after) := by
  cases depth <;> simp [splitAtClose]

theorem splitAtClose_closing (depth : Nat) (s : Text) :
    splitAtClose (depth + 1) ('}' :: s) =
      (splitAtClose depth s).map fun (body, after) => ('}' :: body, after) := by
  simp [splitAtClose]

inductive Balanced : Text → Prop
  | nil : Balanced []
  | plain {c : Char} {s : Text} : c ≠ '{' → c ≠ '}' → Balanced s → Balanced (c :: s)
  | pair {s t : Text} : Balanced s → Balanced t → Balanced ('{' :: s ++ '}' :: t)

namespace Balanced

theorem of_plain {s : Text} (plain : ∀ c ∈ s, c ≠ '{' ∧ c ≠ '}') : Balanced s := by
  induction s with
  | nil => exact .nil
  | cons c s ih =>
    obtain ⟨opens, closes⟩ := plain c List.mem_cons_self
    exact .plain opens closes (ih fun d member => plain d (List.mem_cons_of_mem c member))

theorem append {s t : Text} (left : Balanced s) (right : Balanced t) : Balanced (s ++ t) := by
  induction left with
  | nil => exact right
  | plain opens closes _ ih => exact .plain opens closes ih
  | @pair s₁ s₂ inner _ _ ih => simpa using Balanced.pair inner ih

theorem splitAtClose_append {s : Text} (balanced : Balanced s) (depth : Nat) (t : Text) :
    splitAtClose depth (s ++ t) =
      (splitAtClose depth t).map fun (body, after) => (s ++ body, after) := by
  induction balanced generalizing depth t with
  | nil => simp
  | plain opens closes _ ih =>
    rw [List.cons_append, splitAtClose_plain depth opens closes, ih, Option.map_map]
    rfl
  | @pair s₁ s₂ _ _ inner outer =>
    have shape : '{' :: s₁ ++ '}' :: s₂ ++ t = '{' :: (s₁ ++ '}' :: (s₂ ++ t)) := by simp
    rw [shape, splitAtClose_opening, inner, splitAtClose_closing, outer]
    cases splitAtClose depth t <;> simp

theorem splitAtClose_close {s : Text} (balanced : Balanced s) (t : Text) :
    splitAtClose 0 (s ++ '}' :: t) = some (s, t) := by
  simp [balanced.splitAtClose_append, splitAtClose]

end Balanced

theorem isMark_of_isBlank {c : Char} (blank : isBlank c = true) : isMark c = false := by
  cases mark : isMark c with
  | false => rfl
  | true =>
    simp only [isMark, Bool.or_eq_true, beq_iff_eq] at mark
    rcases mark with (rfl | rfl) | rfl <;> revert blank <;> decide

theorem isMark_of_isIdentChar {c : Char} (ident : isIdentChar c = true) : isMark c = false := by
  cases mark : isMark c with
  | false => rfl
  | true =>
    simp only [isMark, Bool.or_eq_true, beq_iff_eq] at mark
    rcases mark with (rfl | rfl) | rfl <;> revert ident <;> decide

theorem Blanks.plain (gap : Blanks) : ∀ c ∈ gap.val, isMark c = false := by
  intro c member
  exact isMark_of_isBlank (allBlank_iff.mp gap.property c member)

theorem Identifier.first_ne_bracket (i : Identifier) : i.first ≠ '[' := by
  intro same
  have start := i.start
  rw [same] at start
  revert start
  decide

theorem Identifier.first_dark (i : Identifier) : isBlank i.first = false :=
  isBlank_of_isIdentChar (isIdentChar_of_isIdentStart _ i.start)

theorem Kind.isIdentChar_keyword (kind : Kind) : ∀ c ∈ kind.keyword, isIdentChar c = true := by
  cases kind <;> exact forall_mem_of_all (by decide)

theorem not_mem_of_plain {s : Text} (plain : ∀ c ∈ s, isMark c = false) {c : Char}
    (mark : isMark c = true) : c ∉ s := by
  intro member
  rw [plain c member] at mark
  contradiction

theorem Balanced.of_unmarked {s : Text} (plain : ∀ c ∈ s, isMark c = false) : Balanced s := by
  apply Balanced.of_plain
  intro c member
  constructor
  · rintro rfl
    exact not_mem_of_plain plain rfl member
  · rintro rfl
    exact not_mem_of_plain plain rfl member

namespace FieldSpelling

theorem plain (f : FieldSpelling) : ∀ c ∈ f.statement, isMark c = false := by
  intro c member
  simp only [statement, List.mem_append] at member
  rcases member with (type | name) | gap
  · exact (f.typePlain c type).1
  · exact f.declaratorPlain c name
  · exact f.gap.plain c gap

end FieldSpelling

theorem AttributeSpelling.plain_write (a : AttributeSpelling) :
    ∀ c ∈ a.write, isMark c = false := by
  intro c member
  simp only [write, List.mem_append, List.mem_cons, List.not_mem_nil, or_false] at member
  rcases member with (gap | rfl | rfl | inside) | rfl | rfl
  · exact a.gap.plain c gap
  · rfl
  · rfl
  · exact (a.plain c inside).1
  · rfl
  · rfl

theorem HeaderSpelling.plain (h : HeaderSpelling) : ∀ c ∈ h.write, isMark c = false := by
  intro c member
  simp only [write, tagged, List.mem_append, List.mem_flatMap] at member
  rcases member with (keyword | ⟨a, -, inside⟩) | tag | opening
  · exact isMark_of_isIdentChar (h.kind.isIdentChar_keyword c keyword)
  · exact a.plain_write c inside
  · cases tagged : h.tag with
    | none => simp [tagged] at tag
    | some t =>
      simp only [tagged, Option.elim_some] at tag
      rcases List.mem_append.mp tag with gap | ident
      · exact t.1.plain c gap
      · exact isMark_of_isIdentChar (t.2.isIdentChar c ident)
  · exact h.opening.plain c opening

theorem BlockSpelling.header_plain (b : BlockSpelling) : ∀ c ∈ b.header, isMark c = false := by
  rw [← b.write_heading]
  exact b.heading.plain

theorem BlockSpelling.trailer_plain (b : BlockSpelling) : ∀ c ∈ b.trailer, isMark c = false := by
  intro c member
  rcases List.mem_append.mp member with declarator | gap
  · cases written : b.declarator with
    | none => simp [written] at declarator
    | some d =>
      simp only [written, Option.elim_some, List.mem_append] at declarator
      rcases declarator with gap | name
      · exact d.1.plain c gap
      · exact b.declaratorPlain d written c name
  · exact b.gap.plain c gap

end MemberOffsets
