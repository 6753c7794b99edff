import Mathlib.Order.Bounds.Defs
import MemberOffsets.Layout.Printing
import MemberOffsets.Proofs.Layout.Lines

set_option autoImplicit false

namespace MemberOffsets.Columns

open Text

theorem Row.ofLine_code {code : Text} (untabbed : '\t' ∉ code) :
    Row.ofLine code = ⟨trim code, none⟩ := by
  have run := forall_ne_of_not_mem untabbed
  simp [Row.ofLine, List.dropWhile_eq_nil_iff.mpr run]

theorem Row.ofLine_noted {code : Text} (untabbed : '\t' ∉ code) (comment : Text) :
    Row.ofLine (code ++ '\t' :: comment) = ⟨trim code, some (trim comment)⟩ := by
  have run := forall_ne_of_not_mem untabbed
  have stop : ∀ c ∈ ('\t' :: comment).head?, (c != '\t') = false := by simp
  rw [Row.ofLine, takeWhile_append_stop run stop, dropWhile_append_stop run stop]

theorem rows_terminated {lines : List Text} (single : ∀ l ∈ lines, '\n' ∉ l)
    (kept : ∀ l ∈ lines, (Row.ofLine l).isKept = true) :
    rows (terminated lines) = indentFrom 0 (lines.map Row.ofLine) := by
  rw [rows]
  congr 1
  induction lines with
  | nil => decide
  | cons l lines ih =>
    have rest := ih (fun m member => single m (List.mem_cons_of_mem l member))
      (fun m member => kept m (List.mem_cons_of_mem l member))
    have shape : terminated (l :: lines) = l ++ '\n' :: terminated lines := by simp [terminated]
    rw [shape, Text.lines, List.splitOn_append_cons_self_of_not_mem (single l List.mem_cons_self),
      List.map_cons, List.filter_cons_of_pos (kept l List.mem_cons_self), List.map_cons]
    exact congrArg (Row.ofLine l :: ·) rest

structure Holds (r : Row) (code : Text) : Prop where
  plain : CodeLine code
  code : ∃ n, r.code = List.replicate n ' ' ++ code
  comment : ∀ t ∈ r.comment, '\n' ∉ t ∧ ∃ note, t = '/' :: '/' :: note

theorem holds_ofLine {line code : Text} (noted : Noted line code) (plain : CodeLine code) :
    Holds (Row.ofLine line) code ∧ (Row.ofLine line).isKept = true := by
  have trimmed : trim code = code := trim_eq_self plain.first plain.last
  have untabbed : '\t' ∉ code := plain.not_mem (by decide) (by decide)
  rcases noted with rfl | ⟨note, single, rfl⟩
  · rw [Row.ofLine_code untabbed, trimmed]
    exact ⟨⟨plain, ⟨0, rfl⟩, by simp⟩, by simp [Row.isKept, plain.nonempty]⟩
  · have comment : trim ('/' :: '/' :: note) = '/' :: '/' :: trimEnd note := by
      rw [trim, trimStart_cons _ (by decide), trimEnd_cons (by decide), trimEnd_cons (by decide)]
    rw [Row.ofLine_noted untabbed, trimmed, comment]
    refine ⟨⟨plain, ⟨0, rfl⟩, ?_⟩, by simp [Row.isKept]⟩
    rintro _ ⟨⟩
    have inner : '\n' ∉ trimEnd note := fun member => single ((trimEnd_part note).subset member)
    exact ⟨by simp [inner], _, rfl⟩

theorem holds_indentFrom {rs : List Row} {codes : List Text} (held : List.Forall₂ Holds rs codes)
    (depth : Nat) : List.Forall₂ Holds (indentFrom depth rs) codes := by
  induction held generalizing depth with
  | nil => exact .nil
  | cons here _ ih =>
    obtain ⟨plain, ⟨n, code⟩, comment⟩ := here
    have indented (m : Nat) := congrArg (List.replicate m ' ' ++ ·) code
    simp only [← List.append_assoc, List.replicate_append_replicate] at indented
    exact .cons ⟨plain, ⟨_, indented _⟩, comment⟩ (ih _)

theorem holds_rows {lines codes : List Text} (noted : List.Forall₂ Noted lines codes)
    (plain : ∀ s ∈ codes, CodeLine s) : List.Forall₂ Holds (rows (terminated lines)) codes := by
  have each : List.Forall₂ (fun line code => ((Row.ofLine line).isKept = true ∧ '\n' ∉ line) ∧
      Holds (Row.ofLine line) code) lines codes := by
    apply ((List.forall₂_and_left _ _).mpr ⟨plain, noted.flip⟩).flip.imp
    intro line code paired
    obtain ⟨first, here⟩ : CodeLine code ∧ Noted line code := paired
    obtain ⟨holds, kept⟩ := holds_ofLine here first
    exact ⟨⟨kept, (here.carries first).single⟩, holds⟩
  obtain ⟨single, holds⟩ := (List.forall₂_and_left _ _).mp each
  rw [rows_terminated (fun l member => (single l member).2) (fun l member => (single l member).1)]
  exact holds_indentFrom (List.forall₂_map_left_iff.mpr holds) 0

theorem isGreatest_column {rs : List Row} (noted : ∃ r ∈ rs, r.comment.isSome = true) :
    IsGreatest {c | ∃ r ∈ rs, r.comment.isSome = true ∧ c = r.code.length + commentGap}
      (column rs) := by
  obtain ⟨widths, same⟩ : ∃ widths, widths = (rs.filter (·.comment.isSome)).map (·.code.length) :=
    ⟨_, rfl⟩
  have among (w : Nat) : w ∈ widths ↔ ∃ r ∈ rs, r.comment.isSome = true ∧ r.code.length = w := by
    simp [same, and_assoc]
  obtain ⟨r, member, commented⟩ := noted
  have nonempty := List.ne_nil_of_mem ((among _).mpr ⟨r, member, commented, rfl⟩)
  rw [column, ← same, List.foldl_max_eq_max nonempty, Nat.zero_max]
  constructor
  · obtain ⟨widest, widestMember, widestCommented, width⟩ :=
      (among _).mp (List.max_mem nonempty)
    exact ⟨widest, widestMember, widestCommented, by rw [width]⟩
  · rintro _ ⟨s, other, otherCommented, rfl⟩
    have largest := List.le_max_of_mem ((among _).mpr ⟨s, other, otherCommented, rfl⟩)
    omega

theorem length_lt_column {r : Row} {rs : List Row} (member : r ∈ rs)
    (commented : r.comment.isSome = true) : r.code.length < column rs := by
  have within := (isGreatest_column ⟨r, member, commented⟩).2 ⟨r, member, commented, rfl⟩
  rw [commentGap] at within
  omega

theorem carries_render {r : Row} {code : Text} (holds : Holds r code) {column : Nat}
    (wide : r.comment.isSome = true → r.code.length < column) :
    Carries (r.render column) code := by
  obtain ⟨plain, ⟨n, indented⟩, comments⟩ := holds
  have space : isBlank ' ' = true := by decide
  have spaces (m : Nat) : allBlank (List.replicate m ' ') = true := by simp [allBlank, space]
  have single : '\n' ∉ r.code := by
    rw [indented]
    exact List.not_mem_append (by simp) (plain.not_mem (by decide) (by decide))
  cases comment : r.comment with
  | none =>
    rw [Row.render, comment]
    exact ⟨single, ⟨_, spaces n⟩, ⟨[], rfl⟩, [], by simp [indented], .inl rfl⟩
  | some t =>
    obtain ⟨inner, note, rfl⟩ := comments t comment
    have gap : column - r.code.length ≠ 0 := by
      have := wide (by simp [comment])
      omega
    rw [Row.render, comment]
    refine ⟨List.not_mem_append (List.not_mem_append single (by simp)) inner, ⟨_, spaces n⟩,
      ⟨_, spaces (column - r.code.length)⟩, _, by simp [indented], .inr ⟨?_, note, rfl⟩⟩
    simpa using gap

theorem normalize_format {lines codes : List Text} (noted : List.Forall₂ Noted lines codes)
    (plain : ∀ s ∈ codes, CodeLine s) :
    normalize (format (terminated lines)) = unlines codes := by
  have held := holds_rows noted plain
  have wide : ∀ r ∈ rows (terminated lines), r.comment.isSome = true →
      r.code.length < column (rows (terminated lines)) := fun r member => length_lt_column member
  have carried : List.Forall₂ Carries
      ((rows (terminated lines)).map (Row.render (column (rows (terminated lines))))) codes := by
    rw [List.forall₂_map_left_iff]
    apply ((List.forall₂_and_left _ _).mpr ⟨wide, held⟩).imp
    intro r code here
    exact carries_render here.2 here.1
  exact normalize_terminated carried plain

end MemberOffsets.Columns
