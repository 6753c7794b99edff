import MemberOffsets.Proofs.Declaration.Normalization
import MemberOffsets.Proofs.Layout.Listing

set_option autoImplicit false

namespace MemberOffsets.Columns

open Text

inductive Parted : Text → Row → Prop
  | code {line : Text} (untabbed : '\t' ∉ line) : Parted line ⟨trim line, none⟩
  | noted {code : Text} (untabbed : '\t' ∉ code) (comment : Text) :
      Parted (code ++ '\t' :: comment) ⟨trim code, some (trim comment)⟩

def Kept (line : Text) : Prop := trim (line.takeWhile (· != '\t')) ≠ [] ∨ '\t' ∈ line

instance : DecidablePred Kept := fun _ => instDecidableOr

section Parts

variable {line : Text} {r : Row}

theorem parted_ofLine (line : Text) : Parted line (Row.ofLine line) := by
  by_cases tabbed : '\t' ∈ line
  · obtain ⟨code, comment, rfl, untabbed⟩ := List.eq_append_cons_of_mem tabbed
    rw [Row.ofLine_noted untabbed]
    exact .noted untabbed comment
  · rw [Row.ofLine_code tabbed]
    exact .code tabbed

theorem Parted.isKept_iff (parted : Parted line r) : r.isKept = true ↔ Kept line := by
  cases parted with
  | code untabbed =>
    have whole := List.takeWhile_eq_self_iff.mpr (forall_ne_of_not_mem untabbed)
    simp [Row.isKept, Kept, whole, untabbed]
  | noted untabbed comment => simp [Row.isKept, Kept]

theorem Parted.not_mem (parted : Parted line r) {c : Char} (absent : c ∉ line) :
    c ∉ r.code ∧ ∀ comment ∈ r.comment, c ∉ comment := by
  cases parted with
  | code => exact ⟨fun member => absent ((trim_part line).subset member), by simp⟩
  | @noted code _ comment =>
    simp only [List.mem_append, List.mem_cons, not_or] at absent
    obtain ⟨before, -, after⟩ := absent
    refine ⟨fun member => before ((trim_part code).subset member), ?_⟩
    rintro _ ⟨⟩ member
    exact after ((trim_part comment).subset member)

theorem rows_eq (text : Text) :
    rows text = indentFrom 0 (((lines text).filter (Kept ·)).map Row.ofLine) := by
  have same : Row.isKept ∘ Row.ofLine = fun line => decide (Kept line) := by
    funext line
    exact Bool.eq_iff_iff.mpr ((parted_ofLine line).isKept_iff.trans decide_eq_true_iff.symm)
  rw [rows, List.filter_map, same]

end Parts

/-- What a line of code does to the depth: a brace that closes at its start takes one off, and a
brace that opens at its end puts one on. -/
def braceSteps (code : Text) : List ℤ :=
  (if code.head? = some '}' then [-1] else []) ++ (if code.getLast? = some '{' then [1] else [])

def depthFrom (depth : ℤ) (codes : List Text) : ℤ :=
  (codes.flatMap braceSteps).foldl (fun depth step => max 0 (depth + step)) depth

def standing (depth : ℤ) (code : Text) : ℤ :=
  if code.head? = some '}' then max 0 (depth - 1) else depth

theorem exists_depths_cons (depth : Nat) (code : Text) (codes : List Text) :
    ∃ here next : Nat, depths depth (code :: codes) = here :: depths next codes ∧
      (here : ℤ) = standing depth code ∧
      ∀ later, depthFrom depth (code :: later) = depthFrom next later := by
  refine ⟨_, _, rfl, ?_, ?_⟩
  · unfold standing
    split <;> omega
  · intro later
    simp only [depthFrom, braceSteps, List.flatMap_cons, List.foldl_append]
    congr 1
    split <;> split <;> simp <;> omega

@[simp] theorem length_depths (depth : Nat) (codes : List Text) :
    (depths depth codes).length = codes.length := by
  induction codes generalizing depth with
  | nil => rfl
  | cons code codes ih => simp [depths, ih]

theorem depths_eq_standing {depth here k : Nat} {code : Text} {codes : List Text}
    (place : (depths depth codes)[k]? = some here) (line : codes[k]? = some code) :
    (here : ℤ) = standing (depthFrom depth (codes.take k)) code := by
  induction codes generalizing depth k with
  | nil => simp at line
  | cons first codes ih =>
    obtain ⟨level, next, same, stands, steps⟩ := exists_depths_cons depth first codes
    rw [same] at place
    cases k with
    | zero =>
      obtain rfl : level = here := Option.some.inj place
      obtain rfl : first = code := Option.some.inj line
      exact stands
    | succ k =>
      rw [List.take_succ_cons, steps]
      exact ih place line

structure PrintedLine where
  depth : Nat
  code : Text
  comment : Option (Nat × Text)

namespace PrintedLine

def width (p : PrintedLine) : Nat := 4 * p.depth + p.code.length

def parts (p : PrintedLine) : Row := ⟨p.code, p.comment.map Prod.snd⟩

def text (p : PrintedLine) : Text :=
  List.replicate (4 * p.depth) ' ' ++ p.code ++
    match p.comment with
    | none => []
    | some (gap, comment) => List.replicate gap ' ' ++ comment

end PrintedLine

/-- The lines printed for some kept ones: they have the same parts in the same order, each stands as
deep as the braces of the code before it say, and every comment starts in the column that is four
spaces behind the widest code with a comment. -/
structure Aligned (kept : List Text) (column : Nat) (ps : List PrintedLine) : Prop where
  parts : List.Forall₂ Parted kept (ps.map PrintedLine.parts)
  depth : ∀ k p, ps[k]? = some p →
    (p.depth : ℤ) = standing (depthFrom 0 ((ps.take k).map PrintedLine.code)) p.code
  comment : ∀ p ∈ ps, ∀ gap comment, p.comment = some (gap, comment) →
    4 ≤ gap ∧ p.width + gap = column
  widest : (∃ p ∈ ps, p.comment.isSome = true) →
    IsGreatest {c | ∃ p ∈ ps, p.comment.isSome = true ∧ c = p.width + 4} column

def Row.printed (column : Nat) (placed : Nat × Row) : PrintedLine :=
  ⟨placed.1, placed.2.code, placed.2.comment.map fun comment =>
    (column - (placed.2.indent placed.1).code.length, comment)⟩

def printed (column : Nat) (rs : List Row) : List PrintedLine :=
  ((depths 0 (rs.map Row.code)).zip rs).map (Row.printed column)

section Printing

variable (col : Nat) (rs : List Row)

theorem map_parts_printed : (printed col rs).map PrintedLine.parts = rs := by
  have parts : PrintedLine.parts ∘ Row.printed col = Prod.snd := by
    funext ⟨depth, r⟩
    simp [Row.printed, PrintedLine.parts, Function.comp_def]
  rw [printed, List.map_map, parts, List.map_snd_zip (by simp)]

theorem map_code_printed : (printed col rs).map PrintedLine.code = rs.map Row.code := by
  have codes := congrArg (List.map Row.code) (map_parts_printed col rs)
  rwa [List.map_map] at codes

theorem map_printed {α : Type} {f : PrintedLine → α} {g : Row → α}
    (same : ∀ depth r, f (Row.printed col (depth, r)) = g (r.indent depth)) :
    (printed col rs).map f = (indentFrom 0 rs).map g := by
  rw [indentFrom_eq, ← List.map_uncurry_zip_eq_zipWith, printed, List.map_map, List.map_map]
  congr 1
  funext ⟨depth, r⟩
  exact same depth r

theorem map_text_printed :
    (printed col rs).map PrintedLine.text = (indentFrom 0 rs).map (Row.render col) := by
  apply map_printed
  intro depth r
  cases comment : r.comment <;>
    simp [Row.printed, PrintedLine.text, Row.indent, Row.render, indentWidth, comment]

theorem map_width_printed :
    (printed col rs).map (fun p => (p.width, p.comment.isSome)) =
      (indentFrom 0 rs).map (fun r => (r.code.length, r.comment.isSome)) := by
  apply map_printed
  intro depth r
  simp [Row.printed, PrintedLine.width, Row.indent, indentWidth]

theorem exists_printed_iff (q : Nat → Bool → Prop) :
    (∃ p ∈ printed col rs, q p.width p.comment.isSome) ↔
      ∃ r ∈ indentFrom 0 rs, q r.code.length r.comment.isSome := by
  simpa using congrArg (fun sizes => ∃ s ∈ sizes, q s.1 s.2) (map_width_printed col rs)

theorem gap_printed {p : PrintedLine} (member : p ∈ printed col rs) {gap : Nat} {comment : Text}
    (noted : p.comment = some (gap, comment)) : gap = col - p.width := by
  obtain ⟨⟨depth, r⟩, -, rfl⟩ := List.mem_map.mp member
  obtain ⟨_, _, same⟩ := Option.map_eq_some_iff.mp noted
  simp only [Prod.mk.injEq] at same
  simp [← same.1, Row.printed, PrintedLine.width, Row.indent, indentWidth]

theorem depth_printed {k : Nat} {p : PrintedLine} (place : (printed col rs)[k]? = some p) :
    (p.depth : ℤ) =
      standing (depthFrom 0 (((printed col rs).take k).map PrintedLine.code)) p.code := by
  rw [List.map_take, map_code_printed]
  rw [printed, List.getElem?_map, Option.map_eq_some_iff] at place
  obtain ⟨⟨depth, r⟩, place, rfl⟩ := place
  obtain ⟨level, row⟩ := List.getElem?_zip_eq_some.mp place
  exact depths_eq_standing level (by simp [row, Row.printed])

theorem isGreatest_printed (starts : column (indentFrom 0 rs) = col)
    (noted : ∃ p ∈ printed col rs, p.comment.isSome = true) :
    IsGreatest {c | ∃ p ∈ printed col rs, p.comment.isSome = true ∧ c = p.width + 4} col := by
  have same (c : Nat) := exists_printed_iff col rs fun width commented =>
    commented = true ∧ c = width + 4
  have rowNoted := (exists_printed_iff col rs fun _ commented => commented = true).mp noted
  simp only [same]
  exact starts ▸ isGreatest_column rowNoted

theorem aligned_printed (starts : column (indentFrom 0 rs) = col) {kept : List Text}
    (parted : List.Forall₂ Parted kept rs) : Aligned kept col (printed col rs) where
  parts := by rwa [map_parts_printed]
  depth _ _ place := depth_printed col rs place
  comment p member gap comment noted := by
    have commented : p.comment.isSome = true := by simp [noted]
    have within := (isGreatest_printed col rs starts ⟨p, member, commented⟩).2
      ⟨p, member, commented, rfl⟩
    have rest := gap_printed col rs member noted
    omega
  widest := isGreatest_printed col rs starts

end Printing

theorem newline_not_mem_text {p : PrintedLine} {line : Text} (parted : Parted line p.parts)
    (single : '\n' ∉ line) : '\n' ∉ p.text := by
  have code : '\n' ∉ p.code := (parted.not_mem single).1
  cases noted : p.comment with
  | none => simp [PrintedLine.text, noted, code]
  | some split =>
    have comment : '\n' ∉ split.2 :=
      (parted.not_mem single).2 split.2 (by simp [PrintedLine.parts, noted])
    simp [PrintedLine.text, noted, code, comment]

/-- Lining up any text prints its kept lines, one line each. No row with a comment is wider than the
column the comments start in, so the gaps are differences that do not go below zero. -/
theorem format_aligned (text : Text) :
    ∃ ps, Aligned ((lines text).filter (Kept ·)) (column (rows text)) ps ∧
      format text = terminated (ps.map PrintedLine.text) ∧ (∀ p ∈ ps, '\n' ∉ p.text) ∧
      ∀ r ∈ rows text, r.comment.isSome = true → r.code.length ≤ column (rows text) := by
  obtain ⟨kept, lined⟩ : ∃ kept, kept = (lines text).filter (Kept ·) := ⟨_, rfl⟩
  have drawn : rows text = indentFrom 0 (kept.map Row.ofLine) := by rw [rows_eq, lined]
  have parted : List.Forall₂ Parted kept (kept.map Row.ofLine) := by
    rw [List.forall₂_map_right_iff, List.forall₂_same]
    exact fun line _ => parted_ofLine line
  refine ⟨printed (column (rows text)) (kept.map Row.ofLine),
    lined ▸ aligned_printed _ _ (by rw [drawn]) parted, ?_, ?_, ?_⟩
  · rw [map_text_printed, ← drawn]
    rfl
  · intro p member
    have among : p.parts ∈ kept.map Row.ofLine := by
      rw [← map_parts_printed (column (rows text)) (kept.map Row.ofLine)]
      exact List.mem_map_of_mem member
    obtain ⟨line, inKept, parts⟩ := List.mem_map.mp among
    have inLines : line ∈ lines text := (List.mem_filter.mp (lined ▸ inKept)).1
    exact newline_not_mem_text (parts ▸ parted_ofLine line) (newline_not_mem_lines inLines)
  · exact fun r member commented => (length_lt_column member commented).le

-- The brace that closes at depth zero takes nothing off, and the one behind it puts one on.
example : format "\x7d x \x7b\n\ta\n\x7d".toList = "\x7d x \x7b\n        a\n\x7d\n".toList := by
  decide

end MemberOffsets.Columns
