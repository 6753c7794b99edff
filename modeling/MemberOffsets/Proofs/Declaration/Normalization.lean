import Mathlib.Order.WellFounded
import MemberOffsets.Proofs.Declaration.Comments

set_option autoImplicit false

namespace MemberOffsets

open Text

namespace Text

theorem lines_single {s : Text} (single : '\n' ∉ s) : lines s = [s] :=
  List.splitOn_eq_singleton single

theorem lines_append {s : Text} (single : '\n' ∉ s) (t : Text) :
    lines (s ++ '\n' :: t) = s :: lines t :=
  List.splitOn_append_cons_self_of_not_mem single t

theorem lines_induction {P : Text → Prop} (single : ∀ s, '\n' ∉ s → P s)
    (line : ∀ s t, '\n' ∉ s → P t → P (s ++ '\n' :: t)) (text : Text) : P text :=
  part_induction '\n' single line text

theorem newline_not_mem_lines {text l : Text} (member : l ∈ lines text) : '\n' ∉ l := by
  induction text using lines_induction with
  | single s absent =>
    rw [lines_single absent, List.mem_singleton] at member
    rwa [member]
  | line s t absent ih =>
    rw [lines_append absent] at member
    rcases List.mem_cons.mp member with rfl | later
    · exact absent
    · exact ih later

end Text

theorem tidyLines_blank (s : Text) : tidyLines (s ++ [' ']) = tidyLines s := by
  have trimmed (s : Text) : trim (s ++ [' ']) = trim s := trim_append_right s (by decide)
  have kept : (lines (s ++ [' '])).map trim = (lines s).map trim := by
    induction s using lines_induction with
    | single s absent =>
      have wider : '\n' ∉ s ++ [' '] := List.not_mem_append absent (by decide)
      simp [lines_single absent, lines_single wider, trimmed]
    | line s t absent ih =>
      rw [List.append_assoc, List.cons_append, lines_append absent, lines_append absent,
        List.map_cons, List.map_cons, ih]
  rw [tidyLines, tidyLines, kept]

def keptLines (text : Text) : List Text := ((lines text).map trim).filter (!·.isEmpty)

structure TidyLine (l : Text) : Prop where
  nonempty : l ≠ []
  head : ∀ c ∈ l.head?, isBlank c = false
  last : ∀ c ∈ l.getLast?, isBlank c = false

theorem tidyLine_of_kept {text l : Text} (member : l ∈ keptLines text) : TidyLine l := by
  obtain ⟨inside, nonempty⟩ := List.mem_filter.mp member
  obtain ⟨k, -, rfl⟩ := List.mem_map.mp inside
  exact ⟨by simpa using nonempty, (trim_dark k).1, (trim_dark k).2⟩

theorem lines_tidyLines (text : Text) :
    tidyLines text = [] ∨ lines (tidyLines text) = keptLines text := by
  cases kept : keptLines text with
  | nil => exact .inl (by rw [tidyLines, ← keptLines, kept]; rfl)
  | cons l ls =>
    right
    rw [tidyLines, ← keptLines, ← kept, lines, unlines]
    apply List.splitOn_intercalate
    · intro k member
      obtain ⟨j, line, rfl⟩ := List.mem_map.mp (List.mem_filter.mp member).1
      exact fun newline => newline_not_mem_lines line ((trim_part j).subset newline)
    · simp [kept]

theorem commentFree_iff {s : Text} :
    CommentFree s ↔ ¬ ['/', '/'] <:+: s ∧ ¬ ['/', '*'] <:+: s := by
  constructor
  · intro free
    constructor <;> intro inside <;> simpa [CommentFree] using free.part inside
  · rintro ⟨line, block⟩
    exact .of_marks line block

structure Normalized (t : Text) : Prop where
  line : ¬ ['/', '/'] <:+: t
  block : ¬ ['/', '*'] <:+: t
  tidy : t = [] ∨ ∀ l ∈ lines t, TidyLine l

theorem normalized_normalize (text : Text) : Normalized (normalize text) := by
  obtain ⟨line, block⟩ := commentFree_iff.mp (commentFree_normalize text)
  refine ⟨line, block, ?_⟩
  rw [normalize]
  rcases lines_tidyLines (stripComments text) with empty | kept
  · exact .inl empty
  · rw [kept]
    exact .inr fun l member => tidyLine_of_kept member

theorem tidyLines_eq_self {t : Text} (tidy : ∀ l ∈ lines t, TidyLine l) : tidyLines t = t := by
  have trimmed : (lines t).map trim = lines t :=
    calc (lines t).map trim
      _ = (lines t).map id := List.map_congr_left fun l member =>
          trim_eq_self (tidy l member).head (tidy l member).last
      _ = lines t := List.map_id _
  have full : (lines t).filter (!·.isEmpty) = lines t := by
    apply List.filter_eq_self.mpr
    intro l member
    simpa using (tidy l member).nonempty
  rw [tidyLines, trimmed, full, unlines, lines, List.intercalate_splitOn]

theorem Normalized.fixed {t : Text} (normal : Normalized t) : normalize t = t := by
  rw [normalize, stripComments_eq_self (.of_marks normal.line normal.block)]
  rcases normal.tidy with rfl | tidy
  · rfl
  · exact tidyLines_eq_self tidy

theorem normalize_normalize (text : Text) : normalize (normalize text) = normalize text :=
  (normalized_normalize text).fixed

theorem stripFrom_star {c : Char} {r : Text} (apart : c = '*' → ∀ d ∈ r.head?, d ≠ '/') :
    stripFrom .blockComment (c :: r) = stripFrom .blockComment r := by
  rw [stripFrom]
  rintro t rfl rfl
  exact apart rfl '/' rfl rfl

theorem not_infix_cons {c : Char} {s : Text} (unclosed : ¬ ['*', '/'] <:+: c :: s) :
    (c = '*' → ∀ d ∈ s.head?, d ≠ '/') ∧ ¬ ['*', '/'] <:+: s := by
  constructor
  · rintro rfl d first rfl
    obtain ⟨t, rfl⟩ := List.head?_eq_some_iff.mp first
    exact unclosed ⟨[], t, rfl⟩
  · exact fun inside => unclosed (inside.trans (List.suffix_cons c s).isInfix)

theorem stripFrom_closed {s : Text} (unclosed : ¬ ['*', '/'] <:+: s) (t : Text) :
    stripFrom .blockComment (s ++ '*' :: '/' :: t) = stripFrom .code t := by
  induction s with
  | nil => simp [stripFrom]
  | cons c s ih =>
    obtain ⟨apart, rest⟩ := not_infix_cons unclosed
    rw [List.cons_append, stripFrom_star, ih rest]
    intro star d first
    cases s with
    | nil =>
      obtain rfl : '*' = d := by simpa using first
      decide
    | cons e s => exact apart star d (by simpa using first)

theorem stripFrom_unclosed {s : Text} (unclosed : ¬ ['*', '/'] <:+: s) :
    stripFrom .blockComment s = [] := by
  induction s with
  | nil => rfl
  | cons c s ih =>
    obtain ⟨apart, rest⟩ := not_infix_cons unclosed
    rw [stripFrom_star apart, ih rest]

theorem stripFrom_lastLine {s : Text} (single : '\n' ∉ s) : stripFrom .lineComment s = [] := by
  induction s with
  | nil => rfl
  | cons c s ih =>
    rw [List.mem_cons, not_or] at single
    rw [stripFrom, ih single.2]
    exact fun same => single.1 same.symm

/-- A text that a comment may follow: none starts in it, nor at its last character. -/
structure BeforeComment (u : Text) : Prop where
  line : ¬ ['/', '/'] <:+: u
  block : ¬ ['/', '*'] <:+: u
  last : u.getLast? ≠ some '/'

structure CommentLaws (f : Text → Text) : Prop where
  block (u c v : Text) : BeforeComment u → ¬ ['*', '/'] <:+: c →
    f (u ++ ['/', '*'] ++ c ++ ['*', '/'] ++ v) = f (u ++ [' '] ++ v)
  line (u c v : Text) : BeforeComment u → '\n' ∉ c →
    f (u ++ ['/', '/'] ++ c ++ ['\n'] ++ v) = f (u ++ ['\n'] ++ v)
  lastLine (u c : Text) : BeforeComment u → '\n' ∉ c → f (u ++ ['/', '/'] ++ c) = f u
  unclosed (u c : Text) : BeforeComment u → ¬ ['*', '/'] <:+: c → f (u ++ ['/', '*'] ++ c) = f u
  plain (t : Text) : ¬ ['/', '/'] <:+: t → ¬ ['/', '*'] <:+: t →
    f t = ['\n'].intercalate (((lines t).map trim).filter (!·.isEmpty))

theorem BeforeComment.strip {u : Text} (before : BeforeComment u) (t : Text) :
    stripComments (u ++ t) = u ++ stripFrom .code t :=
  stripFrom_append (.of_marks before.line before.block) fun slash => absurd slash before.last

theorem commentLaws_normalize : CommentLaws normalize where
  block u c v before unclosed := by
    have whole : stripComments (u ++ ['/', '*'] ++ c ++ ['*', '/'] ++ v) =
        stripComments (u ++ [' '] ++ v) := by
      simp [before.strip, stripFrom, stripFrom_closed unclosed]
    rw [normalize, whole, normalize]
  line u c v before single := by
    have whole : stripComments (u ++ ['/', '/'] ++ c ++ ['\n'] ++ v) =
        stripComments (u ++ ['\n'] ++ v) := by
      simp [before.strip, stripFrom, stripFrom_lineComment single]
    rw [normalize, whole, normalize]
  lastLine u c before single := by
    have whole : stripComments (u ++ ['/', '/'] ++ c) = stripComments (u ++ []) := by
      rw [List.append_assoc, before.strip, before.strip]
      simp [stripFrom, stripFrom_lastLine single]
    rw [normalize, whole, List.append_nil, normalize]
  unclosed u c before unclosed := by
    have whole : stripComments (u ++ ['/', '*'] ++ c) = u ++ [' '] := by
      rw [List.append_assoc, before.strip]
      simp [stripFrom, stripFrom_unclosed unclosed]
    rw [normalize, whole, tidyLines_blank, normalize,
      stripComments_eq_self (.of_marks before.line before.block)]
  plain t line block := by
    rw [normalize, stripComments_eq_self (.of_marks line block)]
    rfl

theorem exists_shortest {P : Text → Prop} (found : ∃ u, P u) :
    ∃ u, P u ∧ ∀ v, P v → u.length ≤ v.length := by
  obtain ⟨u, here, least⟩ := (measure List.length).wf.has_min {u | P u} found
  exact ⟨u, here, fun v there => Nat.le_of_not_lt (least v there)⟩

theorem exists_first {pattern s : Text} (inside : pattern <:+: s) (nonempty : pattern ≠ []) :
    ∃ before behind, s = before ++ pattern ++ behind ∧ ¬ pattern <:+: before := by
  obtain ⟨before, ⟨behind, rfl⟩, shortest⟩ :=
    exists_shortest (P := fun u => ∃ v, u ++ pattern ++ v = s) inside
  refine ⟨before, behind, rfl, ?_⟩
  rintro ⟨front, between, rfl⟩
  have longer := shortest front ⟨between ++ pattern ++ behind, by simp⟩
  have positive := List.length_pos_iff.mpr nonempty
  simp only [List.length_append] at longer
  omega

theorem exists_comment {t : Text} (marked : ¬ CommentFree t) :
    ∃ u d r, t = u ++ ['/', d] ++ r ∧ (d = '/' ∨ d = '*') ∧ BeforeComment u := by
  have somewhere : ∃ u, ∃ d r, t = u ++ ['/', d] ++ r ∧ (d = '/' ∨ d = '*') := by
    rw [commentFree_iff, not_and_or, not_not, not_not] at marked
    rcases marked with ⟨u, r, same⟩ | ⟨u, r, same⟩
    · exact ⟨u, '/', r, same.symm, .inl rfl⟩
    · exact ⟨u, '*', r, same.symm, .inr rfl⟩
  obtain ⟨u, ⟨d, r, rfl, mark⟩, shortest⟩ := exists_shortest somewhere
  refine ⟨u, d, r, rfl, mark, ?_, ?_, ?_⟩
  · rintro ⟨v, s, rfl⟩
    have longer := shortest v ⟨'/', s ++ ['/', d] ++ r, by simp, .inl rfl⟩
    simp only [List.length_append, List.length_cons] at longer
    omega
  · rintro ⟨v, s, rfl⟩
    have longer := shortest v ⟨'*', s ++ ['/', d] ++ r, by simp, .inr rfl⟩
    simp only [List.length_append, List.length_cons] at longer
    omega
  · intro last
    obtain ⟨v, rfl⟩ := List.getLast?_eq_some_iff.mp last
    have longer := shortest v ⟨'/', d :: r, by simp, .inl rfl⟩
    simp only [List.length_append, List.length_cons] at longer
    omega

-- Every law but the one for plain texts leads to a shorter text.
theorem CommentLaws.unique {f g : Text → Text} (left : CommentLaws f) (right : CommentLaws g)
    (t : Text) : f t = g t := by
  induction length : t.length using Nat.strongRecOn generalizing t with
  | _ n ih =>
    by_cases free : CommentFree t
    · obtain ⟨line, block⟩ := commentFree_iff.mp free
      rw [left.plain t line block, right.plain t line block]
    · obtain ⟨u, d, r, rfl, mark, before⟩ := exists_comment free
      simp only [List.length_append, List.length_cons] at length
      rcases mark with rfl | rfl
      · by_cases newline : '\n' ∈ r
        · obtain ⟨c, v, rfl, single⟩ := List.eq_append_cons_of_mem newline
          have shape : u ++ ['/', '/'] ++ (c ++ '\n' :: v) =
              u ++ ['/', '/'] ++ c ++ ['\n'] ++ v := by simp
          have shorter : (u ++ ['\n'] ++ v).length < n := by
            simp only [← length, List.length_append, List.length_cons]
            omega
          rw [shape, left.line u c v before single, right.line u c v before single,
            ih _ shorter _ rfl]
        · have shorter : u.length < n := by omega
          rw [left.lastLine u r before newline, right.lastLine u r before newline,
            ih _ shorter _ rfl]
      · by_cases closed : ['*', '/'] <:+: r
        · obtain ⟨c, v, rfl, unclosed⟩ := exists_first closed (by simp)
          have shape : u ++ ['/', '*'] ++ (c ++ ['*', '/'] ++ v) =
              u ++ ['/', '*'] ++ c ++ ['*', '/'] ++ v := by simp
          have shorter : (u ++ [' '] ++ v).length < n := by
            simp only [← length, List.length_append, List.length_cons]
            omega
          rw [shape, left.block u c v before unclosed, right.block u c v before unclosed,
            ih _ shorter _ rfl]
        · have shorter : u.length < n := by omega
          rw [left.unclosed u r before closed, right.unclosed u r before closed,
            ih _ shorter _ rfl]

/-- The laws of comments hold for normalization, and for no other function. -/
theorem commentLaws_iff (f : Text → Text) : CommentLaws f ↔ f = normalize := by
  constructor
  · intro laws
    exact funext (laws.unique commentLaws_normalize)
  · rintro rfl
    exact commentLaws_normalize

end MemberOffsets
