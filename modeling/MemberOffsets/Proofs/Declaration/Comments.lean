import Mathlib.Data.List.Chain
import MemberOffsets.Declaration.Source
import MemberOffsets.Proofs.Text.Words

set_option autoImplicit false

namespace MemberOffsets

open Text

def CommentFree (s : Text) : Prop := s.IsChain fun a b => a = '/' → b ≠ '/' ∧ b ≠ '*'

namespace CommentFree

variable {s t : Text}

theorem nil : CommentFree [] := List.IsChain.nil

theorem part (free : CommentFree t) (inside : s <:+: t) : CommentFree s := by
  obtain ⟨before, after, rfl⟩ := inside
  exact (List.IsChain.left_of_append free).right_of_append

theorem of_slashless (plain : '/' ∉ s) : CommentFree s := by
  induction s with
  | nil => exact .nil
  | cons c s ih =>
    rw [List.mem_cons, not_or] at plain
    apply List.isChain_cons.mpr
    exact ⟨fun d _ same => absurd same.symm plain.1, ih plain.2⟩

theorem append (left : CommentFree s) (right : CommentFree t)
    (apart : s.getLast? = some '/' → ∀ c ∈ t.head?, c ≠ '/' ∧ c ≠ '*') : CommentFree (s ++ t) := by
  apply List.IsChain.append left right
  rintro _ last c first rfl
  exact apart last c first

theorem of_marks (line : ¬ ['/', '/'] <:+: s) (block : ¬ ['/', '*'] <:+: s) : CommentFree s := by
  induction s with
  | nil => exact .nil
  | cons c s ih =>
    have rest := ih (fun inside => line (inside.trans (List.suffix_cons c s).isInfix))
      (fun inside => block (inside.trans (List.suffix_cons c s).isInfix))
    apply List.isChain_cons.mpr ⟨?_, rest⟩
    rintro d first rfl
    obtain ⟨t, rfl⟩ := List.head?_eq_some_iff.mp first
    constructor
    · rintro rfl
      exact line ⟨[], t, rfl⟩
    · rintro rfl
      exact block ⟨[], t, rfl⟩

theorem cons {c : Char} (plain : c ≠ '/') (free : CommentFree s) : CommentFree (c :: s) :=
  List.isChain_cons.mpr ⟨fun _ _ same => absurd same plain, free⟩

theorem intercalate {c : Char} (slash : c ≠ '/') (star : c ≠ '*') {ls : List Text}
    (free : ∀ l ∈ ls, CommentFree l) : CommentFree ([c].intercalate ls) := by
  induction ls with
  | nil => exact .nil
  | cons l ls ih =>
    have first := free l List.mem_cons_self
    have rest := ih fun k member => free k (List.mem_cons_of_mem l member)
    cases ls with
    | nil => simpa using first
    | cons k ls =>
      rw [List.intercalate_cons_cons, List.append_assoc]
      apply first.append (rest.cons slash)
      intro _ d head
      obtain rfl : c = d := by simpa using head
      exact ⟨slash, star⟩

theorem collapse (free : CommentFree s) : CommentFree (collapse s) := by
  apply intercalate (by decide) (by decide)
  intro w member
  exact free.part (mem_words member).2.2

end CommentFree

theorem stripFrom_cons {c : Char} {r : Text} (plain : c = '/' → ∀ d ∈ r.head?, d ≠ '/' ∧ d ≠ '*') :
    stripFrom .code (c :: r) = c :: stripFrom .code r := by
  by_cases slash : c = '/'
  · cases r with
    | nil => simp [stripFrom]
    | cons d r =>
      obtain ⟨notSlash, notStar⟩ := plain slash d rfl
      simp [stripFrom, slash, notSlash, notStar]
  · simp [stripFrom, slash]

theorem stripFrom_append {s t : Text} (free : CommentFree s)
    (apart : s.getLast? = some '/' → ∀ c ∈ t.head?, c ≠ '/' ∧ c ≠ '*') :
    stripFrom .code (s ++ t) = s ++ stripFrom .code t := by
  induction s with
  | nil => rfl
  | cons c s ih =>
    obtain ⟨next, rest⟩ := List.isChain_cons.mp free
    have plain : c = '/' → ∀ d ∈ (s ++ t).head?, d ≠ '/' ∧ d ≠ '*' := by
      intro slash d first
      cases s with
      | nil => exact apart (by simp [slash]) d first
      | cons e s => exact next d (by simpa using first) slash
    have last : s.getLast? = some '/' → ∀ d ∈ t.head?, d ≠ '/' ∧ d ≠ '*' := by
      intro slash
      apply apart
      rw [List.getLast?_cons, slash]
      rfl
    rw [List.cons_append, stripFrom_cons plain, ih rest last, List.cons_append]

theorem stripFrom_lineComment {s : Text} (single : '\n' ∉ s) (t : Text) :
    stripFrom .lineComment (s ++ '\n' :: t) = '\n' :: stripFrom .code t := by
  induction s with
  | nil => simp [stripFrom]
  | cons c s ih =>
    rw [List.mem_cons, not_or] at single
    rw [List.cons_append, stripFrom, ih single.2]
    exact fun same => single.1 same.symm

theorem commentFree_stripFrom (zone : Zone) (s : Text) : CommentFree (stripFrom zone s) := by
  fun_induction stripFrom zone s with
  | case1 => exact .nil
  | case2 r ih => exact ih
  | case3 r ih => exact ih.cons (by decide)
  | case4 c r noLine noBlock ih =>
    apply List.isChain_cons.mpr ⟨?_, ih⟩
    intro d first slash
    cases r with
    | nil => simp [stripFrom] at first
    | cons e r =>
      have notSlash : e ≠ '/' := fun same => noLine r slash (by rw [same])
      have notStar : e ≠ '*' := fun same => noBlock r slash (by rw [same])
      rw [stripFrom_cons fun same => absurd same notSlash] at first
      obtain rfl : e = d := by simpa using first
      exact ⟨notSlash, notStar⟩
  | case5 r ih => exact ih.cons (by decide)
  | case6 c r _ ih => exact ih
  | case7 r ih => exact ih
  | case8 c r _ ih => exact ih

theorem part_intercalate {sep l : Text} {ls : List Text} (member : l ∈ ls) :
    l <:+: sep.intercalate ls := by
  induction ls with
  | nil => simp at member
  | cons k ls ih =>
    cases ls with
    | nil =>
      obtain rfl : l = k := by simpa using member
      simp
    | cons j ls =>
      rw [List.intercalate_cons_cons, List.append_assoc]
      rcases List.mem_cons.mp member with rfl | later
      · exact (List.prefix_append l _).isInfix
      · exact (ih later).trans ⟨k ++ sep, [], by simp⟩

theorem stripComments_eq_self {text : Text} (free : CommentFree text) :
    stripComments text = text := by
  have whole := stripFrom_append free (t := []) (fun _ => by simp)
  simpa [stripComments, stripFrom] using whole

theorem words_tidyLines (text : Text) : words (tidyLines text) = words text := by
  have kept (ls : List Text) :
      ((ls.map trim).filter (!·.isEmpty)).flatMap words = ls.flatMap words := by
    induction ls with
    | nil => rfl
    | cons l ls ih =>
      rw [List.map_cons, List.filter_cons, List.flatMap_cons, ← words_trim l]
      cases trimmed : trim l with
      | nil => simpa using ih
      | cons c r => simp [ih]
  have newline : isBlank '\n' = true := by decide
  rw [tidyLines, unlines, words_intercalate newline, kept, ← words_intercalate newline, lines,
    List.intercalate_splitOn]

theorem normalize_dark (text : Text) :
    (∀ c ∈ (normalize text).head?, isBlank c = false) ∧
      ∀ c ∈ (normalize text).getLast?, isBlank c = false := by
  apply intercalate_dark
  intro l member
  obtain ⟨inside, nonempty⟩ := List.mem_filter.mp member
  obtain ⟨k, -, rfl⟩ := List.mem_map.mp inside
  exact ⟨by simpa using nonempty, trim_dark k⟩

theorem commentFree_normalize (text : Text) : CommentFree (normalize text) := by
  have free : CommentFree (stripComments text) := commentFree_stripFrom .code text
  apply CommentFree.intercalate (by decide) (by decide)
  intro l member
  obtain ⟨k, line, rfl⟩ := List.mem_map.mp (List.mem_filter.mp member).1
  apply free.part
  apply (trim_part k).trans
  have joined : k <:+: ['\n'].intercalate (lines _) := part_intercalate line
  rwa [lines, List.intercalate_splitOn] at joined

end MemberOffsets
