import Mathlib.Data.Option.Basic
import MemberOffsets.Proofs.Text.Characters
import MemberOffsets.Proofs.Text.Words

set_option autoImplicit false

namespace MemberOffsets.Text

structure Gap (g : Text) : Prop where
  nonempty : g ≠ []
  blank : allBlank g = true

inductive Respaced : Text → Text → Prop
  | nil : Respaced [] []
  | dark {c : Char} {s t : Text} : isBlank c = false → Respaced s t → Respaced (c :: s) (c :: t)
  | gap {g h s t : Text} : Gap g → Gap h → Respaced s t → Respaced (g ++ s) (h ++ t)

namespace Gap

variable {g : Text}

theorem single {c : Char} (blank : isBlank c = true) : Gap [c] :=
  ⟨by simp, by simp [allBlank, blank]⟩

theorem cons {c : Char} (gap : Gap g) (blank : isBlank c = true) : Gap (c :: g) :=
  ⟨by simp, by simpa [allBlank, blank] using gap.blank⟩

theorem exists_cons (gap : Gap g) :
    ∃ c r, g = c :: r ∧ isBlank c = true ∧ allBlank r = true := by
  obtain ⟨c, r, rfl⟩ := List.exists_cons_of_ne_nil gap.nonempty
  have blank := gap.blank
  simp only [allBlank, List.all_cons, Bool.and_eq_true] at blank
  exact ⟨c, r, rfl, blank.1, blank.2⟩

theorem reverse (gap : Gap g) : Gap g.reverse :=
  ⟨by simpa using gap.nonempty, by simpa [allBlank] using gap.blank⟩

section

variable {p : Char → Bool}

theorem takeWhile_append (gap : Gap g) (passed : ∀ c, isBlank c = true → p c = true) (s : Text) :
    (g ++ s).takeWhile p = g ++ s.takeWhile p :=
  List.takeWhile_append_of_pos fun c member => passed c (allBlank_iff.mp gap.blank c member)

theorem dropWhile_append (gap : Gap g) (passed : ∀ c, isBlank c = true → p c = true) (s : Text) :
    (g ++ s).dropWhile p = s.dropWhile p :=
  List.dropWhile_append_of_pos fun c member => passed c (allBlank_iff.mp gap.blank c member)

theorem takeWhile_stopped (gap : Gap g) (stopped : ∀ c, isBlank c = true → p c = false) (s : Text) :
    (g ++ s).takeWhile p = [] := by
  obtain ⟨c, r, rfl, blank, -⟩ := gap.exists_cons
  simp [stopped c blank]

theorem dropWhile_stopped (gap : Gap g) (stopped : ∀ c, isBlank c = true → p c = false) (s : Text) :
    (g ++ s).dropWhile p = g ++ s := by
  obtain ⟨c, r, rfl, blank, -⟩ := gap.exists_cons
  simp [stopped c blank]

end

theorem words_append (gap : Gap g) (s t : Text) : words (s ++ (g ++ t)) = words s ++ words t := by
  obtain ⟨c, r, rfl, blank, later⟩ := gap.exists_cons
  rw [List.cons_append, Text.words_append s blank, words_append_left later]

theorem splitWords_append (gap : Gap g) (s : Text) : splitWords (g ++ s) = ([], words s) := by
  obtain ⟨c, r, rfl, blank, later⟩ := gap.exists_cons
  rw [← words_append_left later s]
  simp [splitWords, words, blank]

end Gap

namespace Respaced

variable {s t s' t' : Text}

theorem refl (s : Text) : Respaced s s := by
  induction s with
  | nil => exact .nil
  | cons c s ih =>
    cases blank : isBlank c with
    | false => exact .dark blank ih
    | true => exact .gap (.single blank) (.single blank) ih

theorem symm (spaced : Respaced s t) : Respaced t s := by
  induction spaced with
  | nil => exact .nil
  | dark dark _ ih => exact .dark dark ih
  | gap g h _ ih => exact .gap h g ih

theorem append (left : Respaced s t) (right : Respaced s' t') : Respaced (s ++ s') (t ++ t') := by
  induction left with
  | nil => exact right
  | dark dark _ ih => exact .dark dark ih
  | gap g h _ ih =>
    rw [List.append_assoc, List.append_assoc]
    exact .gap g h ih

theorem reverse (spaced : Respaced s t) : Respaced s.reverse t.reverse := by
  induction spaced with
  | nil => exact .nil
  | dark dark _ ih =>
    rw [List.reverse_cons, List.reverse_cons]
    exact ih.append (.dark dark .nil)
  | gap g h _ ih =>
    rw [List.reverse_append, List.reverse_append]
    have gaps : Respaced _ _ := .gap g.reverse h.reverse .nil
    rw [List.append_nil, List.append_nil] at gaps
    exact ih.append gaps

theorem uncons_dark {c : Char} (spaced : Respaced (c :: s) t) (dark : isBlank c = false) :
    ∃ r, t = c :: r ∧ Respaced s r := by
  generalize whole : c :: s = u at spaced
  cases spaced with
  | nil => contradiction
  | dark _ rest =>
    obtain ⟨rfl, rfl⟩ := List.cons.inj whole
    exact ⟨_, rfl, rest⟩
  | gap g _ _ =>
    obtain ⟨d, r, rfl, blank, -⟩ := g.exists_cons
    obtain ⟨rfl, -⟩ := List.cons.inj whole
    exact absurd rfl (ne_of_isBlank blank dark)

theorem uncons_blank {c : Char} (spaced : Respaced (c :: s) t) (blank : isBlank c = true) :
    ∃ g r h u, c :: s = g ++ r ∧ t = h ++ u ∧ Gap g ∧ Gap h ∧ Respaced r u := by
  generalize whole : c :: s = u at spaced
  cases spaced with
  | nil => contradiction
  | dark dark _ =>
    obtain ⟨rfl, -⟩ := List.cons.inj whole
    exact absurd rfl (ne_of_isBlank blank dark)
  | gap g h rest => exact ⟨_, _, _, _, rfl, rfl, g, h, rest⟩

theorem drop_blank {c : Char} (spaced : Respaced (c :: s) t) (blank : isBlank c = true) :
    ∃ h u, t = h ++ u ∧ allBlank h = true ∧ Respaced s u := by
  obtain ⟨g, r, h, u, whole, rfl, gap, gap', rest⟩ := spaced.uncons_blank blank
  obtain ⟨d, g', rfl, -, later⟩ := gap.exists_cons
  obtain ⟨-, rfl⟩ := List.cons.inj whole
  cases g' with
  | nil => exact ⟨h, u, rfl, gap'.blank, rest⟩
  | cons e g' => exact ⟨[], h ++ u, rfl, rfl, .gap ⟨by simp, later⟩ gap' rest⟩

theorem heads (spaced : Respaced s t) :
    (s = [] ∧ t = []) ∨
      (∃ c r u, s = c :: r ∧ t = c :: u ∧ isBlank c = false ∧ Respaced r u) ∨
        ∃ c d r u, s = c :: r ∧ t = d :: u ∧ isBlank c = true ∧ isBlank d = true := by
  cases spaced with
  | nil => exact .inl ⟨rfl, rfl⟩
  | dark dark rest => exact .inr (.inl ⟨_, _, _, rfl, rfl, dark, rest⟩)
  | gap g h _ =>
    obtain ⟨c, r, rfl, blank, -⟩ := g.exists_cons
    obtain ⟨d, u, rfl, blank', -⟩ := h.exists_cons
    exact .inr (.inr ⟨c, d, _, _, rfl, rfl, blank, blank'⟩)

theorem isEmpty_eq (spaced : Respaced s t) : s.isEmpty = t.isEmpty := by
  rcases spaced.heads with
    ⟨rfl, rfl⟩ | ⟨c, r, u, rfl, rfl, -, -⟩ | ⟨c, d, r, u, rfl, rfl, -, -⟩ <;> rfl

theorem eq_nil (spaced : Respaced [] t) : t = [] := by
  simpa using spaced.isEmpty_eq.symm

theorem tail (spaced : Respaced s t) (dark : ∀ c ∈ s.head?, isBlank c = false) :
    Respaced s.tail t.tail := by
  rcases spaced.heads with
    ⟨rfl, rfl⟩ | ⟨c, r, u, rfl, rfl, -, rest⟩ | ⟨c, d, r, u, rfl, rfl, blank, -⟩
  · exact .nil
  · exact rest
  · exact absurd rfl (ne_of_isBlank blank (dark c rfl))

theorem allBlank_eq (spaced : Respaced s t) : allBlank s = allBlank t := by
  induction spaced with
  | nil => rfl
  | dark dark _ _ => simp [allBlank, dark]
  | gap g h _ ih =>
    have first := g.blank
    have second := h.blank
    simp only [allBlank] at *
    rw [List.all_append, List.all_append, first, second, ih]

theorem any_head?_eq {p : Char → Bool} (spaced : Respaced s t)
    (stopped : ∀ c, isBlank c = true → p c = false) : s.head?.any p = t.head?.any p := by
  rcases spaced.heads with
    ⟨rfl, rfl⟩ | ⟨c, r, u, rfl, rfl, -, -⟩ | ⟨c, d, r, u, rfl, rfl, blank, blank'⟩
  · rfl
  · rfl
  · simp [stopped c blank, stopped d blank']

theorem splitWords_eq (spaced : Respaced s t) : splitWords s = splitWords t := by
  induction spaced with
  | nil => rfl
  | dark _ _ ih => simp [splitWords, ih]
  | gap g h _ ih => rw [g.splitWords_append, h.splitWords_append, words, words, ih]

theorem words_eq (spaced : Respaced s t) : words s = words t := by
  rw [words, words, spaced.splitWords_eq]

theorem collapse_eq (spaced : Respaced s t) : collapse s = collapse t :=
  collapse_congr spaced.words_eq

theorem mem_iff {c : Char} (spaced : Respaced s t) (dark : isBlank c = false) : c ∈ s ↔ c ∈ t := by
  have squashed : squash s = squash t := by
    rw [← flatten_words, ← flatten_words, spaced.words_eq]
  have kept (r : Text) : c ∈ r ↔ c ∈ squash r := by simp [mem_squash, dark]
  rw [kept s, kept t, squashed]

section

variable {p : Char → Bool}

theorem takeWhile (spaced : Respaced s t) (passed : ∀ c, isBlank c = true → p c = true) :
    Respaced (s.takeWhile p) (t.takeWhile p) := by
  induction spaced with
  | nil => exact .nil
  | @dark c s t dark _ ih =>
    cases here : p c with
    | false => simpa [here] using .nil
    | true => simpa [here] using .dark dark ih
  | gap g h _ ih =>
    rw [g.takeWhile_append passed, h.takeWhile_append passed]
    exact .gap g h ih

theorem dropWhile (spaced : Respaced s t) (passed : ∀ c, isBlank c = true → p c = true) :
    Respaced (s.dropWhile p) (t.dropWhile p) := by
  induction spaced with
  | nil => exact .nil
  | @dark c s t dark rest ih =>
    cases here : p c with
    | false => simpa [here] using .dark dark rest
    | true => simpa [here] using ih
  | gap g h _ ih => rwa [g.dropWhile_append passed, h.dropWhile_append passed]

theorem takeWhile_eq (spaced : Respaced s t) (stopped : ∀ c, isBlank c = true → p c = false) :
    s.takeWhile p = t.takeWhile p := by
  induction spaced with
  | nil => rfl
  | dark _ _ ih => rw [List.takeWhile_cons, List.takeWhile_cons, ih]
  | gap g h _ _ => rw [g.takeWhile_stopped stopped, h.takeWhile_stopped stopped]

theorem dropWhile_stopped (spaced : Respaced s t) (stopped : ∀ c, isBlank c = true → p c = false) :
    Respaced (s.dropWhile p) (t.dropWhile p) := by
  induction spaced with
  | nil => exact .nil
  | @dark c s t dark rest ih =>
    cases here : p c with
    | false => simpa [here] using .dark dark rest
    | true => simpa [here] using ih
  | gap g h rest _ =>
    rw [g.dropWhile_stopped stopped, h.dropWhile_stopped stopped]
    exact .gap g h rest

end

theorem trimmedStart (spaced : Respaced s t) : Respaced (trimStart s) (trimStart t) :=
  spaced.dropWhile fun _ blank => blank

theorem trimmed (spaced : Respaced s t) : Respaced (trim s) (trim t) :=
  spaced.trimmedStart.reverse.trimmedStart.reverse

theorem blanks_pass {c : Char} (dark : isBlank c = false) (d : Char) (blank : isBlank d = true) :
    (d != c) = true := by
  simpa using ne_of_isBlank blank dark

theorem cut {c : Char} (spaced : Respaced s t) (dark : isBlank c = false) :
    Respaced (cutAt c s).1 (cutAt c t).1 ∧ Respaced (cutAt c s).2 (cutAt c t).2 := by
  have passed := blanks_pass dark
  constructor
  · exact spaced.takeWhile passed
  · apply (spaced.dropWhile passed).tail
    intro d first
    have stop := List.head?_dropWhile_not (· != c) s
    rw [Option.mem_def.mp first] at stop
    obtain rfl : d = c := by simpa using stop
    exact dark

end Respaced

theorem Respaced.widen {b c : Char} {s t : Text} (spaced : Respaced (b :: s) t)
    (blank : isBlank b = true) (blank' : isBlank c = true) : Respaced (c :: b :: s) t := by
  obtain ⟨g, r, h, u, whole, rfl, gap, gap', rest⟩ := spaced.uncons_blank blank
  rw [whole]
  exact .gap (gap.cons blank') gap' rest

theorem getLast?_dark {c : Char} {s : Text} (last : ∀ d ∈ (c :: s).getLast?, isBlank d = false) :
    ∀ d ∈ s.getLast?, isBlank d = false := by
  intro d final
  apply last d
  rw [List.getLast?_cons, Option.mem_def.mp final]
  rfl

theorem eq_nil_of_words {s : Text} (last : ∀ c ∈ s.getLast?, isBlank c = false)
    (empty : words s = []) : s = [] := by
  have blank : allBlank s = true := by rw [← squash_eq_nil, ← flatten_words, empty]; rfl
  cases final : s.getLast? with
  | none => simpa using final
  | some c =>
    have here := allBlank_iff.mp blank c (List.mem_of_getLast? final)
    exact absurd rfl (ne_of_isBlank here (last c final))

-- Behind the last blank of a gap the first word begins, and it is the word under way.
theorem splitWords_of_words {s t : Text} (first : ∀ c ∈ s.head?, isBlank c = false)
    (first' : ∀ c ∈ t.head?, isBlank c = false) (same : words s = words t) :
    splitWords s = splitWords t := by
  have shape {s : Text} (first : ∀ c ∈ s.head?, isBlank c = false) :
      words s = [] ∧ splitWords s = ([], []) ∨ words s = (splitWords s).1 :: (splitWords s).2 := by
    cases s with
    | nil => exact .inl ⟨rfl, rfl⟩
    | cons c s => exact .inr (by simp [words, splitWords, first c rfl])
  rcases shape first with ⟨empty, here⟩ | here <;> rcases shape first' with ⟨empty', there⟩ | there
  · rw [here, there]
  · rw [empty, there] at same
    contradiction
  · rw [empty', here] at same
    contradiction
  · rw [here, there] at same
    obtain ⟨word, later⟩ := List.cons.inj same
    exact Prod.ext word later

theorem exists_gap {t : Text} {ws : List Text} (start : splitWords t = ([], ws)) (full : ws ≠ []) :
    ∃ g u, t = g ++ u ∧ Gap g ∧ (∀ c ∈ u.head?, isBlank c = false) ∧ words u = ws := by
  have whole : words t = ws := by rw [words, start]; rfl
  have first := List.head?_dropWhile_not isBlank t
  refine ⟨t.takeWhile isBlank, trimStart t, List.takeWhile_append_dropWhile.symm,
    ⟨?_, List.all_takeWhile⟩, ?_, by rw [words_trimStart, whole]⟩
  · intro gapless
    cases t with
    | nil => exact full (by rw [← whole]; rfl)
    | cons d t =>
      have dark : isBlank d = false := by simpa using gapless
      simp [splitWords, dark] at start
  · intro c here
    rw [trimStart, Option.mem_def] at here
    simpa [here] using first

theorem respaced_of_splitWords {s t : Text} (last : ∀ c ∈ s.getLast?, isBlank c = false)
    (last' : ∀ c ∈ t.getLast?, isBlank c = false) (same : splitWords s = splitWords t) :
    Respaced s t := by
  induction s generalizing t with
  | nil =>
    have empty : words t = [] := by rw [words, ← same]; rfl
    rw [eq_nil_of_words last' empty]
    exact .nil
  | cons c s ih =>
    have rest := getLast?_dark last
    cases blank : isBlank c with
    | false =>
      cases t with
      | nil => simp [splitWords, blank] at same
      | cons d t =>
        cases blank' : isBlank d with
        | true => simp [splitWords, blank, blank'] at same
        | false =>
          obtain ⟨⟨rfl, word⟩, later⟩ : (c = d ∧ (splitWords s).1 = (splitWords t).1) ∧
              (splitWords s).2 = (splitWords t).2 := by simpa [splitWords, blank, blank'] using same
          exact .dark blank (ih rest (getLast?_dark last') (Prod.ext word later))
    | true =>
      rw [show c :: s = [c] ++ s from rfl, (Gap.single blank).splitWords_append] at same
      cases s with
      | nil => exact absurd rfl (ne_of_isBlank blank (last c rfl))
      | cons e s =>
        cases next : isBlank e with
        | true =>
          have spaced : Respaced (e :: s) t := by
            apply ih rest last'
            rw [← same, show e :: s = [e] ++ s from rfl, (Gap.single next).splitWords_append,
              List.singleton_append, words_blank e s next]
          exact spaced.widen next blank
        | false =>
          have full : words (e :: s) ≠ [] := by simp [words, splitWords, next]
          obtain ⟨g, t, rfl, gap, first, whole⟩ := exists_gap same.symm full
          have behind : ∀ d ∈ t.getLast?, isBlank d = false := by
            intro d final
            apply last' d
            rw [List.getLast?_append, Option.mem_def.mp final]
            rfl
          have starts := splitWords_of_words (by simpa using next) first whole.symm
          exact .gap (.single blank) gap (ih rest behind starts)

theorem respaced_of_words {s t : Text}
    (ends : (∀ c ∈ s.head?, isBlank c = false) ∧ ∀ c ∈ s.getLast?, isBlank c = false)
    (ends' : (∀ c ∈ t.head?, isBlank c = false) ∧ ∀ c ∈ t.getLast?, isBlank c = false)
    (same : words s = words t) : Respaced s t :=
  respaced_of_splitWords ends.2 ends'.2 (splitWords_of_words ends.1 ends'.1 same)

end MemberOffsets.Text
