import Mathlib.Data.List.DropRight
import MemberOffsets.Text.Basic

set_option autoImplicit false

namespace MemberOffsets.Text

-- Checking all characters of a text at once, where a search over all characters would not end.
theorem forall_mem_of_all {P : Char → Prop} [DecidablePred P] {s : Text}
    (checked : s.all (fun c => decide (P c)) = true) : ∀ c ∈ s, P c := by
  simpa using checked

section Cuts

variable {p : Char → Bool} {s t : Text}

theorem takeWhile_append_stop (run : ∀ c ∈ s, p c = true) (stop : ∀ c ∈ t.head?, p c = false) :
    (s ++ t).takeWhile p = s := by
  rw [List.takeWhile_append_of_pos run]
  cases t with
  | nil => simp
  | cons c t => simp [stop c rfl]

theorem dropWhile_append_stop (run : ∀ c ∈ s, p c = true) (stop : ∀ c ∈ t.head?, p c = false) :
    (s ++ t).dropWhile p = t := by
  rw [List.dropWhile_append_of_pos run]
  cases t with
  | nil => simp
  | cons c t => simp [stop c rfl]

theorem dropWhile_append_before (s : Text) (stop : ∀ c ∈ t.head?, p c = false) :
    (s ++ t).dropWhile p = s.dropWhile p ++ t := by
  rw [List.dropWhile_append]
  split
  · rename_i all
    rw [List.isEmpty_iff.mp all]
    exact dropWhile_append_stop (s := []) (by simp) stop
  · rfl

theorem takeWhile_append_before (s : Text) (stop : ∀ c ∈ t.head?, p c = false) :
    (s ++ t).takeWhile p = s.takeWhile p := by
  rw [List.takeWhile_append]
  split
  · rename_i all
    have stopped : t.takeWhile p = [] := takeWhile_append_stop (s := []) (by simp) stop
    rw [stopped, List.append_nil, (List.takeWhile_sublist p).eq_of_length all]
  · rfl

theorem forall_ne_of_not_mem {c : Char} (absent : c ∉ s) : ∀ d ∈ s, (d != c) = true := by
  intro d member
  have other : d ≠ c := fun same => absent (same ▸ member)
  simpa using other

theorem cutAt_append {c : Char} (absent : c ∉ s) : cutAt c (s ++ c :: t) = (s, t) := by
  have run := forall_ne_of_not_mem absent
  have stop : ∀ d ∈ (c :: t).head?, (d != c) = false := by simp
  rw [cutAt, takeWhile_append_stop run stop, dropWhile_append_stop run stop, List.tail_cons]

theorem cutAt_absent {c : Char} (absent : c ∉ s) : cutAt c s = (s, []) := by
  have run := forall_ne_of_not_mem absent
  rw [cutAt, List.takeWhile_eq_self_iff.mpr run, List.dropWhile_eq_nil_iff.mpr run, List.tail_nil]

theorem cutAt_append_of_mem {c : Char} (member : c ∈ s) (t : Text) :
    cutAt c (s ++ t) = ((cutAt c s).1, (cutAt c s).2 ++ t) := by
  obtain ⟨before, after, rfl, absent⟩ := List.eq_append_cons_of_mem member
  rw [List.append_assoc, List.cons_append, cutAt_append absent, cutAt_append absent]

theorem not_mem_cutAt (c : Char) (s : Text) : c ∉ (cutAt c s).1 := by
  intro member
  have passed := List.mem_takeWhile_imp member
  simp at passed

theorem part_induction (c : Char) {P : Text → Prop} (single : ∀ s, c ∉ s → P s)
    (part : ∀ s t, c ∉ s → P t → P (s ++ c :: t)) (text : Text) : P text := by
  induction length : text.length using Nat.strongRecOn generalizing text with
  | _ n ih =>
    by_cases member : c ∈ text
    · obtain ⟨s, t, rfl, absent⟩ := List.eq_append_cons_of_mem member
      apply part s t absent
      apply ih t.length _ t rfl
      simp only [List.length_append, List.length_cons] at length
      omega
    · exact single text member

end Cuts

theorem ne_of_isBlank {c d : Char} (blank : isBlank c = true) (dark : isBlank d = false) :
    c ≠ d := by
  rintro rfl
  rw [blank] at dark
  contradiction

theorem allBlank_iff {s : Text} : allBlank s = true ↔ ∀ c ∈ s, isBlank c = true :=
  List.all_eq_true

theorem allBlank_append (s t : Text) : allBlank (s ++ t) = (allBlank s && allBlank t) :=
  List.all_append

@[simp]
theorem trimStart_nil : trimStart [] = [] := rfl

theorem trimStart_append {s : Text} (blank : allBlank s = true) (t : Text) :
    trimStart (s ++ t) = trimStart t :=
  List.dropWhile_append_of_pos (allBlank_iff.mp blank)

theorem trimStart_cons {c : Char} (s : Text) (dark : isBlank c = false) :
    trimStart (c :: s) = c :: s :=
  List.dropWhile_cons_of_neg (by simp [dark])

theorem trimStart_eq_self {s : Text} (first : ∀ c ∈ s.head?, isBlank c = false) :
    trimStart s = s :=
  dropWhile_append_stop (s := []) (by simp) first

theorem trimStart_append_cons (s : Text) {c : Char} (dark : isBlank c = false) (t : Text) :
    trimStart (s ++ c :: t) = trimStart s ++ c :: t :=
  dropWhile_append_before s (by simpa using dark)

theorem not_mem_trimStart {c : Char} {s : Text} (absent : c ∉ s) : c ∉ trimStart s :=
  fun member => absent ((List.dropWhile_sublist isBlank).subset member)

theorem trimEnd_append {t : Text} (s : Text) (blank : allBlank t = true) :
    trimEnd (s ++ t) = trimEnd s := by
  have reversed : ∀ c ∈ t.reverse, isBlank c = true := by
    intro c member
    exact allBlank_iff.mp blank c (List.mem_reverse.mp member)
  rw [trimEnd, List.reverse_append, List.dropWhile_append_of_pos reversed, trimEnd]

theorem trimEnd_append_cons (s : Text) {c : Char} (dark : isBlank c = false) (t : Text) :
    trimEnd (s ++ c :: t) = s ++ c :: trimEnd t := by
  have stop : ∀ d ∈ (c :: s.reverse).head?, isBlank d = false := by simpa using dark
  have shape : (s ++ c :: t).reverse = t.reverse ++ c :: s.reverse := by simp
  rw [trimEnd, shape, dropWhile_append_before _ stop, trimEnd]
  simp

theorem trimEnd_concat (s : Text) {c : Char} (dark : isBlank c = false) :
    trimEnd (s ++ [c]) = s ++ [c] :=
  trimEnd_append_cons s dark []

theorem trimEnd_cons {c : Char} (dark : isBlank c = false) (s : Text) :
    trimEnd (c :: s) = c :: trimEnd s :=
  trimEnd_append_cons [] dark s

theorem trimEnd_part (s : Text) : trimEnd s <+: s := by
  rw [trimEnd, ← List.reverse_suffix, List.reverse_reverse]
  exact List.dropWhile_suffix isBlank

theorem trim_part (s : Text) : trim s <:+: s :=
  (trimEnd_part (trimStart s)).isInfix.trans (List.dropWhile_suffix isBlank).isInfix

theorem trim_append_left {s : Text} (blank : allBlank s = true) (t : Text) :
    trim (s ++ t) = trim t := by
  rw [trim, trimStart_append blank, trim]

theorem trimStart_append_right {s : Text} (dark : allBlank s = false) (t : Text) :
    trimStart (s ++ t) = trimStart s ++ t := by
  induction s with
  | nil => simp [allBlank] at dark
  | cons c s ih =>
    cases first : isBlank c with
    | true =>
      have rest : allBlank s = false := by simpa [allBlank, first] using dark
      simpa [trimStart, first] using ih rest
    | false => simp [trimStart, first]

theorem trimStart_ne_nil {s : Text} (dark : allBlank s = false) : trimStart s ≠ [] := by
  intro empty
  have blank : allBlank s = true := allBlank_iff.mpr (List.dropWhile_eq_nil_iff.mp empty)
  rw [blank] at dark
  contradiction

theorem getLast?_trimStart {s : Text} (dark : allBlank s = false) :
    (trimStart s).getLast? = s.getLast? := by
  obtain ⟨start, whole⟩ : trimStart s <:+ s := List.dropWhile_suffix isBlank
  conv_rhs => rw [← whole, List.getLast?_append_of_ne_nil _ (trimStart_ne_nil dark)]

theorem exists_trimEnd (s : Text) : ∃ t, allBlank t = true ∧ s = trimEnd s ++ t := by
  have parts := List.takeWhile_append_dropWhile (p := isBlank) (l := s.reverse)
  refine ⟨(s.reverse.takeWhile isBlank).reverse, ?_, ?_⟩
  · rw [allBlank, List.all_reverse]
    exact List.all_takeWhile
  · rw [trimEnd, ← List.reverse_append, parts, List.reverse_reverse]

theorem trim_trimStart (s : Text) : trim (trimStart s) = trim s := by
  rw [trim, trim, trimStart, trimStart, List.dropWhile_idempotent]

theorem exists_trim (s : Text) :
    ∃ lead rear, allBlank lead = true ∧ allBlank rear = true ∧ s = lead ++ trim s ++ rear := by
  obtain ⟨rear, blank, whole⟩ := exists_trimEnd (trimStart s)
  refine ⟨s.takeWhile isBlank, rear, List.all_takeWhile, blank, ?_⟩
  rw [List.append_assoc, trim, ← whole, trimStart, List.takeWhile_append_dropWhile]

theorem trimStart_eq_nil {s : Text} (blank : allBlank s = true) : trimStart s = [] := by
  simpa using trimStart_append blank []

theorem trim_append_right (s : Text) {t : Text} (blank : allBlank t = true) :
    trim (s ++ t) = trim s := by
  cases dark : allBlank s with
  | true =>
    have both : allBlank (s ++ t) = true := by
      simp only [allBlank, List.all_append, Bool.and_eq_true] at *
      exact ⟨dark, blank⟩
    rw [trim, trim, trimStart_eq_nil both, trimStart_eq_nil dark]
  | false => rw [trim, trimStart_append_right dark, trimEnd_append _ blank, trim]

theorem trim_eq_self {s : Text} (first : ∀ c ∈ s.head?, isBlank c = false)
    (last : ∀ c ∈ s.getLast?, isBlank c = false) : trim s = s := by
  cases s with
  | nil => rfl
  | cons c r =>
    rw [trim, trimStart_cons r (first c rfl)]
    obtain ⟨init, d, same⟩ : ∃ init d, c :: r = init ++ [d] :=
      ⟨_, _, (List.dropLast_concat_getLast (List.cons_ne_nil c r)).symm⟩
    rw [same] at last ⊢
    exact trimEnd_concat init (last d (by simp))

theorem trimStart_dark (s : Text) : ∀ c ∈ (trimStart s).head?, isBlank c = false := by
  intro c first
  have start := List.head?_dropWhile_not isBlank s
  rw [trimStart, Option.mem_def] at first
  simpa [first] using start

theorem trim_dark (s : Text) :
    (∀ c ∈ (trim s).head?, isBlank c = false) ∧ ∀ c ∈ (trim s).getLast?, isBlank c = false := by
  constructor
  · intro c first
    obtain ⟨r, same⟩ := trimEnd_part (trimStart s)
    apply trimStart_dark s
    rw [← same, List.head?_append, ← trim, Option.mem_def.mp first]
    rfl
  · intro c last
    have start := List.head?_dropWhile_not isBlank (trimStart s).reverse
    rw [trim, trimEnd, List.getLast?_reverse] at last
    rw [Option.mem_def.mp last] at start
    simpa using start

@[simp] theorem trim_trim (s : Text) : trim (trim s) = trim s :=
  trim_eq_self (trim_dark s).1 (trim_dark s).2

theorem squash_eq_nil {s : Text} : squash s = [] ↔ allBlank s = true := by
  simp [squash, allBlank]

theorem mem_squash {c : Char} {s : Text} : c ∈ squash s ↔ c ∈ s ∧ isBlank c = false := by
  simp [squash]

theorem squash_cutAt {c : Char} (dark : isBlank c = false) (s : Text) :
    squash (cutAt c s).2 = (cutAt c (squash s)).2 := by
  induction s with
  | nil => rfl
  | cons d s ih =>
    by_cases same : d = c
    · simp [cutAt, squash, same, dark]
    · have rest : (cutAt c (d :: s)).2 = (cutAt c s).2 := by simp [cutAt, same]
      rw [rest, ih]
      cases blank : isBlank d <;> simp [cutAt, squash, blank, same]

theorem splitWords_append (s : Text) {c : Char} (blank : isBlank c = true) (t : Text) :
    splitWords (s ++ c :: t) = ((splitWords s).1, (splitWords s).2 ++ words t) := by
  induction s with
  | nil => simp [splitWords, words, blank]
  | cons d s ih =>
    cases h : isBlank d <;> cases word : (splitWords s).1 <;> simp [splitWords, ih, h, word]

theorem words_append (s : Text) {c : Char} (blank : isBlank c = true) (t : Text) :
    words (s ++ c :: t) = words s ++ words t := by
  rw [words, splitWords_append s blank]
  cases word : (splitWords s).1 <;> simp [words, word]

theorem splitWords_of_dark {w : Text} (dark : ∀ c ∈ w, isBlank c = false) :
    splitWords w = (w, []) := by
  induction w with
  | nil => rfl
  | cons c w ih =>
    have rest := ih fun d member => dark d (List.mem_cons_of_mem c member)
    simp [splitWords, rest, dark c List.mem_cons_self]

theorem words_of_dark {w : Text} (nonempty : w ≠ []) (dark : ∀ c ∈ w, isBlank c = false) :
    words w = [w] := by
  simp [words, splitWords_of_dark dark, nonempty]

theorem words_append_left {s : Text} (blank : allBlank s = true) (t : Text) :
    words (s ++ t) = words t := by
  induction s with
  | nil => rfl
  | cons c s ih =>
    simp only [allBlank, List.all_cons, Bool.and_eq_true] at blank
    rw [List.cons_append, words_blank c _ blank.1, ih blank.2]

theorem words_eq_nil {s : Text} (blank : allBlank s = true) : words s = [] := by
  simpa using words_append_left blank []

theorem words_append_right (s : Text) {t : Text} (blank : allBlank t = true) :
    words (s ++ t) = words s := by
  cases t with
  | nil => simp
  | cons c t =>
    simp only [allBlank, List.all_cons, Bool.and_eq_true] at blank
    rw [words_append s blank.1, words_eq_nil blank.2, List.append_nil]

theorem words_trimStart (s : Text) : words (trimStart s) = words s := by
  have parts := List.takeWhile_append_dropWhile (p := isBlank) (l := s)
  have blank : allBlank (s.takeWhile isBlank) = true := List.all_takeWhile
  rw [← parts, words_append_left blank, parts, trimStart]

theorem words_trimEnd (s : Text) : words (trimEnd s) = words s := by
  obtain ⟨t, blank, whole⟩ := exists_trimEnd s
  conv_rhs => rw [whole, words_append_right _ blank]

theorem words_trim (s : Text) : words (trim s) = words s := by
  rw [trim, words_trimEnd, words_trimStart]

-- The word under way may still be empty; all others are not.
theorem mem_splitWords (s : Text) :
    ((∀ c ∈ (splitWords s).1, isBlank c = false) ∧ (splitWords s).1 <+: s) ∧
      ∀ w ∈ (splitWords s).2, w ≠ [] ∧ (∀ c ∈ w, isBlank c = false) ∧ w <:+: s := by
  induction s with
  | nil => simp [splitWords]
  | cons d s ih =>
    obtain ⟨⟨dark, start⟩, later⟩ := ih
    have later' : ∀ w ∈ (splitWords s).2,
        w ≠ [] ∧ (∀ c ∈ w, isBlank c = false) ∧ w <:+: d :: s := by
      intro w member
      obtain ⟨nonempty, blankless, inside⟩ := later w member
      exact ⟨nonempty, blankless, List.infix_cons inside⟩
    cases h : isBlank d with
    | true =>
      simp only [splitWords, h, if_true]
      refine ⟨by simp, ?_⟩
      intro w member
      cases word : (splitWords s).1 with
      | nil =>
        simp only [word, List.isEmpty_nil, if_true] at member
        exact later' w member
      | cons c r =>
        rw [word] at dark start
        simp only [word, List.isEmpty_cons, Bool.false_eq_true, if_false, List.mem_cons] at member
        rcases member with rfl | member
        · exact ⟨by simp, dark, List.infix_cons start.isInfix⟩
        · exact later' w member
    | false =>
      simp only [splitWords, h, Bool.false_eq_true, if_false]
      refine ⟨⟨?_, by simpa using start⟩, later'⟩
      intro c member
      rcases List.mem_cons.mp member with rfl | member
      · exact h
      · exact dark c member

theorem mem_words {s w : Text} (member : w ∈ words s) :
    w ≠ [] ∧ (∀ c ∈ w, isBlank c = false) ∧ w <:+: s := by
  obtain ⟨⟨dark, start⟩, later⟩ := mem_splitWords s
  cases word : (splitWords s).1 with
  | nil =>
    simp only [words, word, List.isEmpty_nil, if_true] at member
    exact later w member
  | cons c r =>
    rw [word] at dark start
    simp only [words, word, List.isEmpty_cons, Bool.false_eq_true, if_false, List.mem_cons]
      at member
    rcases member with rfl | member
    · exact ⟨by simp, dark, start.isInfix⟩
    · exact later w member

theorem flatten_words (s : Text) : (words s).flatten = squash s := by
  have split (s : Text) : (splitWords s).1 ++ (splitWords s).2.flatten = squash s := by
    induction s with
    | nil => rfl
    | cons d s ih =>
      cases h : isBlank d <;> cases word : (splitWords s).1 <;>
        simp_all [splitWords, squash]
  rw [← split s, words]
  cases word : (splitWords s).1 <;> simp [word]

theorem squash_trimStart (s : Text) : squash (trimStart s) = squash s := by
  rw [← flatten_words, words_trimStart, flatten_words]

theorem squash_trimEnd (s : Text) : squash (trimEnd s) = squash s := by
  rw [← flatten_words, words_trimEnd, flatten_words]

theorem squash_trim (s : Text) : squash (trim s) = squash s := by
  rw [trim, squash_trimEnd, squash_trimStart]

theorem words_intercalate {c : Char} (blank : isBlank c = true) (ls : List Text) :
    words ([c].intercalate ls) = ls.flatMap words := by
  induction ls with
  | nil => rfl
  | cons l ls ih =>
    cases ls with
    | nil => simp
    | cons k ls =>
      rw [List.intercalate_cons_cons, List.append_assoc, List.singleton_append,
        words_append l blank, ih]
      rfl

@[simp] theorem words_collapse (s : Text) : words (collapse s) = words s := by
  have each : ∀ w ∈ words s, words w = [w] := by
    intro w member
    obtain ⟨nonempty, dark, -⟩ := mem_words member
    exact words_of_dark nonempty dark
  rw [collapse, words_intercalate (by decide), List.flatMap_congr each, List.flatMap_singleton']

theorem intercalate_dark (c : Char) {ls : List Text}
    (dark : ∀ l ∈ ls, l ≠ [] ∧ (∀ d ∈ l.head?, isBlank d = false) ∧
      ∀ d ∈ l.getLast?, isBlank d = false) :
    (∀ d ∈ ([c].intercalate ls).head?, isBlank d = false) ∧
      ∀ d ∈ ([c].intercalate ls).getLast?, isBlank d = false := by
  induction ls with
  | nil => simp
  | cons l ls ih =>
    obtain ⟨nonempty, first, last⟩ := dark l List.mem_cons_self
    cases ls with
    | nil =>
      rw [List.intercalate_singleton]
      exact ⟨first, last⟩
    | cons k ls =>
      obtain ⟨-, ends⟩ := ih fun m member => dark m (List.mem_cons_of_mem l member)
      have later : [c].intercalate (k :: ls) ≠ [] := by
        have full := (dark k (by simp)).1
        cases ls <;> simp [List.intercalate_cons_cons, full]
      rw [List.intercalate_cons_cons]
      constructor
      · intro d member
        obtain ⟨e, r, rfl⟩ := List.exists_cons_of_ne_nil nonempty
        exact first d (by simpa using member)
      · intro d member
        rw [List.getLast?_append_of_ne_nil _ later] at member
        exact ends d member

theorem collapse_dark (s : Text) :
    (∀ c ∈ (collapse s).head?, isBlank c = false) ∧
      ∀ c ∈ (collapse s).getLast?, isBlank c = false := by
  apply intercalate_dark
  intro w member
  obtain ⟨nonempty, dark, -⟩ := mem_words member
  exact ⟨nonempty, fun c first => dark c (List.mem_of_mem_head? first),
    fun c last => dark c (List.mem_of_mem_getLast? last)⟩

theorem collapse_congr {s t : Text} (same : words s = words t) : collapse s = collapse t := by
  rw [collapse, collapse, same]

@[simp] theorem collapse_collapse (s : Text) : collapse (collapse s) = collapse s :=
  collapse_congr (words_collapse s)

@[simp] theorem squash_collapse (s : Text) : squash (collapse s) = squash s := by
  rw [← flatten_words, words_collapse, flatten_words]

theorem collapse_ne_nil {s : Text} (dark : allBlank s = false) : collapse s ≠ [] := by
  intro empty
  have dropped : squash s = [] := by rw [← squash_collapse, empty]; rfl
  have blank : allBlank s = true := by simpa [squash, allBlank] using dropped
  rw [blank] at dark
  contradiction

theorem isEmpty_collapse (s : Text) : (collapse s).isEmpty = allBlank s := by
  cases blank : allBlank s with
  | true =>
    rw [collapse, words_eq_nil blank]
    rfl
  | false => exact List.isEmpty_eq_false_iff.mpr (collapse_ne_nil blank)

theorem isEmpty_trim (s : Text) : (trim s).isEmpty = allBlank s := by
  cases blank : allBlank s with
  | true =>
    rw [trim, trimStart_eq_nil blank]
    rfl
  | false =>
    have dark := collapse_ne_nil blank
    rw [← collapse_congr (words_trim s)] at dark
    rw [List.isEmpty_eq_false_iff]
    intro empty
    rw [empty] at dark
    exact dark rfl

theorem intercalate_cons (c : Char) (l : Text) (ls : List Text) :
    [c].intercalate (l :: ls) = l ++ ls.flatMap (c :: ·) := by
  induction ls generalizing l with
  | nil => simp
  | cons k ls ih => rw [List.intercalate_cons_cons, ih, List.flatMap_cons]; simp

-- One space stands for the blanks between two words, and there is one of them at least.
theorem length_splitWords_le (s : Text) :
    ((splitWords s).1 ++ (splitWords s).2.flatMap (' ' :: ·)).length ≤ s.length := by
  induction s with
  | nil => simp [splitWords]
  | cons c s ih =>
    rw [List.length_append] at *
    cases blank : isBlank c <;> cases word : (splitWords s).1 <;>
      simp only [splitWords, blank, word, List.isEmpty_nil, List.isEmpty_cons, if_true,
        Bool.false_eq_true, if_false, List.length_nil, List.length_cons, List.flatMap_cons,
        List.length_append] at * <;> omega

theorem length_collapse_le (s : Text) : (collapse s).length ≤ s.length := by
  have bound := length_splitWords_le s
  simp only [collapse, words]
  cases word : (splitWords s).1 with
  | cons c r =>
    rw [word] at bound
    rwa [List.isEmpty_cons, if_neg Bool.false_ne_true, intercalate_cons]
  | nil =>
    rw [List.isEmpty_nil, if_pos rfl]
    cases later : (splitWords s).2 with
    | nil => simp
    | cons w ws =>
      rw [word, later, List.nil_append, List.flatMap_cons] at bound
      rw [intercalate_cons]
      exact (Nat.le_succ _).trans bound

theorem collapse_of_dark {w : Text} (dark : ∀ c ∈ w, isBlank c = false) : collapse w = w := by
  by_cases empty : w = []
  · rw [empty]; rfl
  · simp [collapse, words_of_dark empty dark]

theorem intercalate_append (c : Char) {ks ls : List Text} (left : ks ≠ []) (right : ls ≠ []) :
    [c].intercalate (ks ++ ls) = [c].intercalate ks ++ c :: [c].intercalate ls := by
  induction ks with
  | nil => contradiction
  | cons k ks ih =>
    cases ks with
    | nil =>
      obtain ⟨l, ls, rfl⟩ := List.exists_cons_of_ne_nil right
      simp [List.intercalate_cons_cons]
    | cons m ks =>
      have rest := ih (by simp)
      simp only [List.cons_append] at rest
      simp [List.intercalate_cons_cons, rest]

theorem collapse_append {s t : Text} (left : s ≠ []) (right : t ≠ []) (collapsed : collapse s = s)
    (collapsed' : collapse t = t) : collapse (s ++ ' ' :: t) = s ++ ' ' :: t := by
  have full {u : Text} (nonempty : u ≠ []) (same : collapse u = u) : words u ≠ [] := by
    intro empty
    rw [collapse, empty] at same
    exact nonempty same.symm
  rw [collapse, words_append s (by decide) t,
    intercalate_append ' ' (full left collapsed) (full right collapsed')]
  exact congrArg₂ (· ++ ' ' :: ·) collapsed collapsed'

theorem squash_of_dark {w : Text} (dark : ∀ c ∈ w, isBlank c = false) : squash w = w := by
  simpa [squash, List.filter_eq_self] using dark

theorem mem_intercalate {c d : Char} {ls : List Text} (member : c ∈ [d].intercalate ls) :
    c = d ∨ ∃ l ∈ ls, c ∈ l := by
  induction ls with
  | nil => simp at member
  | cons l ls ih =>
    cases ls with
    | nil =>
      rw [List.intercalate_singleton] at member
      exact .inr ⟨l, List.mem_cons_self, member⟩
    | cons k ls =>
      rw [List.intercalate_cons_cons] at member
      simp only [List.append_assoc, List.mem_append, List.mem_singleton] at member
      rcases member with inside | same | later
      · exact .inr ⟨l, List.mem_cons_self, inside⟩
      · exact .inl same
      · rcases ih later with same | ⟨m, among, inside⟩
        · exact .inl same
        · exact .inr ⟨m, List.mem_cons_of_mem l among, inside⟩

theorem mem_collapse {c : Char} {s : Text} (member : c ∈ collapse s) :
    c = ' ' ∨ (c ∈ s ∧ isBlank c = false) := by
  rcases mem_intercalate member with space | ⟨w, among, inside⟩
  · exact .inl space
  · obtain ⟨-, dark, part⟩ := mem_words among
    exact .inr ⟨part.subset inside, dark c inside⟩

theorem not_mem_of_collapsed {s : Text} (collapsed : collapse s = s) {c : Char}
    (blank : isBlank c = true) (other : c ≠ ' ') : c ∉ s := by
  intro member
  rw [← collapsed] at member
  rcases mem_collapse member with space | ⟨-, dark⟩
  · exact other space
  · rw [dark] at blank
    contradiction

theorem trim_of_collapsed {s : Text} (collapsed : collapse s = s) : trim s = s := by
  have ends := collapse_dark s
  rw [collapsed] at ends
  exact trim_eq_self ends.1 ends.2

end MemberOffsets.Text
