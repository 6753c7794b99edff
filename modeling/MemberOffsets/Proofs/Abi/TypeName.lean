import MemberOffsets.Abi.Profile
import MemberOffsets.Proofs.Text.Respacing

set_option autoImplicit false

namespace MemberOffsets

open Text

theorem isIdentChar_of_endsWord {c : Char} (ends : endsWord c = true) : isIdentChar c = false := by
  simp only [endsWord, Bool.or_eq_true, beq_iff_eq] at ends
  rcases ends with blank | rfl
  · exact isIdentChar_of_isBlank blank
  · decide

theorem endsWord_of_isBlank {c : Char} (blank : isBlank c = true) : endsWord c = true := by
  simp [endsWord, blank]

structure Unbroken (word : Text) : Prop where
  nonempty : word ≠ []
  whole : ∀ c ∈ word, endsWord c = false

theorem Unbroken.dark {word : Text} (unbroken : Unbroken word) : ∀ c ∈ word, isBlank c = false := by
  intro c member
  have whole := unbroken.whole c member
  simp only [endsWord, Bool.or_eq_false_iff] at whole
  exact whole.1

-- Folding keeps what ends a word, so no spelling of a keyword holds such a character.
theorem unbroken_of_sameIgnoringCase {keyword word : Text} (unbroken : Unbroken (lower keyword))
    (same : sameIgnoringCase keyword word = true) : Unbroken word := by
  have folded : lower keyword = lower word := beq_iff_eq.mp same
  constructor
  · rintro rfl
    exact unbroken.nonempty folded
  · intro c member
    rw [Bool.eq_false_iff]
    intro ends
    have kept : c.toLower ∈ lower word := List.mem_map_of_mem member
    rw [toLower_eq_self (isIdentChar_of_endsWord ends), ← folded] at kept
    rw [unbroken.whole c kept] at ends
    contradiction

theorem unbroken_of_mem_qualifiers {keyword : Text} (listed : keyword ∈ qualifiers) :
    Unbroken (lower keyword) := by
  have plain : ∀ keyword ∈ qualifiers, lower keyword ≠ [] ∧
      (lower keyword).all (endsWord · = false) = true := by decide
  obtain ⟨nonempty, whole⟩ := plain keyword listed
  exact ⟨nonempty, forall_mem_of_all whole⟩

theorem unbroken_of_isQualifier {word : Text} (qualifier : isQualifier word = true) :
    Unbroken word := by
  obtain ⟨keyword, listed, same⟩ := List.any_eq_true.mp qualifier
  exact unbroken_of_sameIgnoringCase (unbroken_of_mem_qualifiers listed) same

section

variable {word t : Text} (unbroken : Unbroken word) (stop : ∀ c ∈ t.head?, endsWord c = true)
include unbroken stop

theorem firstWord_append : firstWord (word ++ t) = word := by
  apply takeWhile_append_stop
  · simpa using unbroken.whole
  · simpa using stop

theorem afterFirstWord_append : afterFirstWord (word ++ t) = t := by
  apply dropWhile_append_stop
  · simpa using unbroken.whole
  · simpa using stop

end

theorem firstWord_append_afterFirstWord (s : Text) : firstWord s ++ afterFirstWord s = s :=
  List.takeWhile_append_dropWhile

theorem head?_afterFirstWord (s : Text) : ∀ c ∈ (afterFirstWord s).head?, endsWord c = true := by
  intro c first
  have stop := List.head?_dropWhile_not (!endsWord ·) s
  rw [afterFirstWord, Option.mem_def] at first
  simpa [first] using stop

structure Trimmed (s : Text) : Prop where
  nonempty : s ≠ []
  first : ∀ c ∈ s.head?, isBlank c = false
  last : ∀ c ∈ s.getLast?, isBlank c = false

namespace Trimmed

variable {s t : Text}

theorem trim_eq (trimmed : Trimmed s) : trim s = s := trim_eq_self trimmed.first trimmed.last

theorem allBlank (trimmed : Trimmed s) : allBlank s = false := by
  obtain ⟨c, r, rfl⟩ := List.exists_cons_of_ne_nil trimmed.nonempty
  simp [Text.allBlank, trimmed.first c rfl]

theorem append (before : Trimmed s) (after : Trimmed t) (gap : Text) :
    Trimmed (s ++ (gap ++ t)) := by
  obtain ⟨c, r, rfl⟩ := List.exists_cons_of_ne_nil before.nonempty
  refine ⟨by simp, before.first, ?_⟩
  rw [List.getLast?_append_of_ne_nil _ (by simp [after.nonempty]),
    List.getLast?_append_of_ne_nil _ after.nonempty]
  exact after.last

theorem trimStart (trimmed : Trimmed s) (ending : t <:+ s) (nonempty : t ≠ []) :
    Trimmed (trimStart t) := by
  obtain ⟨before, rfl⟩ := ending
  have last := trimmed.last
  rw [List.getLast?_append_of_ne_nil _ nonempty] at last
  have dark : Text.allBlank t = false := by
    rw [Bool.eq_false_iff]
    intro blank
    obtain ⟨init, c, rfl⟩ := (List.eq_nil_or_concat' t).resolve_left nonempty
    exact absurd rfl (ne_of_isBlank (allBlank_iff.mp blank c (by simp)) (last c (by simp)))
  refine ⟨trimStart_ne_nil dark, trimStart_dark t, ?_⟩
  rwa [getLast?_trimStart dark]

end Trimmed

theorem Unbroken.trimmed {word : Text} (unbroken : Unbroken word) : Trimmed word where
  nonempty := unbroken.nonempty
  first c first := unbroken.dark c (List.mem_of_mem_head? first)
  last c last := unbroken.dark c (List.mem_of_mem_getLast? last)

theorem trimmed_trim {s : Text} (dark : allBlank s = false) : Trimmed (trim s) := by
  refine ⟨fun empty => ?_, (trim_dark s).1, (trim_dark s).2⟩
  have wordless : words s = [] := by rw [← words_trim, empty]; rfl
  have blank : allBlank s = true := by rw [← squash_eq_nil, ← flatten_words, wordless]; rfl
  rw [blank] at dark
  contradiction

theorem dropQualifiers_eq_self {s : Text} (plain : isQualifier (firstWord s) = false) :
    dropQualifiers s = s := by
  rw [dropQualifiers, dif_neg (by simp [plain])]

theorem dropQualifiers_append_word {word t : Text} (qualifier : isQualifier word = true)
    (stop : ∀ c ∈ t.head?, endsWord c = true) (more : t ≠ []) :
    dropQualifiers (word ++ t) = dropQualifiers (trimStart t) := by
  have unbroken := unbroken_of_isQualifier qualifier
  have first := firstWord_append unbroken stop
  have after := afterFirstWord_append unbroken stop
  rw [dropQualifiers, dif_pos (by rw [first, after]; exact ⟨qualifier, more⟩), after]

theorem trimmed_dropQualifiers {s : Text} (trimmed : Trimmed s) : Trimmed (dropQualifiers s) := by
  fun_induction dropQualifiers s with
  | case1 s more ih => exact ih (trimmed.trimStart (List.dropWhile_suffix _) more.2)
  | case2 s _ => exact trimmed

theorem dropQualifiers_suffix (s : Text) : dropQualifiers s <:+ s := by
  fun_induction dropQualifiers s with
  | case1 s _ ih =>
    exact ih.trans ((List.dropWhile_suffix _).trans (List.dropWhile_suffix _))
  | case2 s _ => exact List.suffix_rfl

-- A word that is no qualifier is never dropped, so what is written behind stays as it is.
theorem exists_named_afterFirstWord {t : Text} (qualifier : isQualifier (firstWord t) = true)
    (named : ∃ word ∈ words t, isQualifier word = false) :
    ∃ word ∈ words (afterFirstWord t), isQualifier word = false := by
  have unbroken := unbroken_of_isQualifier qualifier
  have first : words (firstWord t) = [firstWord t] :=
    words_of_dark unbroken.nonempty unbroken.dark
  have whole := firstWord_append_afterFirstWord t
  have stop := head?_afterFirstWord t
  obtain ⟨word, listed, plain⟩ := named
  have other : word ≠ firstWord t := by
    rintro rfl
    rw [qualifier] at plain
    contradiction
  cases after : afterFirstWord t with
  | nil =>
    rw [after, List.append_nil] at whole
    rw [whole] at first
    rw [first, List.mem_singleton] at listed
    exact absurd (listed.trans whole.symm) other
  | cons c r =>
    rw [after] at whole stop
    cases blank : isBlank c with
    | true =>
      rw [← whole, words_append _ blank, first, List.singleton_append, List.mem_cons] at listed
      exact ⟨word, by rw [words_blank c r blank]; exact listed.resolve_left other, plain⟩
    | false =>
      obtain rfl : c = '*' := by simpa [endsWord, blank] using stop c rfl
      refine ⟨'*' :: (splitWords r).1, by simp [words, splitWords, blank], ?_⟩
      rw [Bool.eq_false_iff]
      intro starred
      have whole := (unbroken_of_isQualifier starred).whole '*' List.mem_cons_self
      exact absurd whole (by decide)

theorem dropQualifiers_append {t r : Text} (trimmed : Trimmed t)
    (named : ∃ word ∈ words t, isQualifier word = false)
    (apart : ∀ c ∈ r.head?, isBlank c = true) :
    dropQualifiers (t ++ r) = dropQualifiers t ++ r := by
  fun_induction dropQualifiers t with
  | case1 t more ih =>
    have inner := trimmed.trimStart (List.dropWhile_suffix _) more.2
    have dark : allBlank (afterFirstWord t) = false := by
      rw [Bool.eq_false_iff]
      exact fun blank => inner.nonempty (trimStart_eq_nil blank)
    have stop : ∀ c ∈ (afterFirstWord t ++ r).head?, endsWord c = true := by
      rw [List.head?_append_of_ne_nil _ more.2]
      exact head?_afterFirstWord t
    have later := exists_named_afterFirstWord more.1 named
    rw [← words_trimStart] at later
    conv_lhs => rw [← firstWord_append_afterFirstWord t, List.append_assoc]
    rw [dropQualifiers_append_word more.1 stop (by simp [more.2]), trimStart_append_right dark,
      ih inner later]
  | case2 t done =>
    have same : firstWord (t ++ r) = firstWord t := by
      apply takeWhile_append_before
      intro c first
      simpa using endsWord_of_isBlank (apart c first)
    apply dropQualifiers_eq_self
    rw [same, Bool.eq_false_iff]
    intro qualifier
    obtain ⟨word, listed, -⟩ := exists_named_afterFirstWord qualifier named
    have ended : afterFirstWord t = [] := not_not.mp (not_and.mp done qualifier)
    rw [ended] at listed
    contradiction

def isConst (word : Text) : Bool := sameIgnoringCase "const".toList word

theorem unbroken_of_isConst {word : Text} (const : isConst word = true) : Unbroken word :=
  unbroken_of_sameIgnoringCase ⟨by decide, forall_mem_of_all (by decide)⟩ const

theorem dropTrailingConst_append {s word : Text} (unbroken : Unbroken word)
    (stop : ∀ c ∈ s.getLast?, endsWord c = true) :
    dropTrailingConst (s ++ word) =
      if isConst word = true ∧ s ≠ [] then trimEnd s else s ++ word := by
  have reversed : Unbroken word.reverse :=
    ⟨by simpa using unbroken.nonempty, by simpa using unbroken.whole⟩
  have stop' : ∀ c ∈ s.reverse.head?, endsWord c = true := by simpa using stop
  have found : (sameIgnoringCase "const".toList word && !s.reverse.isEmpty) =
      decide (isConst word = true ∧ s ≠ []) := by
    rw [Bool.eq_iff_iff, decide_eq_true_eq]
    simp [isConst]
  simp only [dropTrailingConst, List.reverse_append, firstWord_append reversed stop',
    afterFirstWord_append reversed stop', List.reverse_reverse, found, decide_eq_true_eq]

theorem dropTrailingConst_cases (s : Text) :
    dropTrailingConst s = s ∨
      ∃ r word, s = r ++ word ∧ r ≠ [] ∧ isConst word = true ∧
        (∀ c ∈ r.getLast?, endsWord c = true) ∧ dropTrailingConst s = trimEnd r := by
  have whole : (afterFirstWord s.reverse).reverse ++ (firstWord s.reverse).reverse = s := by
    rw [← List.reverse_append, firstWord_append_afterFirstWord, List.reverse_reverse]
  rw [dropTrailingConst]
  split
  · rename_i dropped
    simp only [Bool.and_eq_true, Bool.not_eq_true', List.isEmpty_eq_false_iff] at dropped
    refine .inr ⟨_, _, whole.symm, by simpa using dropped.2, dropped.1, ?_, rfl⟩
    simpa using head?_afterFirstWord s.reverse
  · exact .inl rfl

theorem mem_joinStars {c : Char} {s : Text} (member : c ∈ joinStars s) : c ∈ s := by
  fun_induction joinStars s with
  | case1 => exact member
  | case2 r ih =>
    rcases List.mem_cons.mp member with rfl | later
    · simp
    · simp [ih later]
  | case3 d r _ ih =>
    rcases List.mem_cons.mp member with rfl | later
    · simp
    · simp [ih later]

theorem squash_joinStars (s : Text) : squash (joinStars s) = squash s := by
  fun_induction joinStars s with
  | case1 => rfl
  | case2 r ih =>
    have star : isBlank '*' = false := by decide
    simp only [squash] at ih
    simp [squash, star, ih, show isBlank ' ' = true by decide]
  | case3 c r _ ih =>
    simp only [squash] at ih
    simp only [squash, List.filter_cons, ih]

theorem joinStars_eq_self_or_shorter (s : Text) :
    joinStars s = s ∨ (joinStars s).length < s.length := by
  fun_induction joinStars s with
  | case1 => exact .inl rfl
  | case2 r ih =>
    right
    rcases ih with same | shorter
    · simp [same]
    · simp only [List.length_cons]
      omega
  | case3 c r _ ih => simpa using ih

theorem bareType_of_trimmed {t : Text} (trimmed : Trimmed t) :
    bareType t = joinStars (collapse (dropTrailingConst (dropQualifiers t))) := by
  rw [bareType, trimmed.trim_eq]

theorem squash_ne_nil_of_bareType {t : Text} (dark : allBlank t = false) :
    squash (bareType t) ≠ [] := by
  have trimmed := trimmed_dropQualifiers (trimmed_trim dark)
  rw [bareType, squash_joinStars, squash_collapse]
  rcases dropTrailingConst_cases (dropQualifiers (trim t)) with
    same | ⟨r, word, whole, full, -, -, same⟩
  · rw [same, ne_eq, squash_eq_nil, trimmed.allBlank]
    decide
  · have first := trimmed.first
    rw [whole, List.head?_append_of_ne_nil _ full] at first
    obtain ⟨c, u, rfl⟩ := List.exists_cons_of_ne_nil full
    rw [same, squash_trimEnd]
    simp [squash, first c rfl]

theorem bareType_ne_nil {t : Text} (dark : allBlank t = false) : bareType t ≠ [] := by
  intro empty
  have kept := squash_ne_nil_of_bareType dark
  rw [empty] at kept
  exact kept rfl

section

variable {s t : Text}

theorem firstWord_respaced (spaced : Respaced s t) : firstWord s = firstWord t :=
  spaced.takeWhile_eq fun c blank => by simpa using endsWord_of_isBlank blank

theorem afterFirstWord_respaced (spaced : Respaced s t) :
    Respaced (afterFirstWord s) (afterFirstWord t) :=
  spaced.dropWhile_stopped fun c blank => by simpa using endsWord_of_isBlank blank

theorem dropQualifiers_respaced (spaced : Respaced s t) :
    Respaced (dropQualifiers s) (dropQualifiers t) := by
  fun_induction dropQualifiers s generalizing t with
  | case1 s more ih =>
    have after := afterFirstWord_respaced spaced
    have full : afterFirstWord t ≠ [] := by
      rw [← List.isEmpty_eq_false_iff, ← after.isEmpty_eq, List.isEmpty_eq_false_iff]
      exact more.2
    conv_rhs => rw [dropQualifiers, dif_pos ⟨firstWord_respaced spaced ▸ more.1, full⟩]
    exact ih after.trimmedStart
  | case2 s done =>
    have after := afterFirstWord_respaced spaced
    have done' : ¬ (isQualifier (firstWord t) = true ∧ afterFirstWord t ≠ []) := by
      rw [← List.isEmpty_eq_false_iff, ← after.isEmpty_eq, List.isEmpty_eq_false_iff,
        ← firstWord_respaced spaced]
      exact done
    rwa [dropQualifiers, dif_neg done']

theorem dropTrailingConst_respaced (spaced : Respaced s t) :
    Respaced (dropTrailingConst s) (dropTrailingConst t) := by
  have after := afterFirstWord_respaced spaced.reverse
  simp only [dropTrailingConst, firstWord_respaced spaced.reverse, after.isEmpty_eq]
  split
  · have trimmed := after.trimmedStart.reverse
    simpa [trimEnd, trimStart] using trimmed
  · exact spaced

theorem bareType_congr (same : words s = words t) : bareType s = bareType t := by
  have spaced : Respaced (trim s) (trim t) :=
    respaced_of_words (trim_dark s) (trim_dark t) (by rw [words_trim, words_trim, same])
  have dropped := dropTrailingConst_respaced (dropQualifiers_respaced spaced)
  rw [bareType, bareType, dropped.collapse_eq]

end

theorem bareType_append_left {word gap t : Text} (qualifier : isQualifier word = true)
    (between : Gap gap) (dark : allBlank t = false) :
    bareType (word ++ (gap ++ t)) = bareType t := by
  have inner := trimmed_trim dark
  have whole := (unbroken_of_isQualifier qualifier).trimmed.append inner gap
  obtain ⟨c, r, rfl, blank, -⟩ := between.exists_cons
  have stop : ∀ d ∈ (c :: r ++ trim t).head?, endsWord d = true := by
    simpa using endsWord_of_isBlank blank
  have words : words (word ++ (c :: r ++ t)) = words (word ++ (c :: r ++ trim t)) := by
    rw [between.words_append, between.words_append, words_trim]
  rw [bareType_congr words, bareType_of_trimmed whole,
    dropQualifiers_append_word qualifier stop (by simp), trimStart_append between.blank,
    trimStart_eq_self inner.first, bareType]

theorem bareType_append_right {t middle gap word : Text} (trimmed : Trimmed t)
    (named : ∃ word ∈ words t, isQualifier word = false)
    (apart : ∀ c ∈ middle.head?, isBlank c = true) (between : Gap gap) (unbroken : Unbroken word) :
    bareType (t ++ (middle ++ (gap ++ word))) =
      joinStars (collapse
        (dropQualifiers t ++ (middle ++ if isConst word then [] else gap ++ word))) := by
  have whole : Trimmed (t ++ (middle ++ (gap ++ word))) := by
    simpa using trimmed.append unbroken.trimmed (middle ++ gap)
  have apart' : ∀ c ∈ (middle ++ (gap ++ word)).head?, isBlank c = true := by
    obtain ⟨c, r, rfl, blank, -⟩ := between.exists_cons
    cases middle with
    | nil => simpa using blank
    | cons d u => exact apart
  have stop : ∀ c ∈ (dropQualifiers t ++ (middle ++ gap)).getLast?, endsWord c = true := by
    intro c last
    rw [← List.append_assoc, List.getLast?_append_of_ne_nil _ between.nonempty] at last
    exact endsWord_of_isBlank (allBlank_iff.mp between.blank c (List.mem_of_mem_getLast? last))
  have full : dropQualifiers t ++ (middle ++ gap) ≠ [] := by
    simp [(trimmed_dropQualifiers trimmed).nonempty]
  have regrouped : dropQualifiers t ++ (middle ++ (gap ++ word)) =
      dropQualifiers t ++ (middle ++ gap) ++ word := by simp
  rw [bareType_of_trimmed whole, dropQualifiers_append trimmed named apart', regrouped,
    dropTrailingConst_append unbroken stop]
  cases const : isConst word with
  | false => simp
  | true =>
    rw [if_pos ⟨rfl, full⟩]
    congr 1
    apply collapse_congr
    rw [words_trimEnd, ← List.append_assoc, words_append_right _ between.blank]
    simp

theorem squash_upper (s : Text) : squash (upper s) = upper (squash s) := by
  simp [squash, upper, List.filter_map, Function.comp_def, isBlank_toUpper]

theorem length_squash_canonicalName (name : Text) :
    (squash (canonicalName name)).length = (squash name).length := by
  rw [canonicalName, squash_upper, squash_collapse, upper, List.length_map]

theorem canonicalName_ne {s t : Text} (other : (squash s).length ≠ (squash t).length) :
    canonicalName s ≠ canonicalName t := by
  intro same
  rw [← length_squash_canonicalName, same, length_squash_canonicalName] at other
  contradiction

theorem dropQualifiers_eq_self_or_shorter (s : Text) :
    dropQualifiers s = s ∨ (squash (dropQualifiers s)).length < (squash s).length := by
  fun_induction dropQualifiers s with
  | case1 s more ih =>
    right
    have unbroken := unbroken_of_isQualifier more.1
    have whole : squash s = firstWord s ++ squash (afterFirstWord s) := by
      conv_lhs => rw [← firstWord_append_afterFirstWord s, squash_append,
        squash_of_dark unbroken.dark]
    have written : 0 < (firstWord s).length := List.length_pos_iff.mpr unbroken.nonempty
    have rest := squash_trimStart (afterFirstWord s)
    rw [whole, List.length_append, ← rest]
    rcases ih with same | shorter
    · rw [same]
      omega
    · omega
  | case2 s _ => exact .inl rfl

theorem dropTrailingConst_eq_self_or_shorter (s : Text) :
    dropTrailingConst s = s ∨ (squash (dropTrailingConst s)).length < (squash s).length := by
  rcases dropTrailingConst_cases s with same | ⟨r, word, rfl, -, const, -, same⟩
  · exact .inl same
  · right
    have unbroken := unbroken_of_isConst const
    have written : 0 < word.length := List.length_pos_iff.mpr unbroken.nonempty
    rw [same, squash_trimEnd, squash_append, squash_of_dark unbroken.dark, List.length_append]
    omega

theorem bareType_eq_collapse_iff (t : Text) :
    bareType t = collapse t ↔ canonicalName (bareType t) = canonicalName t := by
  constructor
  · intro same
    rw [same, canonicalName, collapse_collapse, canonicalName]
  · intro same
    have kept := congrArg (fun name => (squash name).length) same
    simp only [length_squash_canonicalName, bareType, squash_joinStars, squash_collapse] at kept
    have first := dropQualifiers_eq_self_or_shorter (trim t)
    have last := dropTrailingConst_eq_self_or_shorter (dropQualifiers (trim t))
    rw [squash_trim] at first
    have undropped : dropTrailingConst (dropQualifiers (trim t)) = trim t := by
      rcases last with last | last
      · rcases first with first | first
        · rw [last, first]
        · rw [last] at kept
          omega
      · rcases first with first | first
        · rw [first, squash_trim] at last
          rw [first] at kept
          omega
        · omega
    have bare : bareType t = joinStars (collapse t) := by
      rw [bareType, undropped, collapse_congr (words_trim t)]
    have length := congrArg List.length same
    rw [bare] at length ⊢
    rcases joinStars_eq_self_or_shorter (collapse t) with same | shorter
    · exact same
    · have joined := length_collapse_le (joinStars (collapse t))
      simp only [canonicalName, upper, List.length_map] at length
      omega

end MemberOffsets
