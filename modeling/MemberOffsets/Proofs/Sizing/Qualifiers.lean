import MemberOffsets.Proofs.Abi.TypeName
import MemberOffsets.Proofs.Sizing.Changes

set_option autoImplicit false

namespace MemberOffsets

open Text

def strung (parts : List (Text × Text)) : Text := parts.flatMap fun part => part.1 ++ part.2

theorem strung_cons (first second : Text) (parts : List (Text × Text)) :
    strung ((first, second) :: parts) = first ++ (second ++ strung parts) := by
  simp [strung]

theorem strung_concat (parts : List (Text × Text)) (first second : Text) :
    strung (parts ++ [(first, second)]) = strung parts ++ (first ++ second) := by
  simp [strung]

structure SizedAlike (s t : Text) : Prop where
  bare : bareType s = bareType t
  run : ∀ (p : Profile) {σ : Type} (responder : Responder σ) (state : σ),
    (p.sizing s).run responder state = (p.sizing t).run responder state
  width : ∀ (p : Profile) {σ : Type} (responder : Responder σ) (state : σ),
    p.width responder s state = p.width responder t state

namespace SizedAlike

variable {s t : Text}

theorem of_sizing (bare : bareType s = bareType t) (same : ∀ p : Profile, p.sizing s = p.sizing t) :
    SizedAlike s t where
  bare := bare
  run p _ responder state := by rw [same]
  width p _ responder state := by rw [Profile.width, Profile.width, same]

theorem of_bareType (bare : bareType s = bareType t) (named : bareType t ≠ []) :
    SizedAlike s t := by
  apply of_sizing bare
  intro p
  simp [Profile.sizing, bare, named]

-- A type without any word is reported as it is written, but for the blanks, and nothing else is
-- there.
theorem of_words (same : words s = words t) : SizedAlike s t := by
  have bare := bareType_congr same
  cases blank : allBlank t with
  | false => exact of_bareType bare (bareType_ne_nil blank)
  | true =>
    have blank' : allBlank s = true := by
      rw [← squash_eq_nil, ← flatten_words, same, flatten_words, squash_eq_nil, blank]
    have trimmed : trim s = trim t := by
      rw [trim, trim, trimStart_eq_nil blank, trimStart_eq_nil blank']
    apply of_sizing bare
    intro p
    rw [Profile.sizing, Profile.sizing, bare, trimmed]

end SizedAlike

theorem bareType_strung {lead : List (Text × Text)} {t : Text}
    (spelled : ∀ part ∈ lead, isQualifier part.1 = true ∧ Gap part.2) (dark : allBlank t = false) :
    bareType (strung lead ++ t) = bareType t := by
  induction lead with
  | nil => rfl
  | cons part lead ih =>
    obtain ⟨word, gap⟩ := part
    obtain ⟨qualifier, between⟩ := spelled _ List.mem_cons_self
    have dark' : allBlank (strung lead ++ t) = false := by
      rw [allBlank_append, dark, Bool.and_false]
    rw [strung_cons, List.append_assoc, List.append_assoc,
      bareType_append_left qualifier between dark',
      ih fun part later => spelled part (List.mem_cons_of_mem _ later)]

/-- Qualifiers in front of a type, in any number and letter case, make no difference to its size,
and neither do the blanks between its words. -/
theorem sizedAlike_unqualified :
    (∀ (lead : List (Text × Text)) (t : Text),
      (∀ part ∈ lead, isQualifier part.1 = true ∧ Gap part.2) → allBlank t = false →
        SizedAlike (strung lead ++ t) t) ∧
    (∀ s t : Text, words s = words t → SizedAlike s t) ∧
    ∀ t : Text, SizedAlike (collapse t) t := by
  refine ⟨?_, fun s t same => .of_words same, fun t => .of_words (words_collapse t)⟩
  intro lead t spelled dark
  exact .of_bareType (bareType_strung spelled dark) (bareType_ne_nil dark)

-- Keywords of several kinds in front, one letter case each, before a type that begins like one.
theorem sizedAlike_unqualified_mixed :
    let lead := [("CONST".toList, "\t ".toList), ("Struct".toList, "\u3000".toList),
      ("enum".toList, "\n".toList)]
    let type := "constant  *".toList
    (∀ part ∈ lead, isQualifier part.1 = true ∧ Gap part.2) ∧ allBlank type = false ∧
      bareType (strung lead ++ type) = "constant*".toList ∧
      SizedAlike (strung lead ++ type) (collapse type) := by
  intro lead type
  obtain ⟨qualified, respaced, -⟩ := sizedAlike_unqualified
  have spelled : ∀ part ∈ lead, isQualifier part.1 = true ∧ Gap part.2 := by
    have checked : ∀ part ∈ lead,
        isQualifier part.1 = true ∧ part.2 ≠ [] ∧ allBlank part.2 = true := by decide
    intro part listed
    obtain ⟨qualifier, nonempty, blank⟩ := checked part listed
    exact ⟨qualifier, nonempty, blank⟩
  have dark : allBlank type = false := by decide
  have alike := qualified lead type spelled dark
  have bare : bareType type = "constant*".toList := by decide +kernel
  have collapsed := respaced type (collapse type) (by decide)
  refine ⟨spelled, dark, alike.bare.trans bare, alike.bare.trans collapsed.bare, ?_, ?_⟩
  · intro p σ responder state
    rw [alike.run, collapsed.run]
  · intro p σ responder state
    rw [alike.width, collapsed.width]

theorem dark_of_named {t : Text} (named : ∃ word ∈ words t, isQualifier word = false) :
    allBlank t = false := by
  rw [Bool.eq_false_iff]
  intro blank
  obtain ⟨word, listed, -⟩ := named
  rw [words_eq_nil blank] at listed
  contradiction

def cvQualifiers : List Text := ["const".toList, "volatile".toList]

def isCvQualifier (word : Text) : Bool := cvQualifiers.any (sameIgnoringCase · word)

theorem isQualifier_of_isCvQualifier {word : Text} (cv : isCvQualifier word = true) :
    isQualifier word = true := by
  obtain ⟨keyword, listed, same⟩ := List.any_eq_true.mp cv
  have sublist : cvQualifiers ⊆ qualifiers := by decide
  exact List.any_eq_true.mpr ⟨keyword, sublist listed, same⟩

def IsRear (rear : List (Text × Text)) : Prop :=
  ∀ part ∈ rear, Gap part.1 ∧ isCvQualifier part.2 = true

/-- What is left of it in the name: all but a `const` at the end. -/
def kept (rear : List (Text × Text)) : List (Text × Text) :=
  if rear.getLast?.any (isConst ·.2) = true then rear.dropLast else rear

theorem kept_concat (rear : List (Text × Text)) (gap word : Text) :
    kept (rear ++ [(gap, word)]) = if isConst word = true then rear else rear ++ [(gap, word)] := by
  simp [kept]

theorem kept_eq_nil_iff {rear : List (Text × Text)} (written : rear ≠ []) :
    kept rear = [] ↔ ∃ gap word, rear = [(gap, word)] ∧ isConst word = true := by
  obtain ⟨init, ⟨gap, word⟩, rfl⟩ := (List.eq_nil_or_concat' rear).resolve_left written
  rw [kept_concat]
  constructor
  · intro empty
    split at empty
    · rename_i const
      exact ⟨gap, word, by rw [empty]; rfl, const⟩
    · simp at empty
  · rintro ⟨gap', word', single, const⟩
    have whole : init ++ [(gap, word)] = [] ++ [(gap', word')] := single
    obtain ⟨rfl, same⟩ := List.append_inj' whole rfl
    simp only [List.cons.injEq, Prod.mk.injEq, and_true] at same
    rw [same.2, if_pos const]

theorem IsRear.concat {rear : List (Text × Text)} {gap word : Text}
    (spelled : IsRear (rear ++ [(gap, word)])) : IsRear rear ∧ Gap gap ∧ Unbroken word := by
  obtain ⟨between, cv⟩ := spelled (gap, word) (by simp)
  exact ⟨fun part among => spelled part (List.mem_append_left _ among), between,
    unbroken_of_isQualifier (isQualifier_of_isCvQualifier cv)⟩

theorem IsRear.head? {rear : List (Text × Text)} (spelled : IsRear rear) :
    ∀ c ∈ (strung rear).head?, isBlank c = true := by
  cases rear with
  | nil => simp [strung]
  | cons part rear =>
    obtain ⟨gap, word⟩ := part
    obtain ⟨c, r, same, blank, -⟩ := (spelled _ List.mem_cons_self).1.exists_cons
    rw [strung_cons]
    simp only at same
    simpa [same] using blank

theorem IsRear.kept {rear : List (Text × Text)} (spelled : IsRear rear) : IsRear (kept rear) := by
  rw [MemberOffsets.kept]
  split
  · exact fun part among => spelled part (List.dropLast_subset _ among)
  · exact spelled

theorem words_append_strung (t : Text) {rear : List (Text × Text)} (spelled : IsRear rear) :
    words (t ++ strung rear) = words t ++ words (strung rear) := by
  cases start : strung rear with
  | nil => simp
  | cons c r =>
    have blank : isBlank c = true := spelled.head? c (by rw [start]; rfl)
    rw [words_append t blank, words_blank c r blank]

theorem bareType_append_strung {t : Text} {rear : List (Text × Text)} (spelled : IsRear rear)
    (written : rear ≠ []) (named : ∃ word ∈ words t, isQualifier word = false) :
    bareType (t ++ strung rear) =
      joinStars (collapse (dropQualifiers (trim t) ++ strung (kept rear))) := by
  obtain ⟨init, ⟨gap, word⟩, rfl⟩ := (List.eq_nil_or_concat' rear).resolve_left written
  obtain ⟨spelled', between, unbroken⟩ := spelled.concat
  have trimmed : Trimmed (trim t) := trimmed_trim (dark_of_named named)
  have respaced : words (t ++ strung (init ++ [(gap, word)])) =
      words (trim t ++ strung (init ++ [(gap, word)])) := by
    rw [words_append_strung t spelled, words_append_strung (trim t) spelled, words_trim]
  rw [← words_trim] at named
  rw [bareType_congr respaced, strung_concat,
    bareType_append_right trimmed named spelled'.head? between unbroken, kept_concat]
  split <;> simp [strung_concat]

def ConstOnStar (t : Text) : Prop :=
  ∃ before word, trim t = before ++ '*' :: word ∧ isConst word = true

theorem star_mem_dropQualifiers {s : Text} (star : '*' ∈ s) : '*' ∈ dropQualifiers s := by
  have dark : isBlank '*' = false := by decide
  fun_induction dropQualifiers s with
  | case1 s more ih =>
    have whole := (unbroken_of_isQualifier more.1).whole '*'
    rw [← firstWord_append_afterFirstWord s, List.mem_append] at star
    rcases star with first | after
    · exact absurd (whole first) (by decide)
    · apply ih
      have kept : '*' ∈ squash (afterFirstWord s) := mem_squash.mpr ⟨after, dark⟩
      rw [← squash_trimStart] at kept
      exact (mem_squash.mp kept).1
  | case2 s _ => exact star

theorem star_suffix {s before word : Text} (unbroken : Unbroken word) (star : '*' ∈ s)
    (ending : s <:+ before ++ '*' :: word) : '*' :: word <:+ s := by
  rcases List.suffix_or_suffix_of_suffix ending (List.suffix_append before _) with inside | beyond
  · rcases List.suffix_cons_iff.mp inside with rfl | behind
    · exact List.suffix_rfl
    · exact absurd (unbroken.whole '*' (behind.subset star)) (by decide)
  · exact beyond

-- If no `const` stands apart at the end, one is dropped there only from behind a star.
theorem dropTrailingConst_eq_self_iff {t : Text}
    (last : ∀ word ∈ (words t).getLast?, isCvQualifier word = false) :
    dropTrailingConst (dropQualifiers (trim t)) = dropQualifiers (trim t) ↔ ¬ ConstOnStar t := by
  constructor
  · rintro same ⟨before, word, whole, const⟩
    have unbroken := unbroken_of_isConst const
    have star : '*' ∈ dropQualifiers (trim t) := by
      apply star_mem_dropQualifiers
      simp [whole]
    have inside : dropQualifiers (trim t) <:+ before ++ '*' :: word := by
      rw [← whole]
      exact dropQualifiers_suffix _
    obtain ⟨init, ended⟩ := star_suffix unbroken star inside
    have short : dropQualifiers (trim t) = (init ++ ['*']) ++ word := by simp [← ended]
    rw [short, dropTrailingConst_append unbroken (by simp; decide), if_pos ⟨const, by simp⟩] at same
    have shorter := (trimEnd_part (init ++ ['*'])).length_le
    have written := List.length_pos_iff.mpr unbroken.nonempty
    rw [same, List.length_append] at shorter
    omega
  · intro starless
    rcases dropTrailingConst_cases (dropQualifiers (trim t)) with
      same | ⟨r, word, short, full, const, stop, -⟩
    · exact same
    · exfalso
      obtain ⟨x, ending⟩ := dropQualifiers_suffix (trim t)
      obtain ⟨init, c, rfl⟩ := (List.eq_nil_or_concat' r).resolve_left full
      have whole : trim t = (x ++ init) ++ c :: word := by rw [← ending, short]; simp
      have unbroken := unbroken_of_isConst const
      have ends := stop c (by simp)
      simp only [endsWord, Bool.or_eq_true, beq_iff_eq] at ends
      rcases ends with blank | rfl
      · rw [← words_trim, whole, words_append _ blank,
          words_of_dark unbroken.nonempty unbroken.dark] at last
        have other := last word (by simp)
        have cv : isCvQualifier word = true :=
          List.any_eq_true.mpr ⟨"const".toList, by decide, const⟩
        rw [cv] at other
        contradiction
      · exact starless ⟨_, _, whole, const⟩

theorem getLast?_bare_ne_star (s : Text) {word : Text} (unbroken : Unbroken word) :
    (joinStars (collapse (s ++ word))).getLast? ≠ some '*' := by
  intro star
  have squashed : squash (joinStars (collapse (s ++ word))) = squash s ++ word := by
    rw [squash_joinStars, squash_collapse, squash_append, squash_of_dark unbroken.dark]
  obtain ⟨init, whole⟩ := List.getLast?_eq_some_iff.mp star
  rw [whole, squash_append, show squash ['*'] = ['*'] by decide] at squashed
  have last := congrArg List.getLast? squashed
  rw [List.getLast?_concat, List.getLast?_append_of_ne_nil _ unbroken.nonempty] at last
  have ends := unbroken.whole '*' (List.mem_of_getLast? last.symm)
  exact absurd ends (by decide)

theorem bareType_apart {t : Text} {rear : List (Text × Text)} (spelled : IsRear rear)
    (written : rear ≠ []) (named : ∃ word ∈ words t, isQualifier word = false)
    (apart : kept rear ≠ [] ∨
      dropTrailingConst (dropQualifiers (trim t)) ≠ dropQualifiers (trim t)) :
    (bareType (t ++ strung rear)).getLast? ≠ some '*' ∧
      canonicalName (bareType (t ++ strung rear)) ≠ canonicalName (bareType t) := by
  obtain ⟨s, word, whole, unbroken, shorter⟩ : ∃ s word,
      dropQualifiers (trim t) ++ strung (kept rear) = s ++ word ∧ Unbroken word ∧
        (squash (dropTrailingConst (dropQualifiers (trim t)))).length ≤ (squash s).length := by
    by_cases dropped : kept rear = []
    · rcases dropTrailingConst_cases (dropQualifiers (trim t)) with
        same | ⟨r, word, short, -, const, -, same⟩
      · exact absurd same (apart.resolve_left (not_not.mpr dropped))
      · refine ⟨r, word, by simp [dropped, strung, short], unbroken_of_isConst const, ?_⟩
        rw [same, squash_trimEnd]
    · obtain ⟨init, ⟨gap, word⟩, same⟩ := (List.eq_nil_or_concat' (kept rear)).resolve_left dropped
      have spelled' := spelled.kept
      rw [same] at spelled'
      refine ⟨dropQualifiers (trim t) ++ (strung init ++ gap), word, ?_, spelled'.concat.2.2, ?_⟩
      · rw [same, strung_concat]
        simp
      · rw [squash_append, List.length_append]
        rcases dropTrailingConst_eq_self_or_shorter (dropQualifiers (trim t)) with same | shorter
        · rw [same]
          omega
        · omega
  have name := bareType_append_strung spelled written named
  rw [whole] at name
  constructor
  · rw [name]
    exact getLast?_bare_ne_star s unbroken
  · apply canonicalName_ne
    have length := List.length_pos_iff.mpr unbroken.nonempty
    rw [name, bareType, squash_joinStars, squash_joinStars, squash_collapse, squash_collapse,
      squash_append, List.length_append, squash_of_dark unbroken.dark]
    omega

-- The two widths tell the names apart, and neither is that of a pointer.
theorem exists_width_ne {s t : Text} (named : bareType s ≠ []) (named' : bareType t ≠ [])
    (starless : (bareType s).getLast? ≠ some '*')
    (apart : canonicalName (bareType s) ≠ canonicalName (bareType t)) :
    ∃ p : Profile, ∀ {σ : Type} (responder : Responder σ) (state : σ),
      p.width responder s state ≠ p.width responder t state := by
  let p := (Profile.x64.withWidth (bareType s) 1).withWidth (bareType t) 2
  have first : p.override? (bareType s) = some 1 := by
    simp [p, Profile.withWidth, Profile.override?, apart]
  have second : p.override? (bareType t) = some 2 := by
    simp [p, Profile.withWidth, Profile.override?]
  have sized : (p.sizing? (bareType s)).map Sizing.width = some 1 := by
    rw [Profile.sizing?, if_neg starless, first]
    rfl
  obtain ⟨width, other, sized'⟩ : ∃ width, width ≠ 1 ∧
      (p.sizing? (bareType t)).map Sizing.width = some width := by
    by_cases star : (bareType t).getLast? = some '*'
    · exact ⟨8, by decide, by rw [Profile.sizing?, if_pos star]; rfl⟩
    · exact ⟨2, by decide, by rw [Profile.sizing?, if_neg star, second]; rfl⟩
  refine ⟨p, fun responder state same => ?_⟩
  rw [Profile.width_of_sizing? named sized, Profile.width_of_sizing? named' sized'] at same
  simp only [Prod.mk.injEq, Except.ok.injEq] at same
  exact other same.1.symm

/-- Whatever is written behind a type of `const` and `volatile`, it makes no difference to its size
under all profiles, databases and fallbacks if and only if it is nothing or a single `const`, and
that does not follow another one on a star. -/
theorem width_trailing_iff (t : Text) (rear : List (Text × Text))
    (spelled : ∀ part ∈ rear, Gap part.1 ∧ isCvQualifier part.2 = true)
    (last : ∀ word ∈ (words t).getLast?, isCvQualifier word = false)
    (named : ∃ word ∈ words t, isQualifier word = false) :
    (∀ (p : Profile) {σ τ : Type} (db : Database σ) (fallback : Fallback τ) (state : σ × τ),
        p.width (.of db fallback) (t ++ strung rear) state =
          p.width (.of db fallback) t state) ↔
      rear = [] ∨
        ∃ gap word, rear = [(gap, word)] ∧ isConst word = true ∧ ¬ ConstOnStar t := by
  have dark := dark_of_named named
  by_cases written : rear = []
  · simp [written, strung]
  have condition : (rear = [] ∨
        ∃ gap word, rear = [(gap, word)] ∧ isConst word = true ∧ ¬ ConstOnStar t) ↔
      kept rear = [] ∧ dropTrailingConst (dropQualifiers (trim t)) = dropQualifiers (trim t) := by
    rw [kept_eq_nil_iff written, dropTrailingConst_eq_self_iff last, or_iff_right written]
    simp only [← and_assoc, exists_and_right]
  rw [condition]
  constructor
  · intro same
    by_contra differ
    obtain ⟨starless, apart⟩ :=
      bareType_apart spelled written named (not_and_or.mp differ)
    have full : bareType (t ++ strung rear) ≠ [] := by
      apply bareType_ne_nil
      rw [allBlank_append, dark, Bool.false_and]
    obtain ⟨p, widths⟩ := exists_width_ne full (bareType_ne_nil dark) starless apart
    let db : Database Unit := .ofFunctions (fun _ => .notFound) (fun _ => .notFound)
    exact widths (.of db (Fallback.declining : Fallback Unit)) ((), ())
      (same p db Fallback.declining ((), ()))
  · rintro ⟨dropped, undropped⟩ p σ τ db fallback state
    have bare : bareType (t ++ strung rear) = bareType t := by
      rw [bareType_append_strung spelled written named, dropped, bareType, undropped]
      simp [strung]
    exact (SizedAlike.of_bareType bare (bareType_ne_nil dark)).width p _ state

-- A `const` behind the star of a pointer; it is dropped under any profile.
theorem width_trailing_star :
    let t := "T *".toList
    let rear := [(" ".toList, "CONST".toList)]
    (∀ part ∈ rear, Gap part.1 ∧ isCvQualifier part.2 = true) ∧
      (∀ word ∈ (words t).getLast?, isCvQualifier word = false) ∧
      (∃ word ∈ words t, isQualifier word = false) ∧
      ∀ (p : Profile) (db : Database Unit) (fallback : Fallback Unit),
        p.width (.of db fallback) (t ++ strung rear) ((), ()) =
          p.width (.of db fallback) t ((), ()) := by
  intro t rear
  have spelled : ∀ part ∈ rear, Gap part.1 ∧ isCvQualifier part.2 = true := by
    intro part listed
    obtain rfl : part = (" ".toList, "CONST".toList) := List.mem_singleton.mp listed
    exact ⟨⟨by decide, by decide⟩, by decide⟩
  have last : ∀ word ∈ (words t).getLast?, isCvQualifier word = false := by decide
  have named : ∃ word ∈ words t, isQualifier word = false := by decide
  have starless : ¬ ConstOnStar t :=
    (dropTrailingConst_eq_self_iff last).mp (by decide +kernel)
  have alike := (width_trailing_iff t rear spelled last named).mpr
    (.inr ⟨_, _, rfl, by decide, starless⟩)
  exact ⟨spelled, last, named, fun p db fallback => alike p db fallback ((), ())⟩

-- A `volatile` is never dropped behind a type, so that the size of the type is not found.
theorem width_trailing_volatile :
    let t := "LONG".toList
    let rear := [(" ".toList, "volatile".toList)]
    let responder := Responder.ofFunctions (fun _ => .notFound) (fun _ _ => none) (fun _ => false)
    (∀ part ∈ rear, Gap part.1 ∧ isCvQualifier part.2 = true) ∧
      (∀ word ∈ (words t).getLast?, isCvQualifier word = false) ∧
      (∃ word ∈ words t, isQualifier word = false) ∧
      (Profile.x64.width responder t ()).1 = .ok 4 ∧
      (Profile.x64.width responder (t ++ strung rear) ()).1 =
        .error (.unknownType "LONG volatile".toList) := by
  intro t rear responder
  have spelled : ∀ part ∈ rear, Gap part.1 ∧ isCvQualifier part.2 = true := by
    intro part listed
    obtain rfl : part = (" ".toList, "volatile".toList) := List.mem_singleton.mp listed
    exact ⟨⟨by decide, by decide⟩, by decide⟩
  exact ⟨spelled, by decide, by decide, by decide +kernel, by decide +kernel⟩

end MemberOffsets
