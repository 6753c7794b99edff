import MemberOffsets.Proofs.Abi.TypeName
import MemberOffsets.Proofs.Checked.Slices
import MemberOffsets.Proofs.Text.NumeralGrammar

set_option autoImplicit false

namespace MemberOffsets.Checked

open Text

def stripLeading (text word : Text) : Checked (Option Text) := do
  match takeBytes? (utf8Length word) text with
  | none => return none
  | some head =>
      if !sameIgnoringCase head word then return none
      else
        let tail ← slice text (utf8Length word) (utf8Length text)
        return if tail.head?.any endsWord then some (trimStart tail) else none

def stripTrailing (text word : Text) : Checked (Option Text) := do
  if utf8Length text < utf8Length word then return none
  else
    let split := utf8Length text - utf8Length word
    match dropBytes? split text with
    | none => return none
    | some tail =>
        if !sameIgnoringCase tail word then return none
        else
          let head ← slice text 0 split
          return if head.getLast?.any endsWord then some (trimEnd head) else none

def stripOneOf (text : Text) : List Text → Checked (Option Text)
  | [] => .ok none
  | word :: words => do
      match ← stripLeading text word with
      | some rest => return some rest
      | none => stripOneOf text words

def barePass (rest : Text) : Checked (Text ⊕ Text) := do
  match ← stripOneOf rest qualifiers with
  | some shorter => return .inl shorter
  | none => return .inr rest

def bareType (type : Text) : Checked Text := do
  let rest ← loop utf8Length barePass (trim type)
  let front ← stripTrailing rest "const".toList
  return joinStars (collapse (front.getD rest))

theorem utf8Size_eq (c : Char) :
    c.utf8Size =
      if c.toNat ≤ 0x7F then 1 else if c.toNat ≤ 0x7FF then 2 else if c.toNat ≤ 0xFFFF then 3
      else 4 := by
  simp only [Char.utf8Size, UInt32.le_iff_toNat_le]
  rfl

theorem utf8Size_toLower (c : Char) : c.toLower.utf8Size = c.utf8Size := by
  rw [utf8Size_eq, utf8Size_eq, toNat_toLower]
  by_cases letter : 65 ≤ c.toNat ∧ c.toNat ≤ 90
  · rw [if_pos letter, if_pos (by omega), if_pos (by omega)]
  · rw [if_neg letter]

theorem utf8Length_of_sameIgnoringCase {s t : Text} (same : sameIgnoringCase s t = true) :
    utf8Length s = utf8Length t := by
  have folded (s : Text) : utf8Length (lower s) = utf8Length s := by
    induction s with
    | nil => rfl
    | cons c s ih =>
      change c.toLower.utf8Size + utf8Length (lower s) = _
      rw [utf8Size_toLower, ih, utf8Length_cons]
  have equal : lower s = lower t := beq_iff_eq.mp same
  rw [← folded s, equal, folded]

theorem sameIgnoringCase_comm (s t : Text) : sameIgnoringCase s t = sameIgnoringCase t s :=
  Bool.beq_comm

-- What ends a word is the first character of the text behind it.
theorem any_afterFirstWord (s : Text) :
    (afterFirstWord s).head?.any endsWord = !(afterFirstWord s).isEmpty := by
  have ends := head?_afterFirstWord s
  cases behind : afterFirstWord s with
  | nil => rfl
  | cons c r =>
    rw [behind] at ends
    exact ends c rfl

theorem stripLeading_eq {word : Text} (unbroken : Unbroken (lower word)) (text : Text) :
    stripLeading text word =
      .ok (if sameIgnoringCase word (firstWord text) && !(afterFirstWord text).isEmpty then
        some (trimStart (afterFirstWord text)) else none) := by
  have parts := firstWord_append_afterFirstWord text
  cases found : sameIgnoringCase word (firstWord text) with
  | true =>
    have length := utf8Length_of_sameIgnoringCase found
    have head : takeBytes? (utf8Length word) text = some (firstWord text) :=
      takeBytes?_eq_some.mpr ⟨afterFirstWord text, parts.symm, length⟩
    have tail : slice text (utf8Length word) (utf8Length text) = .ok (afterFirstWord text) :=
      slice_end parts.symm length
    simp only [stripLeading, head, sameIgnoringCase_comm (firstWord text), found, tail, ok_bind,
      any_afterFirstWord, Bool.true_and, Bool.not_true, Bool.false_eq_true, if_false, pure_eq_ok]
  | false =>
    rw [stripLeading]
    cases taken : takeBytes? (utf8Length word) text with
    | none => rfl
    | some head =>
      obtain ⟨tail, rfl, length⟩ := takeBytes?_eq_some.mp taken
      cases same : sameIgnoringCase head word with
      | false => simp only [same, Bool.not_false, if_true]; rfl
      | true =>
        have ended : tail.head?.any endsWord = false := by
          rw [Bool.eq_false_iff]
          intro ends
          have stop : ∀ c ∈ tail.head?, endsWord c = true := by
            intro c first
            rwa [Option.mem_def.mp first] at ends
          rw [sameIgnoringCase_comm] at same
          rw [firstWord_append (unbroken_of_sameIgnoringCase unbroken same) stop, same] at found
          contradiction
        simp only [same, slice_end rfl length, ok_bind, ended, Bool.not_true, Bool.false_eq_true,
          if_false]
        rfl

theorem stripOneOf_eq {words : List Text} (unbroken : ∀ word ∈ words, Unbroken (lower word))
    (text : Text) :
    stripOneOf text words =
      .ok (if words.any (sameIgnoringCase · (firstWord text)) && !(afterFirstWord text).isEmpty then
        some (trimStart (afterFirstWord text)) else none) := by
  induction words with
  | nil => rfl
  | cons word words ih =>
    rw [List.forall_mem_cons] at unbroken
    rw [stripOneOf, stripLeading_eq unbroken.1, ok_bind, ih unbroken.2, List.any_cons]
    cases sameIgnoringCase word (firstWord text) <;> cases (afterFirstWord text).isEmpty <;> simp

theorem utf8Length_afterFirstWord_lt {s : Text} (first : firstWord s ≠ []) :
    utf8Length (trimStart (afterFirstWord s)) < utf8Length s := by
  obtain ⟨gap, rest⟩ : trimStart (afterFirstWord s) <:+ afterFirstWord s :=
    List.dropWhile_suffix isBlank
  have parts := congrArg utf8Length (firstWord_append_afterFirstWord s)
  have size := congrArg utf8Length rest
  have full : utf8Length (firstWord s) ≠ 0 := fun zero => first (eq_nil_of_utf8Length zero)
  rw [utf8Length_append] at parts size
  omega

theorem barePass_eq (rest : Text) :
    barePass rest =
      .ok (if isQualifier (firstWord rest) = true ∧ afterFirstWord rest ≠ [] then
        .inl (trimStart (afterFirstWord rest)) else .inr rest) := by
  have stripped := stripOneOf_eq (fun _ => unbroken_of_mem_qualifiers) rest
  rw [barePass, stripped, ok_bind]
  by_cases more : isQualifier (firstWord rest) = true ∧ afterFirstWord rest ≠ []
  · have found := more.1
    rw [isQualifier] at found
    simp [found, more]
  · rw [if_neg more, if_neg (by simpa [isQualifier] using more)]
    rfl

-- Every pass of the loop cuts off one of the qualifiers, as one step of the recursion does.
theorem loop_barePass (rest : Text) :
    loop utf8Length barePass rest = .ok (dropQualifiers rest) := by
  fun_induction dropQualifiers rest with
  | case1 rest more ih =>
    have shorter := utf8Length_afterFirstWord_lt (ne_nil_of_isQualifier more.1)
    rw [loop, barePass_eq, if_pos more]
    exact (if_pos shorter).trans ih
  | case2 rest done => rw [loop, barePass_eq, if_neg done]

theorem stripTrailing_append {text before word : Text} (whole : text = before ++ word)
    (const : isConst word = true) :
    stripTrailing text "const".toList =
      .ok (if before.getLast?.any endsWord then some (trimEnd before) else none) := by
  have length := utf8Length_of_sameIgnoringCase const
  have size : utf8Length text = utf8Length before + utf8Length "const".toList := by
    rw [whole, utf8Length_append, length]
  have fits : ¬ utf8Length text < utf8Length "const".toList := by omega
  have place : utf8Length text - utf8Length "const".toList = utf8Length before := by omega
  have behind : dropBytes? (utf8Length before) text = some word := by
    rw [whole, dropBytes?_append]
  have same : sameIgnoringCase word "const".toList = true := by rwa [sameIgnoringCase_comm]
  simp only [stripTrailing, if_neg fits, place, behind, same, slice_front whole rfl, ok_bind,
    Bool.not_true, Bool.false_eq_true, if_false, pure_eq_ok]

theorem stripTrailing_none {text : Text}
    (other : ∀ before word, text = before ++ word → isConst word = false) :
    stripTrailing text "const".toList = .ok none := by
  rw [stripTrailing]
  split
  · rfl
  · simp only
    cases dropped : dropBytes? (utf8Length text - utf8Length "const".toList) text with
    | none => rfl
    | some word =>
      obtain ⟨before, whole, -⟩ := append_of_dropBytes? dropped
      have different := other before word whole
      rw [isConst, sameIgnoringCase_comm] at different
      simp only [different, Bool.not_false, if_true]
      rfl

theorem any_getLast?_iff {s : Text} :
    s.getLast?.any endsWord = true ↔ s ≠ [] ∧ ∀ c ∈ s.getLast?, endsWord c = true := by
  rcases List.eq_nil_or_concat' s with rfl | ⟨init, c, rfl⟩
  · simp
  · simp

theorem stripTrailing_const (text : Text) :
    ∃ front, stripTrailing text "const".toList = .ok front ∧
      front.getD text = dropTrailingConst text := by
  rcases dropTrailingConst_cases text with kept | ⟨before, word, whole, full, const, stop, cut⟩
  · by_cases ending : ∃ before word, text = before ++ word ∧ isConst word = true
    · obtain ⟨before, word, whole, const⟩ := ending
      refine ⟨_, stripTrailing_append whole const, ?_⟩
      split
      · rename_i ended
        obtain ⟨full, stop⟩ := any_getLast?_iff.mp ended
        have dropped := dropTrailingConst_append (unbroken_of_isConst const) stop
        rw [if_pos ⟨const, full⟩, ← whole] at dropped
        exact dropped.symm
      · exact kept.symm
    · refine ⟨none, stripTrailing_none fun before word whole => ?_, kept.symm⟩
      rw [Bool.eq_false_iff]
      exact fun const => ending ⟨before, word, whole, const⟩
  · refine ⟨_, stripTrailing_append whole const, ?_⟩
    rw [if_pos (any_getLast?_iff.mpr ⟨full, stop⟩), cut]
    rfl

theorem bareType_eq (type : Text) : bareType type = .ok (MemberOffsets.bareType type) := by
  obtain ⟨front, stripped, cut⟩ := stripTrailing_const (dropQualifiers (trim type))
  simp only [bareType, loop_barePass, stripped, ok_bind, cut, MemberOffsets.bareType, pure_eq_ok]

end MemberOffsets.Checked
