import MemberOffsets.Proofs.Layout.Listing
import MemberOffsets.Proofs.Text.NumeralGrammar

set_option autoImplicit false

namespace MemberOffsets

open Text

theorem le_wordMax_iff {n : Nat} : n ≤ wordMax ↔ n < 2 ^ 64 := by
  rw [wordMax]
  omega

namespace Text

variable {s : Text}

theorem parseOffset_eq_ok_iff {n : Nat} :
    parseOffset s = .ok n ↔ IsNumeral (trim s) n ∧ n < 2 ^ 64 := by
  rw [← le_wordMax_iff, ← readPrefixed?_eq_some_iff, parseOffset]
  cases readPrefixed? (trim s) <;> simp

theorem parseOffset_eq_error_iff {e : InvalidOffset} :
    parseOffset s = .error e ↔ e = ⟨trim s⟩ ∧ ∀ n, IsNumeral (trim s) n → 2 ^ 64 ≤ n := by
  constructor
  · intro refused
    refine ⟨?_, fun n numeral => ?_⟩
    · rw [parseOffset] at refused
      split at refused
      · contradiction
      · exact (Except.error.inj refused).symm
    · by_contra inside
      rw [parseOffset_eq_ok_iff.mpr ⟨numeral, Nat.lt_of_not_le inside⟩] at refused
      contradiction
  · rintro ⟨rfl, outside⟩
    rw [parseOffset]
    split
    · rename_i n read
      obtain ⟨numeral, fits⟩ := readPrefixed?_eq_some_iff.mp read
      exact absurd (le_wordMax_iff.mp fits) (Nat.not_lt_of_le (outside n numeral))
    · rfl

theorem readDigits_padded_decimal (n : Nat) : readDigits 10 (padded 4 (decimal n)) = some n := by
  rw [padded, List.leftpad, readDigits_zeros (by omega), decimal,
    readDigits_toDigits (by omega) (by omega)]

end Text

theorem offsetComment_eq (n : Nat) :
    offsetComment n = "// ".toList ++ padded 4 (decimal n) ++ ": ".toList ++
      ("0x".toList ++ padded 4 (hex n)) := by
  rw [offsetComment, numeralPair_eq]
  simp only [List.append_assoc]

def commentDecimal (comment : Text) : Text := (comment.drop 3).takeWhile Char.isDigit

theorem commentDecimal_offsetComment (n : Nat) :
    commentDecimal (offsetComment n) = padded 4 (decimal n) := by
  have behind : (offsetComment n).drop 3 =
      padded 4 (decimal n) ++ ": 0x".toList ++ padded 4 (hex n) :=
    rfl
  rw [commentDecimal, behind, List.append_assoc]
  exact takeWhile_append_stop isDigit_of_mem_padded (by simp)

theorem offsetComment_injective : Function.Injective offsetComment := by
  have read : (fun s => readDigits 10 (commentDecimal s)) ∘ offsetComment = some := by
    funext n
    rw [Function.comp_apply, commentDecimal_offsetComment, readDigits_padded_decimal]
  refine Function.Injective.of_comp (f := fun s => readDigits 10 (commentDecimal s)) ?_
  rw [read]
  exact Option.some_injective Nat

/-- An offset is read off a text exactly where the text is a numeral, up to blanks around it, whose
value is in range, and what is read is that value; any other text is refused as it stands between
the blanks. A comment states its offset in two numerals, each of which is read as that offset, and
no two offsets have the same comment. -/
theorem offsets_exact :
    (∀ (s : Text) (n : Nat), parseOffset s = .ok n ↔ IsNumeral (trim s) n ∧ n < 2 ^ 64) ∧
    (∀ (s : Text) (e : InvalidOffset),
      parseOffset s = .error e ↔ e = ⟨trim s⟩ ∧ ∀ n, IsNumeral (trim s) n → 2 ^ 64 ≤ n) ∧
    (∀ n : Nat,
      let dec := padded 4 (decimal n)
      let hexadecimal := "0x".toList ++ padded 4 (hex n)
      offsetComment n = "// ".toList ++ dec ++ ": ".toList ++ hexadecimal ∧
        (n < 2 ^ 64 → parseOffset dec = .ok n ∧ parseOffset hexadecimal = .ok n)) ∧
    Function.Injective offsetComment := by
  refine ⟨fun _ _ => parseOffset_eq_ok_iff, fun _ _ => parseOffset_eq_error_iff, ?_,
    offsetComment_injective⟩
  intro n dec hexadecimal
  refine ⟨offsetComment_eq n, fun inside => ?_⟩
  have fits := le_wordMax_iff.mpr inside
  exact ⟨parseOffset_decimal fits, parseOffset_hex fits⟩

-- The last offset of the range, behind a mark, a sign and zeros; the one behind it; and a sign in
-- front of a mark.
theorem offsets_exact_at_the_end :
    let last := " 0X+00ffffFFFFffffFFFF\n".toList
    let past := "18446744073709551616".toList
    let signed := "+0x10".toList
    (2 ^ 64 - 1 < 2 ^ 64 ∧ parseOffset (padded 4 (decimal (2 ^ 64 - 1))) = .ok (2 ^ 64 - 1) ∧
        parseOffset ("0x".toList ++ padded 4 (hex (2 ^ 64 - 1))) = .ok (2 ^ 64 - 1)) ∧
      IsNumeral (trim last) (2 ^ 64 - 1) ∧ (∀ n, IsNumeral (trim past) n → 2 ^ 64 ≤ n) ∧
      (∀ n, IsNumeral (trim signed) n → 2 ^ 64 ≤ n) ∧
      offsetComment 0x10 ≠ offsetComment 10 := by
  intro last past signed
  obtain ⟨ok, error, comment, injective⟩ := offsets_exact
  have inside : 2 ^ 64 - 1 < 2 ^ 64 := by decide
  have read : parseOffset last = .ok (2 ^ 64 - 1) := by decide +kernel
  have refused : parseOffset past = .error ⟨past⟩ := by decide +kernel
  have refused' : parseOffset signed = .error ⟨signed⟩ := by decide +kernel
  exact ⟨⟨inside, (comment _).2 inside⟩, ((ok _ _).mp read).1, ((error _ _).mp refused).2,
    ((error _ _).mp refused').2, injective.ne (by decide)⟩

end MemberOffsets
