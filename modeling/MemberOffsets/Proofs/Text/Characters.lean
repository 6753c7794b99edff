import MemberOffsets.Text.WordChar

set_option autoImplicit false

namespace MemberOffsets.Text

theorem mem_inRanges {ranges : List (Nat × Nat)} {c : Char} (inside : inRanges ranges c = true) :
    ∃ r ∈ ranges, r.1 ≤ c.toNat ∧ c.toNat ≤ r.2 := by
  simp only [inRanges, List.any_eq_true, Bool.and_eq_true, decide_eq_true_eq] at inside
  obtain ⟨r, among, bounds⟩ := inside
  exact ⟨r, among, bounds⟩

def identRanges : List (Nat × Nat) := [(0x30, 0x39), (0x41, 0x5A), (0x5F, 0x5F), (0x61, 0x7A)]

theorem isIdentChar_eq (c : Char) : isIdentChar c = inRanges identRanges c := by
  have underscore : c = '_' ↔ c.toNat = 95 := by
    rw [← Char.toNat_inj]
    rfl
  have alphanum : c.isAlphanum = (c.isUpper || c.isLower || c.isDigit) := rfl
  have upper : c.isUpper = decide (c.val ≥ 'A'.val ∧ c.val ≤ 'Z'.val) := rfl
  have lower : c.isLower = (decide (c.val ≥ 'a'.val) && decide (c.val ≤ 'z'.val)) := rfl
  have digit : c.isDigit = (decide (c.val ≥ '0'.val) && decide (c.val ≤ '9'.val)) := rfl
  have upperA : 'A'.val.toNat = 65 := rfl
  have upperZ : 'Z'.val.toNat = 90 := rfl
  have lowerA : 'a'.val.toNat = 97 := rfl
  have lowerZ : 'z'.val.toNat = 122 := rfl
  have zero : '0'.val.toNat = 48 := rfl
  have nine : '9'.val.toNat = 57 := rfl
  rw [Bool.eq_iff_iff]
  simp only [isIdentChar, alphanum, upper, lower, digit, Bool.or_eq_true, Bool.and_eq_true,
    decide_eq_true_eq, ge_iff_le, UInt32.le_iff_toNat_le, beq_iff_eq, underscore, inRanges,
    identRanges, List.any_cons, List.any_nil, Bool.or_false]
  simp only [Char.toNat]
  omega

theorem isWordChar_of_isIdentChar {c : Char} (ident : isIdentChar c = true) :
    isWordChar c = true := by
  have inside := ident
  simp only [isIdentChar_eq, inRanges, identRanges, List.any_cons, List.any_nil, Bool.or_eq_true,
    Bool.and_eq_true, decide_eq_true_eq, Bool.or_false] at inside
  have ascii : c.toNat < 0x80 := by omega
  rw [isWordChar, if_pos ascii]
  exact ident

def separate (p q : List (Nat × Nat)) : Bool :=
  p.all fun r => q.all fun t => decide (r.2 < t.1) || decide (t.2 < r.1)

theorem not_inRanges_of_separate {p q : List (Nat × Nat)} (apart : separate p q = true) {c : Char}
    (inside : inRanges p c = true) : inRanges q c = false := by
  rw [Bool.eq_false_iff]
  intro other
  obtain ⟨r, among, bounds⟩ := mem_inRanges inside
  obtain ⟨t, among', bounds'⟩ := mem_inRanges other
  simp only [separate, List.all_eq_true, Bool.or_eq_true, decide_eq_true_eq] at apart
  have := apart r among t among'
  omega

theorem isIdentChar_of_isBlank {c : Char} (blank : isBlank c = true) : isIdentChar c = false := by
  rw [isIdentChar_eq]
  exact not_inRanges_of_separate (by decide) blank

theorem isIdentStart_of_isBlank {c : Char} (blank : isBlank c = true) : isIdentStart c = false := by
  cases start : isIdentStart c with
  | false => rfl
  | true =>
    have ident := isIdentChar_of_isIdentStart c start
    rw [isIdentChar_of_isBlank blank] at ident
    contradiction

theorem isWordChar_of_isBlank {c : Char} (blank : isBlank c = true) : isWordChar c = false := by
  have other : inRanges wordRanges c = false :=
    not_inRanges_of_separate (by decide +kernel) blank
  have ident : (c.isAlphanum || c == '_') = false := isIdentChar_of_isBlank blank
  by_cases ascii : c.toNat < 0x80
  · rw [isWordChar, if_pos ascii, ident]
  · rw [isWordChar, if_neg ascii, other]

theorem isBlank_of_isIdentChar {c : Char} (ident : isIdentChar c = true) : isBlank c = false := by
  cases blank : isBlank c with
  | false => rfl
  | true =>
    rw [isIdentChar_of_isBlank blank] at ident
    contradiction

theorem not_letter {c : Char} (other : isIdentChar c = false) :
    ¬ ('A'.val ≤ c.val ∧ c.val ≤ 'Z'.val) ∧ ¬ ('a'.val ≤ c.val ∧ c.val ≤ 'z'.val) := by
  have upperA : 'A'.val.toNat = 65 := rfl
  have upperZ : 'Z'.val.toNat = 90 := rfl
  have lowerA : 'a'.val.toNat = 97 := rfl
  have lowerZ : 'z'.val.toNat = 122 := rfl
  simp only [isIdentChar_eq, inRanges, identRanges, List.any_cons, List.any_nil, Bool.or_false,
    Bool.or_eq_false_iff, Bool.and_eq_false_imp, decide_eq_true_eq, decide_eq_false_iff_not,
    Char.toNat] at other
  simp only [UInt32.le_iff_toNat_le, upperA, upperZ, lowerA, lowerZ]
  omega

theorem toLower_eq_self {c : Char} (other : isIdentChar c = false) : c.toLower = c :=
  dif_neg (not_letter other).1

theorem toUpper_eq_self {c : Char} (other : isIdentChar c = false) : c.toUpper = c :=
  dif_neg (not_letter other).2

theorem isIdentChar_toUpper {c : Char} (ident : isIdentChar c = true) :
    isIdentChar c.toUpper = true := by
  delta Char.toUpper
  split
  · rename_i small
    obtain ⟨first, last⟩ := small
    rw [UInt32.le_iff_toNat_le] at first last
    have distance : ('A'.val - 'a'.val).toNat = 2 ^ 32 - 32 := by decide
    have a : 'a'.val.toNat = 97 := rfl
    have z : 'z'.val.toNat = 122 := rfl
    simp only [isIdentChar_eq, inRanges, identRanges, List.any_cons, List.any_nil, Bool.or_false,
      Bool.or_eq_true, Bool.and_eq_true, decide_eq_true_eq, Char.toNat, UInt32.toNat_add, distance]
    omega
  · exact ident

theorem isBlank_toUpper (c : Char) : isBlank c.toUpper = isBlank c := by
  cases ident : isIdentChar c with
  | false => rw [toUpper_eq_self ident]
  | true => rw [isBlank_of_isIdentChar ident, isBlank_of_isIdentChar (isIdentChar_toUpper ident)]

end MemberOffsets.Text
