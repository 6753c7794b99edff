import Mathlib.Data.List.Forall2
import Mathlib.Data.Nat.Digits.Defs
import MemberOffsets.Text.Basic

set_option autoImplicit false

namespace MemberOffsets.Text

def IsDigit (base : Nat) (c : Char) (d : Nat) : Prop :=
  d < base ∧ (c = d.digitChar ∨ c = d.digitChar.toUpper)

def IsDigits (base : Nat) (s : Text) (n : Nat) : Prop :=
  ∃ ds, List.Forall₂ (IsDigit base) s ds ∧ n = Nat.ofDigits base ds.reverse

def IsUnsigned (base : Nat) (s : Text) (n : Nat) : Prop :=
  ∃ sign digits, s = sign ++ digits ∧ (sign = [] ∨ sign = ['+']) ∧ digits ≠ [] ∧
    IsDigits base digits n

inductive IsNumeral : Text → Nat → Prop
  | decimal {s : Text} {n : Nat} (unsigned : IsUnsigned 10 s n) : IsNumeral s n
  | hexadecimal {mark s : Text} {n : Nat} (marked : mark = ['0', 'x'] ∨ mark = ['0', 'X'])
      (unsigned : IsUnsigned 16 s n) : IsNumeral (mark ++ s) n

variable {base n : Nat} {s : Text} {c : Char}

theorem isAlpha_iff :
    c.isAlpha = true ↔ 65 ≤ c.toNat ∧ c.toNat ≤ 90 ∨ 97 ≤ c.toNat ∧ c.toNat ≤ 122 := by
  have upperA : 'A'.val.toNat = 65 := rfl
  have upperZ : 'Z'.val.toNat = 90 := rfl
  have lowerA : 'a'.val.toNat = 97 := rfl
  have lowerZ : 'z'.val.toNat = 122 := rfl
  delta Char.isAlpha Char.isUpper Char.isLower
  simp only [Bool.or_eq_true, Bool.and_eq_true, decide_eq_true_eq, ge_iff_le,
    UInt32.le_iff_toNat_le, upperA, upperZ, lowerA, lowerZ, Char.toNat]

theorem toNat_toLower (c : Char) :
    c.toLower.toNat = if 65 ≤ c.toNat ∧ c.toNat ≤ 90 then c.toNat + 32 else c.toNat := by
  have upperA : 'A'.val.toNat = 65 := rfl
  have upperZ : 'Z'.val.toNat = 90 := rfl
  have distance : ('a'.val - 'A'.val).toNat = 32 := by decide
  delta Char.toLower
  simp only [ge_iff_le, UInt32.le_iff_toNat_le, upperA, upperZ, Char.toNat]
  split
  · simp only [UInt32.toNat_add, distance]
    omega
  · rfl

theorem toNat_digitChar {d : Nat} (below : d < 16) :
    d.digitChar.toNat = (if d < 10 then 48 + d else 87 + d) ∧
      d.digitChar.toUpper.toNat = if d < 10 then 48 + d else 55 + d := by
  have each : ∀ d < 16, d.digitChar.toNat = (if d < 10 then 48 + d else 87 + d) ∧
      d.digitChar.toUpper.toNat = if d < 10 then 48 + d else 55 + d := by
    decide
  exact each d below

theorem digit?_eq_some_iff (small : base ≤ 16) {d : Nat} :
    digit? base c = some d ↔ IsDigit base c d := by
  have zero : '0'.toNat = 48 := rfl
  have nine : '9'.toNat = 57 := rfl
  have a : 'a'.toNat = 97 := rfl
  have value : digit? base c = some d ↔ d < base ∧
      (d < 10 ∧ c.toNat = 48 + d ∨ 10 ≤ d ∧ (c.toNat = 87 + d ∨ c.toNat = 55 + d)) := by
    simp only [digit?, Char.isDigit_iff_toNat, isAlpha_iff, toNat_toLower, zero, nine, a,
      Option.ite_none_right_eq_some, Option.some.injEq]
    split
    · omega
    · split
      · split <;> omega
      · omega
  rw [value, IsDigit]
  refine and_congr_right fun below => ?_
  obtain ⟨lower, upper⟩ := toNat_digitChar (Nat.lt_of_lt_of_le below small)
  rw [← Char.toNat_inj, ← Char.toNat_inj, lower, upper]
  split <;> omega

theorem foldlM_digit?_eq_some_iff (small : base ≤ 16) (start : Nat) :
    s.foldlM (fun n c => (digit? base c).map (n * base + ·)) start = some n ↔
      ∃ ds, List.Forall₂ (IsDigit base) s ds ∧ n = ds.foldl (fun n d => d + base * n) start := by
  induction s generalizing start with
  | nil => simp [eq_comm]
  | cons c s ih =>
    simp only [List.foldlM_cons, Option.bind_eq_bind, Option.bind_eq_some_iff,
      Option.map_eq_some_iff, digit?_eq_some_iff small, ih, List.forall₂_cons_left_iff]
    constructor
    · rintro ⟨_, ⟨d, digit, rfl⟩, ds, digits, rfl⟩
      refine ⟨d :: ds, ⟨d, ds, digit, digits, rfl⟩, ?_⟩
      rw [List.foldl_cons, Nat.mul_comm, Nat.add_comm]
    · rintro ⟨_, ⟨d, ds, digit, digits, rfl⟩, rfl⟩
      refine ⟨_, ⟨d, digit, rfl⟩, ds, digits, ?_⟩
      rw [List.foldl_cons, Nat.mul_comm, Nat.add_comm]

theorem readDigits_eq_some_iff (small : base ≤ 16) :
    readDigits base s = some n ↔ IsDigits base s n := by
  rw [readDigits, foldlM_digit?_eq_some_iff small, IsDigits]
  simp only [Nat.ofDigits_eq_foldr, List.foldr_reverse, Nat.cast_id]

theorem IsDigits.mem (digits : IsDigits base s n) (member : c ∈ s) : ∃ d, IsDigit base c d := by
  obtain ⟨ds, digits, -⟩ := digits
  induction digits with
  | nil => cases member
  | cons here _ ih =>
    rcases List.mem_cons.mp member with rfl | later
    · exact ⟨_, here⟩
    · exact ih later

theorem not_isDigit (small : base ≤ 16) (other : digit? base c = none) :
    ¬ ∃ d, IsDigit base c d := by
  rintro ⟨d, digit⟩
  rw [(digit?_eq_some_iff small).mpr digit] at other
  contradiction

theorem IsUnsigned.mem (unsigned : IsUnsigned base s n) (member : c ∈ s) :
    c = '+' ∨ ∃ d, IsDigit base c d := by
  obtain ⟨sign, digits, rfl, signed, -, digits⟩ := unsigned
  rcases List.mem_append.mp member with first | later
  · rcases signed with rfl | rfl
    · cases first
    · exact .inl (List.mem_singleton.mp first)
  · exact .inr (digits.mem later)

theorem readNat?_eq_some_iff (small : base ≤ 16) :
    readNat? base s = some n ↔ IsUnsigned base s n := by
  have plus : digit? base '+' = none := by simp [digit?]
  constructor
  · intro read
    unfold readNat? at read
    split at read
    all_goals
      obtain ⟨nonempty, read⟩ := Option.ite_none_left_eq_some.mp read
      have digits := (readDigits_eq_some_iff small).mp read
    · exact ⟨['+'], _, rfl, .inr rfl, by simpa using nonempty, digits⟩
    · exact ⟨[], _, rfl, .inl rfl, by simpa using nonempty, digits⟩
  · rintro ⟨sign, digits, rfl, signed, nonempty, digits⟩
    have read := (readDigits_eq_some_iff small).mpr digits
    rcases signed with rfl | rfl
    · obtain ⟨c, r, rfl⟩ := List.exists_cons_of_ne_nil nonempty
      have first : c ≠ '+' := by
        rintro rfl
        exact not_isDigit small plus (digits.mem List.mem_cons_self)
      simpa [readNat?, first] using read
    · simpa [readNat?, nonempty] using read

theorem readWord?_eq_some_iff (small : base ≤ 16) :
    readWord? base s = some n ↔ IsUnsigned base s n ∧ n ≤ wordMax := by
  rw [readWord?, Option.filter_eq_some_iff, readNat?_eq_some_iff small, decide_eq_true_eq]

theorem readPrefixed?_eq_some_iff :
    readPrefixed? s = some n ↔ IsNumeral s n ∧ n ≤ wordMax := by
  have decimal : (10 : Nat) ≤ 16 := by decide
  constructor
  · intro read
    unfold readPrefixed? at read
    split at read
    · obtain ⟨unsigned, fits⟩ := (readWord?_eq_some_iff le_rfl).mp read
      exact ⟨.hexadecimal (.inl rfl) unsigned, fits⟩
    · obtain ⟨unsigned, fits⟩ := (readWord?_eq_some_iff le_rfl).mp read
      exact ⟨.hexadecimal (.inr rfl) unsigned, fits⟩
    · obtain ⟨unsigned, fits⟩ := (readWord?_eq_some_iff decimal).mp read
      exact ⟨.decimal unsigned, fits⟩
  · rintro ⟨numeral, fits⟩
    cases numeral with
    | decimal unsigned =>
      -- No mark is decimal, for its second character is no digit.
      have unmarked {c : Char} (other : digit? 10 c = none) (sign : c ≠ '+') : c ∉ s := by
        intro member
        rcases unsigned.mem member with plus | digit
        · exact sign plus
        · exact not_isDigit decimal other digit
      unfold readPrefixed?
      split
      · exact absurd (List.mem_cons_of_mem _ List.mem_cons_self)
          (unmarked (c := 'x') (by decide) (by decide))
      · exact absurd (List.mem_cons_of_mem _ List.mem_cons_self)
          (unmarked (c := 'X') (by decide) (by decide))
      · exact (readWord?_eq_some_iff decimal).mpr ⟨unsigned, fits⟩
    | hexadecimal marked unsigned =>
      have read := (readWord?_eq_some_iff le_rfl).mpr ⟨unsigned, fits⟩
      rcases marked with rfl | rfl <;> exact read

end MemberOffsets.Text
