import MemberOffsets.Proofs.Text.Characters
import MemberOffsets.Proofs.Text.Words
import MemberOffsets.Text.Basic

set_option autoImplicit false

namespace MemberOffsets.Text

theorem digit?_digitChar {base d : Nat} (small : base ≤ 16) (below : d < base) :
    digit? base d.digitChar = some d := by
  have digits : ∀ d < 16,
      (d.digitChar.isDigit = true ∧ d.digitChar.toNat - '0'.toNat = d) ∨
        (d.digitChar.isDigit = false ∧ d.digitChar.isAlpha = true ∧
          d.digitChar.toLower.toNat - 'a'.toNat + 10 = d) := by
    decide
  rcases digits d (by omega) with ⟨digit, value⟩ | ⟨letter, alpha, value⟩
  · simp only [digit?, digit, if_true, value, if_pos below]
  · simp only [digit?, letter, Bool.false_eq_true, if_false, alpha, if_true, value, if_pos below]

theorem readDigits_concat (base : Nat) (s : Text) (c : Char) :
    readDigits base (s ++ [c]) =
      (readDigits base s).bind fun n => (digit? base c).map (n * base + ·) := by
  simp [readDigits, List.foldlM_append]

theorem readDigits_toDigits {base : Nat} (valid : 1 < base) (small : base ≤ 16) (n : Nat) :
    readDigits base (Nat.toDigits base n) = some n := by
  induction n using Nat.strongRecOn with
  | ind n ih =>
    rw [Nat.toDigits_eq_if valid]
    split
    · rename_i below
      simp [readDigits, digit?_digitChar small below]
    · have smaller : n / base < n := Nat.div_lt_self (by omega) valid
      have last : n % base < base := Nat.mod_lt n (by omega)
      rw [readDigits_concat, ih _ smaller, digit?_digitChar small last]
      simp [Nat.div_add_mod']

theorem readDigits_zeros {base : Nat} (pos : 0 < base) (zeros : Nat) (s : Text) :
    readDigits base (List.replicate zeros '0' ++ s) = readDigits base s := by
  have zero : digit? base '0' = some 0 := by simp [digit?, pos]
  induction zeros with
  | zero => rfl
  | succ zeros ih => simpa [List.replicate_succ, readDigits, zero] using ih

theorem padded_hex {n : Nat} (control : n < 0x20) :
    ∃ a b, padded 4 (hex n) = ['0', '0', a, b] := by
  have digits : ∀ n < 0x20,
      padded 4 (hex n) = ['0', '0', (n / 16).digitChar, (n % 16).digitChar] := by
    decide
  exact ⟨_, _, digits n control⟩

theorem readDigits_padded_hex (n : Nat) : readDigits 16 (padded 4 (hex n)) = some n := by
  rw [padded, List.leftpad, readDigits_zeros (by omega), hex, readDigits_toDigits (by omega) le_rfl]

theorem head?_toDigits {base n : Nat} (valid : 1 < base) (small : base ≤ 16) (pos : 0 < n) :
    (Nat.toDigits base n).head? ≠ some '0' := by
  have digits : ∀ d < 16, 0 < d → d.digitChar ≠ '0' := by decide
  induction n using Nat.strongRecOn with
  | ind n ih =>
    rw [Nat.toDigits_eq_if valid]
    split
    · simpa using digits n (by omega) pos
    · have smaller : n / base < n := Nat.div_lt_self pos valid
      have quotient : 0 < n / base := Nat.div_pos (by omega) (by omega)
      rw [List.head?_append_of_ne_nil _ Nat.toDigits_ne_nil]
      exact ih _ smaller quotient

theorem isDigit_of_mem_decimal {n : Nat} {c : Char} (member : c ∈ decimal n) : c.isDigit = true :=
  Nat.isDigit_of_mem_toDigits (by omega) (by omega) member

theorem decimal_cons (n : Nat) : ∃ c ds, decimal n = c :: ds ∧ c.isDigit = true := by
  have nonempty : decimal n ≠ [] := Nat.toDigits_ne_nil
  obtain ⟨c, ds, whole⟩ := List.exists_cons_of_ne_nil nonempty
  exact ⟨c, ds, whole, isDigit_of_mem_decimal (whole ▸ List.mem_cons_self)⟩

theorem length_decimal_of_zero {n : Nat} (zero : (decimal n).head? = some '0') :
    (decimal n).length = 1 := by
  cases n with
  | zero => rfl
  | succ n => exact absurd zero (head?_toDigits (by omega) (by omega) (by omega))

theorem isBlank_of_isDigit {c : Char} (digit : c.isDigit = true) : isBlank c = false :=
  isBlank_of_isIdentChar (by simp [isIdentChar, Char.isAlphanum, digit])

theorem ne_of_isDigit {c d : Char} (digit : c.isDigit = true) (other : d.isDigit = false) :
    c ≠ d := by
  rintro rfl
  rw [digit] at other
  contradiction

def Spells (s : Text) (n : Nat) : Prop :=
  ∃ sign zeros, s = sign ++ List.replicate zeros '0' ++ decimal n ∧ (sign = [] ∨ sign = ['+'])

namespace Spells

variable {s : Text} {n : Nat}

theorem dark (spells : Spells s n) : ∀ c ∈ s, isBlank c = false := by
  obtain ⟨sign, zeros, rfl, signs⟩ := spells
  simp only [List.forall_mem_append]
  refine ⟨⟨?_, ?_⟩, ?_⟩
  · rcases signs with rfl | rfl <;> simp [isBlank, inRanges, blankRanges]
  · intro c member
    rw [List.eq_of_mem_replicate member]
    decide
  · exact fun c member => isBlank_of_isDigit (isDigit_of_mem_decimal member)

theorem trim (spells : Spells s n) {before after : Text} (blankBefore : allBlank before = true)
    (blankAfter : allBlank after = true) : trim (before ++ s ++ after) = s := by
  rw [trim_append_right _ blankAfter, trim_append_left blankBefore]
  exact trim_eq_self (fun c first => spells.dark c (List.mem_of_head? first))
    (fun c last => spells.dark c (List.mem_of_getLast? last))

theorem readWord? (spells : Spells s n) (fits : n ≤ wordMax) : readWord? 10 s = some n := by
  obtain ⟨sign, zeros, rfl, signs⟩ := spells
  have read : readDigits 10 (List.replicate zeros '0' ++ decimal n) = some n := by
    rw [readDigits_zeros (by omega), decimal, readDigits_toDigits (by omega) (by omega)]
  have unsigned : ∀ c ∈ List.replicate zeros '0' ++ decimal n, c ≠ '+' := by
    rintro c member rfl
    rcases List.mem_append.mp member with zero | digit
    · exact absurd (List.eq_of_mem_replicate zero) (by decide)
    · exact ne_of_isDigit (isDigit_of_mem_decimal digit) rfl rfl
  have nonempty : List.replicate zeros '0' ++ decimal n ≠ [] := by
    simp [decimal, Nat.toDigits_ne_nil]
  have value : readNat? 10 (sign ++ List.replicate zeros '0' ++ decimal n) = some n := by
    obtain ⟨c, digits, whole⟩ := List.exists_cons_of_ne_nil nonempty
    rw [List.append_assoc, whole]
    rw [whole] at read unsigned
    have first : c ≠ '+' := unsigned c List.mem_cons_self
    rcases signs with rfl | rfl <;> simp [readNat?, first, read]
  rw [Text.readWord?, value]
  simp [fits]

end Spells

theorem mem_toDigits {base n : Nat} (valid : 1 < base) {c : Char}
    (member : c ∈ Nat.toDigits base n) : ∃ d < base, c = d.digitChar := by
  induction n using Nat.strongRecOn with
  | ind n ih =>
    rw [Nat.toDigits_eq_if valid] at member
    split at member
    · rename_i below
      exact ⟨n, below, List.mem_singleton.mp member⟩
    · have smaller : n / base < n := Nat.div_lt_self (by omega) valid
      rcases List.mem_append.mp member with before | last
      · exact ih _ smaller before
      · exact ⟨n % base, Nat.mod_lt n (by omega), List.mem_singleton.mp last⟩

theorem readPrefixed?_of_digits {s : Text} (digits : ∀ c ∈ s, c.isDigit = true) :
    readPrefixed? s = readWord? 10 s := by
  unfold readPrefixed?
  split
  · exact absurd (digits 'x' (by simp)) (by decide)
  · exact absurd (digits 'X' (by simp)) (by decide)
  · rfl

theorem forall_mem_padded {P : Char → Prop} {s : Text} (zero : P '0') (digits : ∀ c ∈ s, P c)
    (width : Nat) : ∀ c ∈ padded width s, P c := by
  intro c member
  rcases List.mem_append.mp member with zeros | digit
  · exact List.eq_of_mem_replicate zeros ▸ zero
  · exact digits c digit

theorem isDigit_of_mem_padded {n : Nat} : ∀ c ∈ padded 4 (decimal n), c.isDigit = true :=
  forall_mem_padded (by decide) (fun _ => isDigit_of_mem_decimal) 4

theorem isIdentChar_of_mem_padded {n : Nat} : ∀ c ∈ padded 4 (hex n), isIdentChar c = true := by
  have each : ∀ d < 16, isIdentChar d.digitChar = true := by decide
  have digits : ∀ c ∈ hex n, isIdentChar c = true := by
    intro c member
    obtain ⟨d, below, rfl⟩ := mem_toDigits (by omega) member
    exact each d below
  exact forall_mem_padded (by decide) digits 4

theorem isIdentChar_of_mem_prefixed {n : Nat} :
    ∀ c ∈ "0x".toList ++ padded 4 (hex n), isIdentChar c = true := by
  simp only [List.forall_mem_append]
  exact ⟨List.all_eq_true.mp rfl, isIdentChar_of_mem_padded⟩

theorem parseOffset_decimal {n : Nat} (fits : n ≤ wordMax) :
    parseOffset (padded 4 (decimal n)) = .ok n := by
  have spells : Spells (padded 4 (decimal n)) n := ⟨[], _, rfl, .inl rfl⟩
  have blank : allBlank [] = true := rfl
  have trimmed : trim (padded 4 (decimal n)) = padded 4 (decimal n) := by
    simpa using spells.trim blank blank
  rw [parseOffset, trimmed, readPrefixed?_of_digits isDigit_of_mem_padded,
    spells.readWord? fits]

theorem parseOffset_hex {n : Nat} (fits : n ≤ wordMax) :
    parseOffset ("0x".toList ++ padded 4 (hex n)) = .ok n := by
  have ident : ∀ c ∈ "0x".toList ++ padded 4 (hex n), isIdentChar c = true :=
    isIdentChar_of_mem_prefixed
  have trimmed : trim ("0x".toList ++ padded 4 (hex n)) = "0x".toList ++ padded 4 (hex n) :=
    trim_eq_self (fun c first => isBlank_of_isIdentChar (ident c (List.mem_of_mem_head? first)))
      (fun c last => isBlank_of_isIdentChar (ident c (List.mem_of_mem_getLast? last)))
  have nonempty : padded 4 (hex n) ≠ [] := by
    simp [padded, List.leftpad, hex, Nat.toDigits_ne_nil]
  obtain ⟨c, digits, whole⟩ := List.exists_cons_of_ne_nil nonempty
  have unsigned : c ≠ '+' := by
    rintro rfl
    exact absurd (isIdentChar_of_mem_padded '+' (whole ▸ List.mem_cons_self)) (by decide)
  have value : readNat? 16 (padded 4 (hex n)) = some n := by
    have read := readDigits_padded_hex n
    rw [whole] at read ⊢
    simp [readNat?, unsigned, read]
  have read : readPrefixed? ("0x".toList ++ padded 4 (hex n)) = some n := by
    simp only [String.toList]
    show readWord? 16 (padded 4 (hex n)) = some n
    rw [readWord?, value]
    simp [fits]
  rw [parseOffset, trimmed, read]

end MemberOffsets.Text
