import MemberOffsets.Text.Utf8

set_option autoImplicit false

namespace MemberOffsets

namespace Text

theorem dropBytes?_append (before after : Text) :
    dropBytes? (utf8Length before) (before ++ after) = some after := by
  induction before with
  | nil => cases after <;> rfl
  | cons c before ih =>
    have positive := c.utf8Size_pos
    obtain ⟨n, size⟩ : ∃ n, c.utf8Size + utf8Length before = n + 1 :=
      ⟨c.utf8Size + utf8Length before - 1, by omega⟩
    have fits : c.utf8Size ≤ n + 1 := by omega
    have rest : n + 1 - c.utf8Size = utf8Length before := by omega
    rw [utf8Length_cons, size, List.cons_append, dropBytes?, if_pos fits, rest, ih]

theorem append_of_dropBytes? {n : Nat} {s t : Text} (dropped : dropBytes? n s = some t) :
    ∃ before, s = before ++ t ∧ utf8Length before = n := by
  induction s generalizing n with
  | nil =>
    cases n with
    | zero => exact ⟨[], by simpa [dropBytes?] using dropped, rfl⟩
    | succ n => simp [dropBytes?] at dropped
  | cons c s ih =>
    cases n with
    | zero => exact ⟨[], by simpa [dropBytes?] using dropped, rfl⟩
    | succ n =>
      simp only [dropBytes?] at dropped
      split at dropped
      · obtain ⟨before, rfl, length⟩ := ih dropped
        exact ⟨c :: before, rfl, by rw [utf8Length_cons]; omega⟩
      · simp at dropped

end Text

namespace Utf8

open Text

@[simp] theorem encode_nil : encode [] = [] := rfl

@[simp] theorem encode_cons (c : Char) (s : Text) :
    encode (c :: s) = String.utf8EncodeChar c ++ encode s := rfl

@[simp] theorem encode_append (s t : Text) : encode (s ++ t) = encode s ++ encode t :=
  List.flatMap_append

@[simp] theorem length_encode (s : Text) : (encode s).length = utf8Length s := by
  induction s with
  | nil => rfl
  | cons c s ih => simp [ih]

theorem encodeChar_of_ascii {c : Char} (ascii : c.toNat < 0x80) :
    String.utf8EncodeChar c = [UInt8.ofNat c.toNat] := by
  have single : c.toNat ≤ 127 := by omega
  simp [String.utf8EncodeChar, single]

theorem high_of_mem_encodeChar {c : Char} (wide : ¬ c.toNat < 0x80) {b : UInt8}
    (member : b ∈ String.utf8EncodeChar c) : 0x80 ≤ b.toNat := by
  have several : ¬ c.val.toNat ≤ 127 := by
    rw [c.toNat_val]
    omega
  simp only [String.utf8EncodeChar, several, if_false] at member
  split at member
  · simp only [List.mem_cons, List.not_mem_nil, or_false] at member
    rcases member with rfl | rfl <;> simp <;> omega
  · split at member
    · simp only [List.mem_cons, List.not_mem_nil, or_false] at member
      rcases member with rfl | rfl | rfl <;> simp <;> omega
    · simp only [List.mem_cons, List.not_mem_nil, or_false] at member
      rcases member with rfl | rfl | rfl | rfl <;> simp <;> omega

-- A cut inside a character leaves bytes that are no character below 0x80.
theorem count_take_encodeChar (c : Char) {d : Char} (ascii : d.toNat < 0x80) {k : Nat}
    (inside : k < c.utf8Size) :
    ((String.utf8EncodeChar c).take k).count (UInt8.ofNat d.toNat) = 0 := by
  by_cases single : c.toNat < 0x80
  · have size := String.length_utf8EncodeChar c
    rw [encodeChar_of_ascii single, List.length_singleton] at size
    obtain rfl : k = 0 := by omega
    rfl
  · apply List.count_eq_zero_of_not_mem
    intro member
    have high := high_of_mem_encodeChar single (List.mem_of_mem_take member)
    simp only [UInt8.toNat_ofNat'] at high
    omega

theorem count_encodeChar (c : Char) {d : Char} (ascii : d.toNat < 0x80) :
    (String.utf8EncodeChar c).count (UInt8.ofNat d.toNat) = [c].count d := by
  by_cases single : c.toNat < 0x80
  · have same : UInt8.ofNat c.toNat = UInt8.ofNat d.toNat ↔ c = d := by
      rw [← UInt8.toNat_inj, ← Char.toNat_inj]
      simp only [UInt8.toNat_ofNat']
      omega
    rw [encodeChar_of_ascii single, List.count_singleton, List.count_singleton]
    simp [same]
  · have other : c ≠ d := by
      rintro rfl
      exact single ascii
    rw [List.count_singleton, if_neg (by simpa using other)]
    apply List.count_eq_zero_of_not_mem
    intro member
    have high := high_of_mem_encodeChar single member
    simp only [UInt8.toNat_ofNat'] at high
    omega

theorem count_encode (s : Text) {d : Char} (ascii : d.toNat < 0x80) :
    (encode s).count (UInt8.ofNat d.toNat) = s.count d := by
  induction s with
  | nil => rfl
  | cons c s ih =>
    rw [encode_cons, List.count_append, count_encodeChar c ascii, ih, ← List.count_append]
    rfl

/-- Wherever the bytes of a text are cut, the characters below 0x80 in them are those of a
beginning of the text. -/
theorem exists_prefix_take_encode (s : Text) (k : Nat) :
    ∃ front, front <+: s ∧ ∀ d : Char, d.toNat < 0x80 →
      ((encode s).take k).count (UInt8.ofNat d.toNat) = front.count d := by
  induction s generalizing k with
  | nil => exact ⟨[], List.nil_prefix, by simp⟩
  | cons c s ih =>
    have size := String.length_utf8EncodeChar c
    by_cases whole : c.utf8Size ≤ k
    · obtain ⟨front, start, counts⟩ := ih (k - c.utf8Size)
      refine ⟨c :: front, (List.prefix_cons_inj c).mpr start, ?_⟩
      intro d ascii
      rw [encode_cons, List.take_append, List.take_of_length_le (by omega), size,
        List.count_append, count_encodeChar c ascii, counts d ascii, ← List.count_append]
      rfl
    · refine ⟨[], List.nil_prefix, ?_⟩
      intro d ascii
      rw [encode_cons, List.take_append_of_le_length (by omega)]
      exact count_take_encodeChar c ascii (by omega)

end Utf8

end MemberOffsets
