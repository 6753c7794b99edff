import Mathlib.Order.Bounds.Basic
import MemberOffsets.Proofs.Declaration.Closing
import MemberOffsets.Proofs.Text.Bytes

set_option autoImplicit false

namespace MemberOffsets

open Text Utf8

def openingByte : UInt8 := UInt8.ofNat '{'.toNat

def closingByte : UInt8 := UInt8.ofNat '}'.toNat

def slice (bytes : Bytes) (first last : Nat) : Bytes := (bytes.take (last + 1)).drop first

def FirstOpening (text : Text) (start first : Nat) : Prop :=
  ∃ before gap behind, text = before ++ gap ++ '{' :: behind ∧ utf8Length before = start ∧
    '{' ∉ gap ∧ first = utf8Length (before ++ gap)

def evenIndices (bytes : Bytes) (first : Nat) : Set Nat :=
  {last | first ≤ last ∧ last < bytes.length ∧
    (slice bytes first last).count closingByte = (slice bytes first last).count openingByte}

def preview (text : Text) (index : Nat) : Text := ((dropBytes? index text).getD []).take 48

/-- Follows the bytes with a counter of the braces that are open, up to the byte at which it is back
at zero. None where the counter would go below zero. -/
def countBraces? : (index depth : Nat) → Bytes → Option (Option Nat)
  | _, _, [] => some none
  | index, depth, b :: r =>
      if b = openingByte then countBraces? (index + 1) (depth + 1) r
      else if b = closingByte then
        if depth = 0 then none
        else if depth = 1 then some (some index)
        else countBraces? (index + 1) (depth - 1) r
      else countBraces? (index + 1) depth r

theorem encodeChar_opening : String.utf8EncodeChar '{' = [openingByte] :=
  encodeChar_of_ascii (by decide)

theorem encodeChar_closing : String.utf8EncodeChar '}' = [closingByte] :=
  encodeChar_of_ascii (by decide)

theorem slice_opening (before behind : Text) {last : Nat} (ordered : utf8Length before ≤ last) :
    slice (encode (before ++ '{' :: behind)) (utf8Length before) last =
      openingByte :: (encode behind).take (last - utf8Length before) := by
  have length : last + 1 - utf8Length before = last - utf8Length before + 1 := by omega
  rw [slice, List.drop_take, encode_append, List.drop_left' (length_encode before), encode_cons,
    encodeChar_opening, length]
  rfl

-- Behind the opening brace, the braces of a slice are those of a beginning of the text.
theorem exists_prefix_slice (before behind : Text) {last : Nat}
    (ordered : utf8Length before ≤ last) :
    let bytes := slice (encode (before ++ '{' :: behind)) (utf8Length before) last
    ∃ front, front <+: behind ∧ bytes.count openingByte = front.count '{' + 1 ∧
      bytes.count closingByte = front.count '}' := by
  intro bytes
  obtain ⟨front, start, counts⟩ :=
    exists_prefix_take_encode behind (last - utf8Length before)
  have other : openingByte ≠ closingByte := by decide
  have opens : ((encode behind).take (last - utf8Length before)).count openingByte =
      front.count '{' := counts '{' (by decide)
  have closes : ((encode behind).take (last - utf8Length before)).count closingByte =
      front.count '}' := counts '}' (by decide)
  refine ⟨front, start, ?_, ?_⟩
  · simp only [bytes, slice_opening before behind ordered, List.count_cons_self, opens]
  · simp only [bytes, slice_opening before behind ordered, List.count_cons_of_ne other, closes]

theorem evenIndices_eq_empty {before behind : Text} (stays : StaysOpen 0 behind) :
    evenIndices (encode (before ++ '{' :: behind)) (utf8Length before) = ∅ := by
  rw [Set.eq_empty_iff_forall_notMem]
  rintro last ⟨ordered, -, even⟩
  obtain ⟨front, start, opens, closes⟩ := exists_prefix_slice before behind ordered
  have bound := stays front start
  omega

section Closed

variable (before : Text) {body : Text} (after : Text)

theorem ahead_of_bracesMatch (matching : BracesMatch body) {i : Nat}
    (ordered : utf8Length before ≤ i) (within : i < utf8Length before + 1 + utf8Length body) :
    let bytes := slice (encode (before ++ '{' :: (body ++ '}' :: after))) (utf8Length before) i
    bytes.count closingByte < bytes.count openingByte := by
  intro bytes
  have short : i - utf8Length before ≤ (encode body).length := by
    rw [length_encode]
    omega
  have same : bytes = slice (encode (before ++ '{' :: body)) (utf8Length before) i := by
    rw [slice_opening before body ordered, ← List.take_append_of_le_length short,
      ← encode_append, ← slice_opening before _ ordered]
  obtain ⟨front, start, opens, closes⟩ := exists_prefix_slice before body ordered
  have bound := matching.early front start
  rw [same, opens, closes]
  omega

theorem isLeast_of_bracesMatch (matching : BracesMatch body) :
    IsLeast (evenIndices (encode (before ++ '{' :: (body ++ '}' :: after))) (utf8Length before))
      (utf8Length before + 1 + utf8Length body) := by
  have brace : '}'.utf8Size = 1 := rfl
  have opens : (encode body).count openingByte = body.count '{' := count_encode body (by decide)
  have closes : (encode body).count closingByte = body.count '}' := count_encode body (by decide)
  constructor
  · refine ⟨by omega, ?_, ?_⟩
    · simp only [length_encode, utf8Length_append, utf8Length_cons, brace]
      have opening : '{'.utf8Size = 1 := rfl
      omega
    · have length : utf8Length before + 1 + utf8Length body - utf8Length before =
          (encode body ++ [closingByte]).length := by
        simp only [List.length_append, length_encode, List.length_singleton]
        omega
      have bytes : encode (body ++ '}' :: after) =
          encode body ++ [closingByte] ++ encode after := by
        simp [encodeChar_closing]
      have equal := matching.equal
      rw [slice_opening before _ (by omega), length, bytes, List.take_left]
      simp only [List.count_cons, List.count_append, List.count_nil, opens, closes, beq_iff_eq]
      rw [equal]
      simp [openingByte, closingByte]
  · rintro i ⟨ordered, -, even⟩
    by_contra early
    have ahead := ahead_of_bracesMatch before after matching ordered (by omega)
    omega

theorem getElem?_closing :
    (encode (before ++ '{' :: (body ++ '}' :: after)))[utf8Length before + 1 + utf8Length body]? =
      some closingByte := by
  have bytes : encode (before ++ '{' :: (body ++ '}' :: after)) =
      encode before ++ [openingByte] ++ encode body ++ closingByte :: encode after := by
    simp [encodeChar_opening, encodeChar_closing]
  have length : utf8Length before + 1 + utf8Length body =
      (encode before ++ [openingByte] ++ encode body).length := by
    simp only [List.length_append, length_encode, List.length_singleton]
  rw [bytes, length, List.getElem?_append_right le_rfl, Nat.sub_self, List.getElem?_cons_zero]

end Closed

theorem countBraces?_plain {bytes : Bytes} (plain : ∀ b ∈ bytes, b ≠ openingByte ∧ b ≠ closingByte)
    (index depth : Nat) (r : Bytes) :
    countBraces? index depth (bytes ++ r) = countBraces? (index + bytes.length) depth r := by
  induction bytes generalizing index with
  | nil => rfl
  | cons b bytes ih =>
    obtain ⟨opens, closes⟩ := plain b List.mem_cons_self
    have rest := ih (fun d member => plain d (List.mem_cons_of_mem b member)) (index + 1)
    have length : index + (b :: bytes).length = index + 1 + bytes.length := by
      rw [List.length_cons]
      omega
    rw [List.cons_append, countBraces?, if_neg opens, if_neg closes, rest, length]

theorem not_mem_encodeChar {c d : Char} (other : c ≠ d) (ascii : d.toNat < 0x80) :
    UInt8.ofNat d.toNat ∉ String.utf8EncodeChar c := by
  rw [← List.count_eq_zero, count_encodeChar c ascii]
  simp [other]

-- Inside a block the counter is one more than the number of braces that are open besides.
theorem countBraces?_encode (s : Text) (index depth : Nat) :
    countBraces? index (depth + 1) (encode s) =
      some ((splitAtClose depth s).map fun (body, _) => index + utf8Length body) := by
  have brace : '{'.utf8Size = 1 ∧ '}'.utf8Size = 1 := ⟨rfl, rfl⟩
  have other : closingByte ≠ openingByte := by decide
  induction s generalizing index depth with
  | nil => simp [countBraces?, splitAtClose]
  | cons c s ih =>
    by_cases opens : c = '{'
    · subst opens
      rw [encode_cons, encodeChar_opening, List.singleton_append, countBraces?, if_pos rfl, ih,
        splitAtClose_opening, Option.map_map]
      congr 3
      funext found
      simp [brace, Nat.add_assoc]
    · by_cases closes : c = '}'
      · subst closes
        rw [encode_cons, encodeChar_closing, List.singleton_append, countBraces?, if_neg other,
          if_pos rfl, if_neg depth.succ_ne_zero]
        cases depth with
        | zero => simp [splitAtClose]
        | succ depth =>
          rw [if_neg (by omega), Nat.add_sub_cancel, ih, splitAtClose_closing, Option.map_map]
          congr 3
          funext found
          simp [brace, Nat.add_assoc]
      · have plain : ∀ b ∈ String.utf8EncodeChar c, b ≠ openingByte ∧ b ≠ closingByte := by
          intro b member
          constructor <;> rintro rfl
          · exact not_mem_encodeChar opens (by decide) member
          · exact not_mem_encodeChar closes (by decide) member
        rw [encode_cons, countBraces?_plain plain, ih, splitAtClose_plain depth opens closes,
          Option.map_map, String.length_utf8EncodeChar]
        congr 3
        funext found
        simp [Nat.add_assoc]

theorem matchBrace_opening {before gap : Text} (behind : Text) (braceless : '{' ∉ gap) :
    matchBrace (before ++ gap ++ '{' :: behind) (utf8Length before) =
      match splitAtClose 0 behind with
      | some (body, _) => .ok (utf8Length (before ++ gap) + 1 + utf8Length body)
      | none => .error (.at (utf8Length (before ++ gap)) ('{' :: behind)) := by
  have run := forall_ne_of_not_mem braceless
  have stop : ∀ c ∈ ('{' :: behind).head?, (c != '{') = false := by simp
  rw [List.append_assoc, matchBrace, dropBytes?_append]
  cases found : splitAtClose 0 behind <;>
    simp [dropWhile_append_stop run stop, takeWhile_append_stop run stop, found]

theorem matchBrace_missing {text : Text} {start : Nat}
    (missing : ∀ first, ¬ FirstOpening text start first) :
    matchBrace text start = .error ⟨start, preview text start⟩ := by
  rw [matchBrace, preview]
  cases dropped : dropBytes? start text with
  | none => rfl
  | some rest =>
    obtain ⟨before, rfl, length⟩ := append_of_dropBytes? dropped
    have parts := List.takeWhile_append_dropWhile (p := (· != '{')) (l := rest)
    cases behind : rest.dropWhile (· != '{') with
    | nil => simp only [behind]; rfl
    | cons c r =>
      have brace : c = '{' := by
        simpa [behind] using List.head?_dropWhile_not (· != '{') rest
      rw [behind, brace] at parts
      refine absurd ⟨before, rest.takeWhile (· != '{'), r, ?_, length, ?_, rfl⟩ (missing _)
      · rw [List.append_assoc, parts]
      · exact not_mem_cutAt '{' rest

theorem preview_append (before behind : Text) :
    preview (before ++ behind) (utf8Length before) = behind.take 48 := by
  rw [preview, dropBytes?_append]
  rfl

theorem matchBrace_of_firstOpening {text : Text} {start first : Nat}
    (opening : FirstOpening text start first) :
    (∃ last, matchBrace text start = .ok last ∧ IsLeast (evenIndices (encode text) first) last ∧
      (encode text)[last]? = some closingByte ∧
      ∀ i, first ≤ i → i < last → (slice (encode text) first i).count closingByte <
        (slice (encode text) first i).count openingByte) ∨
    (matchBrace text start = .error ⟨first, preview text first⟩ ∧
      evenIndices (encode text) first = ∅) := by
  obtain ⟨before, gap, behind, rfl, rfl, braceless, rfl⟩ := opening
  rw [matchBrace_opening behind braceless]
  cases closed : splitAtClose 0 behind with
  | some parts =>
    obtain ⟨body, after⟩ := parts
    have matching := bracesMatch_of_splitAtClose closed
    obtain rfl := append_of_splitAtClose closed
    exact .inl ⟨_, rfl, isLeast_of_bracesMatch _ after matching, getElem?_closing _ after,
      fun i ordered within => ahead_of_bracesMatch _ after matching ordered within⟩
  | none =>
    refine .inr ⟨?_, evenIndices_eq_empty (splitAtClose_eq_none.mp closed)⟩
    rw [preview_append]
    rfl

theorem countBraces?_firstOpening {text : Text} {start first : Nat}
    (opening : FirstOpening text start first) :
    countBraces? first 0 ((encode text).drop first) = some (matchBrace text start).toOption := by
  obtain ⟨before, gap, behind, rfl, rfl, braceless, rfl⟩ := opening
  rw [encode_append, List.drop_left' (length_encode _), encode_cons, encodeChar_opening,
    List.singleton_append, countBraces?, if_pos rfl, countBraces?_encode,
    matchBrace_opening behind braceless]
  cases splitAtClose 0 behind <;> rfl

/-- The search finds the first opening brace and the least index that evens the braces out, and its
counter never goes below zero. It fails where there is no such brace or no such index. -/
theorem matchBrace_exact (text : Text) (start : Nat) :
    (∀ last, matchBrace text start = .ok last ↔
      ∃ first, FirstOpening text start first ∧ IsLeast (evenIndices (encode text) first) last) ∧
    (∀ place, matchBrace text start = .error place ↔
      (∃ first, FirstOpening text start first ∧ evenIndices (encode text) first = ∅ ∧
        place = ⟨first, preview text first⟩) ∨
      ((∀ first, ¬ FirstOpening text start first) ∧ place = ⟨start, preview text start⟩)) ∧
    ∀ first, FirstOpening text start first →
      countBraces? first 0 ((encode text).drop first) = some (matchBrace text start).toOption ∧
      ∀ last, IsLeast (evenIndices (encode text) first) last →
        (encode text)[last]? = some closingByte ∧
        ∀ i, first ≤ i → i < last → (slice (encode text) first i).count closingByte <
          (slice (encode text) first i).count openingByte := by
  have missing : (∀ first, ¬ FirstOpening text start first) →
      matchBrace text start = .error ⟨start, preview text start⟩ := matchBrace_missing
  refine ⟨fun last => ⟨?_, ?_⟩, fun place => ⟨?_, ?_⟩, ?_⟩
  · intro found
    by_cases opened : ∃ first, FirstOpening text start first
    · obtain ⟨first, opening⟩ := opened
      rcases matchBrace_of_firstOpening opening with ⟨last', found', least, -⟩ | ⟨failed, -⟩
      · obtain rfl : last' = last := by simpa [found'] using found
        exact ⟨first, opening, least⟩
      · simp [failed] at found
    · simp [missing (not_exists.mp opened)] at found
  · rintro ⟨first, opening, least⟩
    rcases matchBrace_of_firstOpening opening with ⟨last', found', least', -⟩ | ⟨-, empty⟩
    · rw [found', least'.unique least]
    · exact absurd least.1 (by simp [empty])
  · intro failed
    by_cases opened : ∃ first, FirstOpening text start first
    · obtain ⟨first, opening⟩ := opened
      rcases matchBrace_of_firstOpening opening with ⟨last, found, -⟩ | ⟨failed', empty⟩
      · simp [found] at failed
      · rw [failed', Except.error.injEq] at failed
        exact .inl ⟨first, opening, empty, failed.symm⟩
    · rw [missing (not_exists.mp opened), Except.error.injEq] at failed
      exact .inr ⟨not_exists.mp opened, failed.symm⟩
  · rintro (⟨first, opening, empty, rfl⟩ | ⟨unopened, rfl⟩)
    · rcases matchBrace_of_firstOpening opening with ⟨last, -, least, -⟩ | ⟨failed, -⟩
      · exact absurd least.1 (by simp [empty])
      · exact failed
    · exact missing unopened
  · intro first opening
    refine ⟨countBraces?_firstOpening opening, ?_⟩
    intro last least
    rcases matchBrace_of_firstOpening opening with ⟨last', -, least', brace, ahead⟩ | ⟨-, empty⟩
    · obtain rfl := least'.unique least
      exact ⟨brace, ahead⟩
    · exact absurd least.1 (by simp [empty])

-- A stray closing brace behind a character of two bytes, before a block with a block in it. Inside
-- of that character nothing is searched.
theorem matchBrace_exact_nested :
    let text := "é\x7d\x7b\x7bé\x7d\x7d".toList
    let bytes := encode text
    FirstOpening text 2 3 ∧ IsLeast (evenIndices bytes 3) 8 ∧ matchBrace text 2 = .ok 8 ∧
      countBraces? 3 0 (bytes.drop 3) = some (some 8) ∧ bytes[8]? = some closingByte ∧
      (slice bytes 3 7).count closingByte < (slice bytes 3 7).count openingByte ∧
      (∀ first, ¬ FirstOpening text 1 first) ∧ matchBrace text 1 = .error ⟨1, []⟩ := by
  intro text bytes
  have opening : FirstOpening text 2 3 :=
    ⟨['é'], ['}'], "\x7bé\x7d\x7d".toList, by decide, by decide, by decide, by decide⟩
  have matching : BracesMatch "\x7bé\x7d".toList := by decide
  have least : IsLeast (evenIndices bytes 3) 8 :=
    isLeast_of_bracesMatch ['é', '}'] [] matching
  obtain ⟨found, -, opened⟩ := matchBrace_exact text 2
  obtain ⟨scanned, closes⟩ := opened 3 opening
  obtain ⟨brace, ahead⟩ := closes 8 least
  have matched : matchBrace text 2 = .ok 8 := (found 8).mpr ⟨3, opening, least⟩
  rw [matched] at scanned
  have missing : ∀ first, ¬ FirstOpening text 1 first := by
    rintro first ⟨before, gap, behind, whole, length, -⟩
    have inside : dropBytes? 1 text = none := by decide
    have dropped := dropBytes?_append before (gap ++ '{' :: behind)
    rw [length, ← List.append_assoc, ← whole, inside] at dropped
    contradiction
  obtain ⟨-, failed, -⟩ := matchBrace_exact text 1
  exact ⟨opening, least, matched, scanned, brace, ahead 7 (by decide) (by decide), missing,
    (failed ⟨1, []⟩).mpr (.inr ⟨missing, rfl⟩)⟩

end MemberOffsets
