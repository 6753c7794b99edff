import MemberOffsets.Json.Decoding
import MemberOffsets.Proofs.Json.Reading

set_option autoImplicit false

namespace MemberOffsets

open Text

theorem StringUnit.text_of (s : Text) : StringUnit.text (s.map .of) = .ok s := by
  induction s with
  | nil => rfl
  | cons c s ih =>
    rw [List.map_cons, StringUnit.of]
    split
    · rename_i control
      have low : c.toNat < 0xD800 ∨ 0xDFFF < c.toNat := by omega
      -- Units next to each other might make up a pair, but a control character is no half of one.
      rw [StringUnit.text.eq_def]
      simp only [if_pos low, ih, Char.ofNat_toNat]
      rfl
    · rw [StringUnit.text, ih]
      rfl

namespace JsonNumeral

theorem le_ofDigitChars (digits : Text) (acc : Nat) : acc ≤ Nat.ofDigitChars 10 digits acc := by
  induction digits generalizing acc with
  | nil => simp
  | cons c digits ih =>
    have grown := ih (10 * acc + (c.toNat - '0'.toNat))
    rw [Nat.ofDigitChars_cons]
    omega

theorem leadingWord_eq {digits : Text} {acc : Nat}
    (fits : Nat.ofDigitChars 10 digits acc ≤ wordMax) :
    leadingWord acc digits = (Nat.ofDigitChars 10 digits acc, []) := by
  induction digits generalizing acc with
  | nil => rw [leadingWord, Nat.ofDigitChars_nil]
  | cons c digits ih =>
    rw [Nat.ofDigitChars_cons, Nat.mul_comm] at fits ⊢
    have small := (le_ofDigitChars digits _).trans fits
    rw [leadingWord, if_pos small, ih fits]

theorem number_decimal {n : Nat} (fits : n ≤ wordMax) :
    number ⟨false, decimal n, [], none⟩ = .ok (.integer n) := by
  have value : Nat.ofDigitChars 10 (decimal n) 0 = n := Nat.ofDigitChars_toDigits (by omega) le_rfl
  have word : leadingWord 0 (decimal n) = (n, []) := by
    rw [leadingWord_eq (by rwa [value]), value]
  simp [number, word]

end JsonNumeral

namespace JsonDoc

theorem asString_document (s : Text) : asString (Json.string s).document = .ok s := by
  simp only [Json.document, asString, asText, StringUnit.text_of]
  rfl

theorem asWord_document {n : Nat} (fits : n ≤ wordMax) :
    asWord (Json.number n).document = .ok n := by
  simp [Json.document, asWord, asNat, JsonNumeral.number_decimal fits, fits]

theorem keyText_of (key : Text) : keyText (key.map .of) = .ok key := by
  rw [keyText, StringUnit.text_of]
  rfl

variable {α : Type}

theorem foldEntries_document (step : α → Text → JsonDoc → Except JsonError α) (a : α)
    (entries : List (Text × Json)) :
    foldEntries step a (Json.entryDocuments entries) =
      entries.foldlM (fun a (key, v) => step a key v.document) a := by
  rw [foldEntries, Json.entryDocuments_eq_map, List.foldlM_map]
  congr 1
  funext a ⟨key, v⟩
  simp only [keyText_of]
  rfl

theorem RecordShape.decode_document {δ : Type} (shape : RecordShape δ α)
    {entries : List (Text × Json)} (draft : δ) {a : α}
    (drafted : entries.foldlM (fun d (key, v) => shape.step d key v.document) shape.start =
      .ok draft) (finished : shape.finish draft = .ok a) :
    shape.decode (Json.object entries).document = .ok a := by
  simp only [Json.document, decode, foldEntries_document, drafted]
  simp [bind, Except.bind, ended, finished]

theorem foldlM_cons_ok {β ε : Type} {step : β → α → Except ε β} {b b' : β} {a : α} (as : List α)
    (first : step b a = .ok b') : (a :: as).foldlM step b = as.foldlM step b' := by
  rw [List.foldlM_cons, first]
  rfl

theorem mapM_document {decode : JsonDoc → Except JsonError α} {toJson : α → Json} {as : List α}
    (reads : ∀ a ∈ as, decode (toJson a).document = .ok a) :
    (Json.documents (as.map toJson)).mapM decode = .ok as := by
  induction as with
  | nil => rfl
  | cons a as ih =>
    obtain ⟨first, later⟩ := List.forall_mem_cons.mp reads
    rw [List.map_cons, Json.documents, List.mapM_cons, first, ih later]
    rfl

theorem asList_document {decode : JsonDoc → Except JsonError α} {toJson : α → Json} {as : List α}
    (reads : ∀ a ∈ as, decode (toJson a).document = .ok a) :
    asList decode (Json.array (as.map toJson)).document = .ok as := by
  rw [Json.document, asList, mapM_document reads]
  rfl

theorem decodeText_pretty (decode : JsonDoc → Except JsonError α) (v : Json) :
    decodeText decode v.pretty = decode v.document := by
  simp only [decodeText, read_pretty]
  cases decode v.document <;> rfl

end JsonDoc

end MemberOffsets
