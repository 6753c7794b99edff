import MemberOffsets.Json.Document
import MemberOffsets.Json.Value
import MemberOffsets.Proofs.Text.Numerals

set_option autoImplicit false

namespace MemberOffsets

open Text

/-- How a character comes back: a control character without a short escape as a unit. -/
def StringUnit.of (c : Char) : StringUnit :=
  if c.toNat < 0x20 ∧ c ∉ ['\n', '\r', '\t', '\x08', '\x0c'] then .unit c.toNat else .char c

namespace JsonDoc

theorem readString_escapeChar (c : Char) (rest : Text) :
    readString (Json.escapeChar c ++ rest) =
      (fun (units, rest) => (.of c :: units, rest)) <$> readString rest := by
  fun_cases Json.escapeChar c with
  | case1 same | case2 _ same | case3 _ _ same | case4 _ _ _ same | case5 _ _ _ _ same
  | case6 _ _ _ _ _ same | case7 _ _ _ _ _ _ same =>
    subst same
    simp [readString, simpleEscape?, StringUnit.of]
  | case8 _ _ newline return_ tab backspace feed control =>
    obtain ⟨a, b, digits⟩ := padded_hex control
    have value := readDigits_padded_hex c.toNat
    rw [digits] at value ⊢
    simp [readString, value, StringUnit.of, control, newline, return_, tab, backspace, feed]
  | case9 quote backslash newline return_ tab backspace feed shown =>
    simp [readString, StringUnit.of, shown, backslash]

theorem readString_writeString (s rest : Text) :
    readString (s.flatMap Json.escapeChar ++ '"' :: rest) = .ok (s.map .of, rest) := by
  induction s with
  | nil => simp [readString]
  | cons c s ih =>
    rw [List.flatMap_cons, List.append_assoc, readString_escapeChar, ih]
    rfl

def EndsNumber (rest : Text) : Prop :=
  ∀ c ∈ rest.head?, c.isDigit = false ∧ c ≠ '.' ∧ c ≠ 'e' ∧ c ≠ 'E'

theorem readWhole_decimal (n : Nat) {rest : Text} (ends : EndsNumber rest) :
    readWhole (decimal n ++ rest) = .ok (decimal n, rest) := by
  have digits : ∀ c ∈ decimal n, c.isDigit = true := fun c => isDigit_of_mem_decimal
  have stop : ∀ c ∈ rest.head?, c.isDigit = false := fun c first => (ends c first).1
  have taken := takeWhile_append_stop digits stop
  have dropped := dropWhile_append_stop digits stop
  have run : readDigitRun (decimal n ++ rest) = .ok (decimal n, rest) := by
    obtain ⟨c, ds, whole, first⟩ := decimal_cons n
    rw [whole, List.cons_append] at taken dropped ⊢
    rw [readDigitRun, if_pos first, taken, dropped]
  have canonical : ¬ ((decimal n).head? = some '0' ∧ 1 < (decimal n).length) := by
    rintro ⟨zero, long⟩
    rw [length_decimal_of_zero zero] at long
    omega
  simp only [readWhole, run, bind, Except.bind, if_neg canonical]

theorem readNumber_decimal (n : Nat) {rest : Text} (ends : EndsNumber rest) :
    readNumber (decimal n ++ rest) = .ok (⟨false, decimal n, [], none⟩, rest) := by
  have whole := readWhole_decimal n ends
  have fraction : readFraction rest = .ok ([], rest) := by
    cases rest with
    | nil => rfl
    | cons c r => simp [readFraction, (ends c rfl).2.1]
  have exponent : readExponent rest = .ok (none, rest) := by
    cases rest with
    | nil => rfl
    | cons c r => simp [readExponent, (ends c rfl).2.2]
  obtain ⟨c, ds, cons, digit⟩ := decimal_cons n
  have unsigned : c ≠ '-' := ne_of_isDigit digit rfl
  rw [cons, List.cons_append] at whole ⊢
  simp [readNumber, unsigned, whole, fraction, exponent, bind, Except.bind]

end JsonDoc

namespace Json

mutual

def document : Json → JsonDoc
  | null => .null
  | bool b => .bool b
  | number n => .number ⟨false, decimal n, [], none⟩
  | string s => .string (s.map .of)
  | array vs => .array (documents vs) none
  | object es => .object (entryDocuments es) none

def documents : List Json → List JsonDoc
  | [] => []
  | v :: vs => v.document :: documents vs

def entryDocuments : List (Text × Json) → List (List StringUnit × JsonDoc)
  | [] => []
  | (k, v) :: es => (k.map .of, v.document) :: entryDocuments es

end

theorem entryDocuments_eq_map (es : List (Text × Json)) :
    entryDocuments es = es.map fun (k, v) => (k.map .of, v.document) := by
  induction es with
  | nil => rfl
  | cons e es ih =>
    obtain ⟨k, v⟩ := e
    rw [entryDocuments, ih, List.map_cons]

theorem write_cons (depth : Nat) (v : Json) :
    ∃ c r, write depth v = c :: r ∧ JsonDoc.isSpace c = false ∧ c ≠ ']' := by
  cases v with
  | null => exact ⟨_, _, rfl, by decide, by decide⟩
  | bool b => cases b <;> exact ⟨_, _, rfl, by decide, by decide⟩
  | number n =>
    obtain ⟨c, ds, cons, digit⟩ := decimal_cons n
    have other {d : Char} : d.isDigit = false → c ≠ d := ne_of_isDigit digit
    exact ⟨c, ds, cons, by simp [JsonDoc.isSpace, other], other rfl⟩
  | string s => exact ⟨_, _, rfl, by decide, by decide⟩
  | array vs => cases vs <;> exact ⟨_, _, rfl, by decide, by decide⟩
  | object es => cases es <;> exact ⟨_, _, rfl, by decide, by decide⟩

end Json

namespace JsonDoc

variable {c : Char}

theorem skipSpace_dark (dark : isSpace c = false) (r : Text) : skipSpace (c :: r) = c :: r :=
  List.dropWhile_cons_of_neg (by simp [dark])

theorem skipSpace_newline (depth : Nat) (dark : isSpace c = false) (r : Text) :
    skipSpace (Json.newline depth ++ c :: r) = c :: r := by
  have blank : ∀ d ∈ Json.newline depth, isSpace d = true := by
    intro d member
    rcases List.mem_cons.mp member with rfl | space
    · rfl
    · rw [List.eq_of_mem_replicate space]
      rfl
  rw [skipSpace, List.dropWhile_append_of_pos blank]
  exact skipSpace_dark dark r

theorem readValue_space (fuel : Nat) (blank : isSpace c = true) (s : Text) :
    readValue fuel (c :: s) = readValue fuel s := by
  cases fuel with
  | zero => rfl
  | succ fuel => simp only [readValue, skipSpace, List.dropWhile_cons_of_pos blank]

variable (fuel depth : Nat) (rest : Text)

theorem readItems_first (v : Json) :
    readItems (fuel + 1) true (Json.newline depth ++ (Json.write depth v ++ rest)) =
      readItem fuel (Json.write depth v ++ rest) := by
  obtain ⟨c, r, cons, dark, other⟩ := Json.write_cons depth v
  rw [cons, List.cons_append]
  simp [readItems, skipSpace_newline depth dark]

theorem readItems_next (v : Json) :
    readItems (fuel + 1) false (',' :: (Json.newline depth ++ (Json.write depth v ++ rest))) =
      readItem fuel (Json.write depth v ++ rest) := by
  obtain ⟨c, r, cons, dark, other⟩ := Json.write_cons depth v
  have comma : isSpace ',' = false := rfl
  rw [cons, List.cons_append]
  simp only [readItems, skipSpace_dark comma, skipSpace_newline depth dark, Char.reduceEq, imp_self,
    Bool.false_eq_true, if_false, if_true]
  split <;> simp_all

theorem readItems_close :
    readItems (fuel + 1) false (Json.newline depth ++ ']' :: rest) = ([], none, some rest) := by
  simp only [readItems, skipSpace_newline depth (show isSpace ']' = false from rfl)]

theorem readEntries_first (key : Text) :
    readEntries (fuel + 1) true (Json.newline depth ++ (Json.writeString key ++ rest)) =
      readEntry fuel (Json.writeString key ++ rest) := by
  simp [readEntries, Json.writeString, skipSpace_newline depth (show isSpace '"' = false from rfl)]

theorem readEntries_next (key : Text) :
    readEntries (fuel + 1) false (',' :: (Json.newline depth ++ (Json.writeString key ++ rest))) =
      readEntry fuel (Json.writeString key ++ rest) := by
  simp [readEntries, Json.writeString, skipSpace_dark (show isSpace ',' = false from rfl),
    skipSpace_newline depth (show isSpace '"' = false from rfl)]

theorem readEntries_close :
    readEntries (fuel + 1) false (Json.newline depth ++ '}' :: rest) = ([], none, some rest) := by
  simp only [readEntries, skipSpace_newline depth (show isSpace '}' = false from rfl)]

variable {fuel rest} {s : Text} {doc : JsonDoc}

theorem readItem_value (value : readValue fuel s = (doc, some rest)) :
    readItem (fuel + 1) s =
      (doc :: (readItems fuel false rest).1, (readItems fuel false rest).2) := by
  rw [readItem, value]

theorem readEntry_value (key : Text) (value : readValue fuel s = (doc, some rest)) :
    readEntry (fuel + 1) (Json.writeString key ++ (": ".toList ++ s)) =
      ((key.map .of, doc) :: (readEntries fuel false rest).1,
        (readEntries fuel false rest).2) := by
  have spaced : readValue fuel (' ' :: s) = (doc, some rest) :=
    (readValue_space fuel rfl s).trans value
  have colon : Json.writeString key ++ (": ".toList ++ s) =
      '"' :: (key.flatMap Json.escapeChar ++ '"' :: ':' :: ' ' :: s) := by
    simp [Json.writeString]
  simp only [colon, readEntry, readString_writeString,
    skipSpace_dark (show isSpace ':' = false from rfl), spaced]

theorem readValue_array (s : Text) :
    readValue (fuel + 1) ('[' :: s) =
      (.array (readItems fuel true s).1 (readItems fuel true s).2.1,
        (readItems fuel true s).2.2) := by
  simp only [readValue, skipSpace_dark (show isSpace '[' = false from rfl)]

theorem readValue_object (s : Text) :
    readValue (fuel + 1) ('{' :: s) =
      (.object (readEntries fuel true s).1 (readEntries fuel true s).2.1,
        (readEntries fuel true s).2.2) := by
  simp only [readValue, skipSpace_dark (show isSpace '{' = false from rfl)]

theorem readValue_string (s : Text) :
    readValue (fuel + 1) (Json.writeString s ++ rest) = (.string (s.map .of), some rest) := by
  have quote : Json.writeString s ++ rest = '"' :: (s.flatMap Json.escapeChar ++ '"' :: rest) := by
    simp [Json.writeString]
  simp only [quote, readValue, skipSpace_dark (show isSpace '"' = false from rfl),
    readString_writeString]

theorem readValue_number (n : Nat) (ends : EndsNumber rest) :
    readValue (fuel + 1) (decimal n ++ rest) =
      (.number ⟨false, decimal n, [], none⟩, some rest) := by
  have number := readNumber_decimal n ends
  obtain ⟨c, ds, cons, digit⟩ := decimal_cons n
  have other {d : Char} : d.isDigit = false → c ≠ d := ne_of_isDigit digit
  have dark : isSpace c = false := by simp [isSpace, other]
  rw [cons, List.cons_append] at number ⊢
  simp [readValue, skipSpace_dark dark, number, other, digit]

theorem endsNumber_cons (stop : c = ',' ∨ c = '\n') (s : Text) : EndsNumber (c :: s) := by
  rintro d ⟨⟩
  rcases stop with rfl | rfl <;> decide

theorem endsNumber_writeItems (inner depth : Nat) (vs : List Json) (s : Text) :
    EndsNumber (Json.writeItems inner vs ++ (Json.newline depth ++ s)) := by
  cases vs with
  | nil => exact endsNumber_cons (.inr rfl) _
  | cons => exact endsNumber_cons (.inl rfl) _

theorem endsNumber_writeEntries (inner depth : Nat) (es : List (Text × Json)) (s : Text) :
    EndsNumber (Json.writeEntries inner es ++ (Json.newline depth ++ s)) := by
  cases es with
  | nil => exact endsNumber_cons (.inr rfl) _
  | cons => exact endsNumber_cons (.inl rfl) _

mutual

-- A value takes three steps for each of its characters at most: the characters around an item of a
-- list, or around an entry, make up for the steps that lead to it.
theorem readValue_write (depth : Nat) :
    ∀ (v : Json) (fuel : Nat) (rest : Text), 3 * (Json.write depth v).length ≤ fuel →
      EndsNumber rest → readValue fuel (Json.write depth v ++ rest) = (v.document, some rest)
  | v, 0, rest, enough, _ => by
    obtain ⟨c, r, cons, -⟩ := Json.write_cons depth v
    simp [cons] at enough
  | .null, fuel + 1, rest, _, _ => by
    simp [Json.write, readValue, skipSpace_dark, isSpace, readWord, dropStart?, Json.document]
  | .bool b, fuel + 1, rest, _, _ => by
    cases b <;>
      simp [Json.write, readValue, skipSpace_dark, isSpace, readWord, dropStart?, Json.document]
  | .number n, fuel + 1, rest, _, ends => readValue_number n ends
  | .string s, fuel + 1, rest, _, _ => readValue_string s
  | .array [], fuel + 1, rest, enough, _ => by
    obtain ⟨fuel, rfl⟩ : ∃ n, fuel = n + 1 := ⟨fuel - 1, by simp [Json.write] at enough; omega⟩
    have close : readItems (fuel + 1) true (']' :: rest) = ([], none, some rest) := by
      simp only [readItems, skipSpace_dark (show isSpace ']' = false from rfl)]
    simp [Json.write, readValue_array, close, Json.document, Json.documents]
  | .array (v :: vs), fuel + 1, rest, enough, ends => by
    simp only [Json.write, Json.newline, List.length_append, List.length_cons] at enough
    obtain ⟨fuel, rfl⟩ : ∃ n, fuel = n + 2 := ⟨fuel - 2, by omega⟩
    have first := readValue_write (depth + 1) v fuel _ (by omega)
      (endsNumber_writeItems (depth + 1) depth vs (']' :: rest))
    have later := readItems_write (depth + 1) depth vs fuel rest (by omega)
    simp only [Json.write, List.cons_append, List.append_assoc, List.nil_append, readValue_array,
      readItems_first, readItem_value first, later, Json.document, Json.documents]
  | .object [], fuel + 1, rest, enough, _ => by
    obtain ⟨fuel, rfl⟩ : ∃ n, fuel = n + 1 := ⟨fuel - 1, by simp [Json.write] at enough; omega⟩
    have close : readEntries (fuel + 1) true ('}' :: rest) = ([], none, some rest) := by
      simp only [readEntries, skipSpace_dark (show isSpace '}' = false from rfl)]
    simp [Json.write, readValue_object, close, Json.document, Json.entryDocuments]
  | .object ((k, v) :: es), fuel + 1, rest, enough, ends => by
    simp only [Json.write, Json.newline, List.length_append, List.length_cons] at enough
    obtain ⟨fuel, rfl⟩ : ∃ n, fuel = n + 2 := ⟨fuel - 2, by omega⟩
    have first := readValue_write (depth + 1) v fuel _ (by omega)
      (endsNumber_writeEntries (depth + 1) depth es ('}' :: rest))
    have later := readEntries_write (depth + 1) depth es fuel rest (by omega)
    simp only [Json.write, List.cons_append, List.append_assoc, List.nil_append, readValue_object,
      readEntries_first, readEntry_value k first, later, Json.document, Json.entryDocuments]

theorem readItems_write (inner depth : Nat) :
    ∀ (vs : List Json) (fuel : Nat) (rest : Text),
      3 * (Json.writeItems inner vs).length + 1 ≤ fuel →
        readItems fuel false (Json.writeItems inner vs ++ (Json.newline depth ++ ']' :: rest)) =
          (Json.documents vs, none, some rest)
  | _, 0, _, enough => by omega
  | [], fuel + 1, rest, _ => readItems_close fuel depth rest
  | v :: vs, fuel + 1, rest, enough => by
    simp only [Json.writeItems, Json.newline, List.length_append, List.length_cons] at enough
    obtain ⟨fuel, rfl⟩ : ∃ n, fuel = n + 1 := ⟨fuel - 1, by omega⟩
    have first := readValue_write inner v fuel _ (by omega)
      (endsNumber_writeItems inner depth vs (']' :: rest))
    have later := readItems_write inner depth vs fuel rest (by omega)
    simp only [Json.writeItems, List.cons_append, List.append_assoc, readItems_next,
      readItem_value first, later, Json.documents]

theorem readEntries_write (inner depth : Nat) :
    ∀ (es : List (Text × Json)) (fuel : Nat) (rest : Text),
      3 * (Json.writeEntries inner es).length + 1 ≤ fuel →
        readEntries fuel false
            (Json.writeEntries inner es ++ (Json.newline depth ++ '}' :: rest)) =
          (Json.entryDocuments es, none, some rest)
  | _, 0, _, enough => by omega
  | [], fuel + 1, rest, _ => readEntries_close fuel depth rest
  | (k, v) :: es, fuel + 1, rest, enough => by
    simp only [Json.writeEntries, Json.newline, List.length_append, List.length_cons] at enough
    obtain ⟨fuel, rfl⟩ : ∃ n, fuel = n + 1 := ⟨fuel - 1, by omega⟩
    have first := readValue_write inner v fuel _ (by omega)
      (endsNumber_writeEntries inner depth es ('}' :: rest))
    have later := readEntries_write inner depth es fuel rest (by omega)
    simp only [Json.writeEntries, List.cons_append, List.append_assoc, readEntries_next,
      readEntry_value k first, later, Json.entryDocuments]

end

theorem read_pretty (v : Json) : read v.pretty = (v.document, none) := by
  have value := readValue_write 0 v (3 * (Json.write 0 v).length + 1) [] (by omega) (by rintro c ⟨⟩)
  rw [List.append_nil] at value
  rw [read, Json.pretty, value]
  rfl

end JsonDoc

end MemberOffsets
