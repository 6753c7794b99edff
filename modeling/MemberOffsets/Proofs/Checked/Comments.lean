import MemberOffsets.Proofs.Checked.Slices
import MemberOffsets.Proofs.Declaration.Matching
import MemberOffsets.Proofs.Declaration.Normalization

set_option autoImplicit false

namespace MemberOffsets.Checked

open Text Utf8

def slashByte : UInt8 := UInt8.ofNat '/'.toNat

def starByte : UInt8 := UInt8.ofNat '*'.toNat

structure Stripping where
  cursor : Nat
  copied : Nat
  out : Text

def stripPass (text : Text) (s : Stripping) : Checked (Stripping ⊕ Text) := do
  let size := utf8Length text
  if s.cursor + 1 < size then
    if (← byteAt text s.cursor) ≠ slashByte then return .inl { s with cursor := s.cursor + 1 }
    else
      let mark ← byteAt text (s.cursor + 1)
      if mark = slashByte then
        let code ← slice text s.copied s.cursor
        let rest ← slice text s.cursor size
        let next := (find? ['\n'] rest).elim size fun newline => s.cursor + newline
        return .inl ⟨next, next, s.out ++ code⟩
      else if mark = starByte then
        let code ← slice text s.copied s.cursor
        let rest ← slice text (s.cursor + 2) size
        let next := (find? ['*', '/'] rest).elim size fun stop => s.cursor + 2 + stop + 2
        return .inl ⟨next, next, s.out ++ code ++ [' ']⟩
      else return .inl { s with cursor := s.cursor + 1 }
  else if s.copied < size then return .inr (s.out ++ (← slice text s.copied size))
  else return .inr s.out

def stripComments (text : Text) : Checked Text :=
  loop (fun s => utf8Length text - s.cursor) (stripPass text) ⟨0, 0, []⟩

/-- Where the stripper stands: `code` has been read behind what is written out, and `inside` are the
bytes that are left of its last character. -/
structure Stands (text : Text) (s : Stripping) (before code : Text) (inside : Bytes)
    (after : Text) : Prop where
  whole : text = before ++ code ++ after
  copied : s.copied = utf8Length before
  cursor : s.cursor + inside.length = utf8Length (before ++ code)
  behind : (encode text).drop s.cursor = inside ++ encode after
  slashless : slashByte ∉ inside
  passed : stripFrom .code (code ++ after) = code ++ stripFrom .code after
  result : MemberOffsets.stripComments text = s.out ++ stripFrom .code (code ++ after)

theorem exists_firstByte (c : Char) :
    ∃ b more, String.utf8EncodeChar c = b :: more ∧ ∀ mark : Char, mark.toNat < 0x80 →
      (b = UInt8.ofNat mark.toNat ↔ c = mark) ∧ UInt8.ofNat mark.toNat ∉ more := by
  have size := String.length_utf8EncodeChar c
  have positive := c.utf8Size_pos
  cases bytes : String.utf8EncodeChar c with
  | nil =>
    rw [bytes, List.length_nil] at size
    omega
  | cons b more =>
    refine ⟨b, more, rfl, fun mark ascii => ?_⟩
    by_cases same : c = mark
    · subst same
      rw [encodeChar_of_ascii ascii] at bytes
      obtain ⟨rfl, rfl⟩ := List.cons.inj bytes
      simp
    · have absent := not_mem_encodeChar same ascii
      rw [bytes, List.mem_cons, not_or] at absent
      exact ⟨⟨fun first => absurd first.symm absent.1, fun c => absurd c same⟩, absent.2⟩

namespace Stands

variable {text : Text} {s : Stripping} {before code after : Text} {inside : Bytes}

theorem start {out : Text} (whole : text = before ++ after)
    (result : MemberOffsets.stripComments text = out ++ stripFrom .code after) :
    Stands text ⟨utf8Length before, utf8Length before, out⟩ before [] [] after where
  whole := by rw [List.append_nil, whole]
  copied := rfl
  cursor := by simp
  behind := by rw [whole, encode_append, List.drop_left' (length_encode before), List.nil_append]
  slashless := List.not_mem_nil
  passed := rfl
  result := result

theorem next_inside {b : UInt8} (stands : Stands text s before code (b :: inside) after) :
    Stands text { s with cursor := s.cursor + 1 } before code inside after :=
  { stands with
    cursor := by
      change s.cursor + 1 + inside.length = _
      rw [← stands.cursor, List.length_cons]
      omega
    behind := by rw [← List.drop_drop, stands.behind]; rfl
    slashless := List.not_mem_of_not_mem_cons stands.slashless }

theorem next_plain {c : Char} {b : UInt8} {more : Bytes}
    (stands : Stands text s before code [] (c :: after))
    (bytes : String.utf8EncodeChar c = b :: more) (slashless : slashByte ∉ more)
    (plain : c = '/' → ∀ d ∈ after.head?, d ≠ '/' ∧ d ≠ '*') :
    Stands text { s with cursor := s.cursor + 1 } before (code ++ [c]) more after := by
  have passed : stripFrom .code (code ++ [c] ++ after) =
      code ++ [c] ++ stripFrom .code after := by
    rw [List.append_assoc, List.singleton_append, stands.passed, stripFrom_cons plain,
      List.append_assoc, List.singleton_append]
  have size := String.length_utf8EncodeChar c
  rw [bytes, List.length_cons] at size
  have position := stands.cursor
  exact
    { whole := by rw [stands.whole]; simp
      copied := stands.copied
      cursor := by
        simp only [List.length_nil, utf8Length_append, utf8Length_cons, utf8Length_nil]
          at position ⊢
        omega
      behind := by
        rw [← List.drop_drop, stands.behind, List.nil_append, encode_cons, bytes]
        rfl
      slashless := slashless
      passed := passed
      result := by rw [stands.result, List.append_assoc, List.singleton_append] }

theorem finish (stands : Stands text s before code inside after)
    (short : ¬ s.cursor + 1 < utf8Length text) :
    stripPass text s = .ok (.inr (MemberOffsets.stripComments text)) := by
  have position := stands.cursor
  have size : utf8Length text = utf8Length before + utf8Length code + utf8Length after := by
    rw [stands.whole, utf8Length_append, utf8Length_append]
  have single : stripFrom .code after = after := by
    cases after with
    | nil => rfl
    | cons c r =>
      cases r with
      | nil => exact stripFrom_cons (by simp)
      | cons d r =>
        have first := c.utf8Size_pos
        have second := d.utf8Size_pos
        simp only [utf8Length_cons, utf8Length_append] at size position
        omega
  have result : MemberOffsets.stripComments text = s.out ++ (code ++ after) := by
    rw [stands.result, stands.passed, single]
  by_cases rest : s.copied < utf8Length text
  · have cut : slice text s.copied (utf8Length text) = .ok (code ++ after) :=
      slice_eq_ok.mpr ⟨before, [], by simp [stands.whole], stands.copied, by simp [size]; omega⟩
    rw [result, stripPass, if_neg short, if_pos rest, cut]
    rfl
  · have empty : code ++ after = [] := by
      rw [stands.copied] at rest
      exact eq_nil_of_utf8Length (by rw [utf8Length_append]; omega)
    rw [result, empty, List.append_nil, stripPass, if_neg short, if_neg rest]
    rfl

theorem at_slash {d : Char} (stands : Stands text s before code [] ('/' :: d :: after)) :
    s.cursor + 1 < utf8Length text ∧ byteAt text s.cursor = .ok slashByte ∧
      slice text s.copied s.cursor = .ok code ∧
      ∃ b, byteAt text (s.cursor + 1) = .ok b ∧ (b = slashByte ↔ d = '/') ∧
        (b = starByte ↔ d = '*') := by
  have position : s.cursor = utf8Length (before ++ code) := stands.cursor
  have behind : (encode text).drop (s.cursor + 1) = encode (d :: after) := by
    rw [← List.drop_drop, stands.behind]
    rfl
  obtain ⟨b, more, bytes, marks⟩ := exists_firstByte d
  rw [encode_cons, bytes, List.cons_append] at behind
  refine ⟨?_, byteAt_eq stands.behind, ?_, b, byteAt_eq behind, (marks '/' (by decide)).1,
    (marks '*' (by decide)).1⟩
  · have slash : '/'.utf8Size = 1 := rfl
    have positive := d.utf8Size_pos
    rw [stands.whole, utf8Length_append, ← position, utf8Length_cons, utf8Length_cons]
    omega
  · exact slice_eq_ok.mpr ⟨before, _, stands.whole, stands.copied, by
      rw [position, utf8Length_append]⟩

end Stands

def Standing (text : Text) (s : Stripping) : Prop :=
  ∃ before code inside after, Stands text s before code inside after

abbrev PassAdvances (text : Text) (s : Stripping) : Prop :=
  Advances (fun s => utf8Length text - s.cursor) (Standing text)
    (MemberOffsets.stripComments text) s (stripPass text s)

section

variable {text : Text} {s : Stripping} {before code after : Text}

theorem advances_behind {cursor : Nat} {front back out : Text}
    (made : stripPass text s = .ok (.inl ⟨cursor, cursor, out⟩)) (less : s.cursor < cursor)
    (place : cursor = utf8Length front) (whole : text = front ++ back)
    (result : MemberOffsets.stripComments text = out ++ stripFrom .code back) :
    PassAdvances text s := by
  subst place
  refine .of_inl made ?_ ⟨front, [], [], back, .start whole result⟩
  have size : utf8Length text = utf8Length front + utf8Length back := by
    rw [whole, utf8Length_append]
  change utf8Length text - utf8Length front < utf8Length text - s.cursor
  omega

theorem advances_line (stands : Stands text s before code [] ('/' :: '/' :: after)) :
    PassAdvances text s := by
  obtain ⟨short, first, written, b, second, isSlash, -⟩ := stands.at_slash
  obtain rfl := isSlash.mpr rfl
  have position : s.cursor = utf8Length (before ++ code) := stands.cursor
  have rest := slice_end stands.whole position
  have result := stands.result
  rw [stands.passed, stripFrom, ← List.append_assoc] at result
  have made : stripPass text s = .ok (.inl
      (let next := (find? ['\n'] ('/' :: '/' :: after)).elim (utf8Length text) (s.cursor + ·)
      ⟨next, next, s.out ++ code⟩)) := by
    simp only [stripPass, if_pos short, first, second, written, rest, ok_bind, pure_eq_ok,
      ne_eq, not_true_eq_false, if_false, if_true]
  have mark : '\n' ∉ ['/', '/'] := by decide
  rw [show '/' :: '/' :: after = ['/', '/'] ++ after from rfl, find?_append mark] at made
  rcases find?_cases '\n' after with ⟨single, missing⟩ | ⟨line, back, rfl, single, found⟩
  · rw [missing, Option.map_none, Option.elim_none] at made
    refine advances_behind made (by omega) rfl (List.append_nil text).symm ?_
    rw [result, stripFrom_lastLine single]
    rfl
  · rw [found, Option.map_some, Option.elim_some] at made
    let front := before ++ code ++ (['/', '/'] ++ line)
    have next : s.cursor + (utf8Length ['/', '/'] + utf8Length line) = utf8Length front := by
      rw [position, ← utf8Length_append, ← utf8Length_append]
    have two : utf8Length ['/', '/'] = 2 := rfl
    have whole : text = front ++ '\n' :: back := by simp [stands.whole, front]
    refine advances_behind made ?_ next whole ?_
    · omega
    · rw [result, stripFrom_lineComment single, stripFrom_cons (absurd · (by decide))]

theorem advances_block (stands : Stands text s before code [] ('/' :: '*' :: after)) :
    PassAdvances text s := by
  obtain ⟨short, first, written, b, second, -, isStar⟩ := stands.at_slash
  obtain rfl := isStar.mpr rfl
  have other : starByte ≠ slashByte := by decide
  have position : s.cursor = utf8Length (before ++ code) := stands.cursor
  have opened : s.cursor + 2 = utf8Length (before ++ code ++ ['/', '*']) := by
    rw [position, utf8Length_append (before ++ code)]
    rfl
  have rest : slice text (s.cursor + 2) (utf8Length text) = .ok after :=
    slice_end (by simp [stands.whole]) opened
  have result := stands.result
  rw [stands.passed, stripFrom, ← List.append_assoc] at result
  have made : stripPass text s = .ok (.inl
      (let next := (find? ['*', '/'] after).elim (utf8Length text) (s.cursor + 2 + · + 2)
      ⟨next, next, s.out ++ code ++ [' ']⟩)) := by
    simp only [stripPass, if_pos short, first, second, written, rest, ok_bind, pure_eq_ok,
      ne_eq, not_true_eq_false, if_false, if_neg other, if_true]
  cases found : find? ['*', '/'] after with
  | none =>
    rw [found, Option.elim_none] at made
    refine advances_behind made (by omega) rfl (List.append_nil text).symm ?_
    rw [result, stripFrom_unclosed (of_find?_none found)]
    simp [stripFrom]
  | some stop =>
    rw [found, Option.elim_some] at made
    obtain ⟨comment, back, rfl, unclosed, rfl⟩ := of_find? (by simp) found
    let front := before ++ code ++ ['/', '*'] ++ comment ++ ['*', '/']
    have next : s.cursor + 2 + utf8Length comment + 2 = utf8Length front := by
      rw [opened, ← utf8Length_append, utf8Length_append _ ['*', '/']]
      rfl
    have whole : text = front ++ back := by simp [stands.whole, front]
    refine advances_behind made ?_ next whole ?_
    · omega
    · rw [result, List.append_assoc comment, List.cons_append, List.cons_append, List.nil_append,
        stripFrom_closed unclosed]
      simp

theorem advances_byte (short : s.cursor + 1 < utf8Length text)
    (made : stripPass text s = .ok (.inl { s with cursor := s.cursor + 1 }))
    (next : Standing text { s with cursor := s.cursor + 1 }) : PassAdvances text s := by
  refine .of_inl made ?_ next
  change utf8Length text - (s.cursor + 1) < utf8Length text - s.cursor
  omega

theorem advances_inside {b : UInt8} {inside : Bytes}
    (stands : Stands text s before code (b :: inside) after)
    (short : s.cursor + 1 < utf8Length text) : PassAdvances text s := by
  have first : byteAt text s.cursor = .ok b := byteAt_eq stands.behind
  have other : b ≠ slashByte := fun same => stands.slashless (by simp [same])
  refine advances_byte short ?_ ⟨before, code, inside, after, stands.next_inside⟩
  simp only [stripPass, if_pos short, first, ok_bind, pure_eq_ok, if_pos other]

theorem advances_character {c : Char} (stands : Stands text s before code [] (c :: after))
    (short : s.cursor + 1 < utf8Length text) (slash : c ≠ '/') : PassAdvances text s := by
  obtain ⟨b, more, bytes, marks⟩ := exists_firstByte c
  obtain ⟨isSlash, slashless⟩ := marks '/' (by decide)
  have other : b ≠ slashByte := mt isSlash.mp slash
  have first : byteAt text s.cursor = .ok b :=
    byteAt_eq (by rw [stands.behind, List.nil_append, encode_cons, bytes, List.cons_append])
  have next := stands.next_plain bytes slashless fun same => absurd same slash
  refine advances_byte short ?_ ⟨before, _, _, _, next⟩
  simp only [stripPass, if_pos short, first, ok_bind, pure_eq_ok, if_pos other]

theorem advances_slash {d : Char} (stands : Stands text s before code [] ('/' :: d :: after))
    (line : d ≠ '/') (block : d ≠ '*') : PassAdvances text s := by
  obtain ⟨short, first, -, b, second, isSlash, isStar⟩ := stands.at_slash
  have bytes : String.utf8EncodeChar '/' = [slashByte] := rfl
  have plain : ∀ e ∈ (d :: after).head?, e ≠ '/' ∧ e ≠ '*' := by simp [line, block]
  have next := stands.next_plain bytes List.not_mem_nil fun _ => plain
  refine advances_byte short ?_ ⟨before, _, _, _, next⟩
  simp only [stripPass, if_pos short, first, second, ok_bind, pure_eq_ok, ne_eq,
    not_true_eq_false, if_false, if_neg (mt isSlash.mp line), if_neg (mt isStar.mp block)]

theorem stripPass_advances (standing : Standing text s) : PassAdvances text s := by
  obtain ⟨before, code, inside, after, stands⟩ := standing
  by_cases short : s.cursor + 1 < utf8Length text
  · cases inside with
    | cons b inside => exact advances_inside stands short
    | nil =>
      have position : s.cursor = utf8Length (before ++ code) := stands.cursor
      have unread : 1 < utf8Length after := by
        rw [stands.whole, utf8Length_append, ← position] at short
        omega
      cases after with
      | nil => contradiction
      | cons c r =>
        by_cases slash : c = '/'
        · subst slash
          cases r with
          | nil => contradiction
          | cons d r =>
            by_cases line : d = '/'
            · exact advances_line (line ▸ stands)
            · by_cases block : d = '*'
              · exact advances_block (block ▸ stands)
              · exact advances_slash stands line block
        · exact advances_character stands short slash
  · exact .of_inr (stands.finish short)

end

theorem stripComments_eq (text : Text) :
    stripComments text = .ok (MemberOffsets.stripComments text) :=
  loop_eq_ok (fun _ => stripPass_advances)
    ⟨[], [], [], text, .start (List.nil_append text).symm (List.nil_append _).symm⟩

end MemberOffsets.Checked
