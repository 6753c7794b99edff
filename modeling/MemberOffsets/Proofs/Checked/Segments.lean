import MemberOffsets.Proofs.Checked.Slices
import MemberOffsets.Proofs.Declaration.Excerpts
import MemberOffsets.Proofs.Declaration.Matching

set_option autoImplicit false

namespace MemberOffsets.Checked

open Text Utf8

def closingFrom (index depth : Nat) : Bytes → Checked (Option Nat)
  | [] => .ok none
  | b :: r => do
      if b = openingByte then closingFrom (index + 1) (depth + 1) r
      else if b = closingByte then
        let depth ← sub depth 1
        if depth = 0 then return some index else closingFrom (index + 1) depth r
      else closingFrom (index + 1) depth r

def matchBrace (text : Text) (start : Nat) : Checked (Except Unbalanced Nat) := do
  match (dropBytes? start text).bind (find? ['{']) with
  | none => return .error ⟨start, preview text start⟩
  | some gap =>
      let first := start + gap
      match ← closingFrom first 0 (← bytesFrom text first) with
      | some last => return .ok last
      | none => return .error ⟨first, preview text first⟩

def splitField (statement : Text) : Checked (Option FieldDecl) := do
  let statement := trim statement
  match Declarator.find? false statement with
  | none => return none
  | some (before, d) =>
      let type := trim (← slice statement 0 (utf8Length before))
      return if type.isEmpty then none else some ⟨collapse type, d⟩

def header? (text : Text) : Option (BlockHeader × Nat) :=
  (BlockHeader.read? text).map fun (header, opened) => (header, utf8Length text - utf8Length opened)

section

variable (read : Text → Checked (Except Unbalanced (List Statement))) (body : Text)

def candidate (after : Text) : Checked (Text × Nat) := do
  match find? [';'] after with
  | some semicolon => return (trim (← slice after 0 semicolon), semicolon + 1)
  | none => return (trim after, utf8Length after)

/-- Reads the block whose header starts and ends with its brace at the given places, and says where
it ends itself. -/
def readBlock (start opening : Nat) (header : BlockHeader) :
    Checked (Except Unbalanced (Statement × Nat)) := do
  match ← matchBrace body opening with
  | .error place => return .error place
  | .ok closing =>
      match ← read (← slice body (opening + 1) closing) with
      | .error place => return .error place
      | .ok members =>
          let (name, taken) ← candidate (← slice body (closing + 1) (utf8Length body))
          let declarator := Declarator.read? name
          let next := closing + 1 + if name.isEmpty || declarator.isSome then taken else 0
          let source := trim (← slice body start next)
          return .ok (.block ⟨header.kind, header.tag, declarator, source⟩ members, next)

structure Segmenting where
  cursor : Nat
  found : List Statement

def readUnit (start : Nat) (found : List Statement) :
    Checked (Segmenting ⊕ Except Unbalanced (List Statement)) := do
  let size := utf8Length body
  let text ← slice body start size
  match header? text with
  | some (header, length) =>
      match ← readBlock read body start (← sub (start + length) 1) header with
      | .error place => return .inr (.error place)
      | .ok (block, next) => return .inl ⟨next, found ++ [block]⟩
  | none =>
      let stop := (find? [';'] text).elim size fun semicolon => start + semicolon
      let field ← splitField (← slice body start stop)
      return .inl ⟨stop + 1, found ++ (field.map .field).toList⟩

def segmentPass (s : Segmenting) :
    Checked (Segmenting ⊕ Except Unbalanced (List Statement)) := do
  let size := utf8Length body
  if s.cursor < size then
    let rest ← slice body s.cursor size
    let start := s.cursor + (← sub (utf8Length rest) (utf8Length (trimStart rest)))
    if size ≤ start then return .inr (.ok s.found)
    else readUnit read body start s.found
  else return .inr (.ok s.found)

end

def segment (body : Text) : Checked (Except Unbalanced (List Statement)) :=
  let shorter (inner : Text) :=
    if utf8Length inner < utf8Length body then segment inner else .error .notShorter
  loop (fun s => utf8Length body - s.cursor) (segmentPass shorter body) ⟨0, []⟩
termination_by utf8Length body

theorem closingFrom_eq {index depth : Nat} {bytes : Bytes} {found : Option Nat}
    (counted : countBraces? index depth bytes = some found) :
    closingFrom index depth bytes = .ok found := by
  induction bytes generalizing index depth with
  | nil => exact congrArg Except.ok (Option.some.inj counted)
  | cons b r ih =>
    rw [countBraces?] at counted
    rw [closingFrom]
    by_cases opens : b = openingByte
    · rw [if_pos opens] at counted ⊢
      exact ih counted
    · rw [if_neg opens] at counted ⊢
      by_cases closes : b = closingByte
      · rw [if_pos closes] at counted ⊢
        cases depth with
        | zero => contradiction
        | succ depth =>
          have less : sub (depth + 1) 1 = .ok depth := sub_eq_ok.mpr rfl
          rw [if_neg depth.succ_ne_zero] at counted
          rw [less, ok_bind]
          cases depth with
          | zero => exact congrArg Except.ok (Option.some.inj counted)
          | succ depth =>
            rw [if_neg (by omega)] at counted ⊢
            exact ih counted
      · rw [if_neg closes] at counted ⊢
        exact ih counted

theorem matchBrace_eq (text : Text) (start : Nat) :
    matchBrace text start = .ok (MemberOffsets.matchBrace text start) := by
  by_cases opening : ∃ first, FirstOpening text start first
  · obtain ⟨first, opening⟩ := opening
    have counted := closingFrom_eq (countBraces?_firstOpening opening)
    have matched := matchBrace_of_firstOpening opening
    obtain ⟨before, gap, behind, rfl, rfl, braceless, rfl⟩ := opening
    have searched : (dropBytes? (utf8Length before) (before ++ gap ++ '{' :: behind)).bind
        (find? ['{']) = some (utf8Length gap) := by
      rw [List.append_assoc, dropBytes?_append, Option.bind_some, find?_append braceless]
      simp [find?]
    rw [encode_append, List.drop_left' (length_encode _)] at counted
    rw [matchBrace, searched]
    simp only [← utf8Length_append, bytesFrom_append, ok_bind, counted]
    rcases matched with ⟨last, found, -⟩ | ⟨failed, -⟩
    · rw [found]
      rfl
    · rw [failed]
      rfl
  · have missing : (dropBytes? start text).bind (find? ['{']) = none := by
      rw [Option.bind_eq_none_iff]
      intro rest dropped
      obtain ⟨before, rfl, length⟩ := append_of_dropBytes? dropped
      rcases find?_cases '{' rest with ⟨-, missing⟩ | ⟨gap, behind, rfl, braceless, -⟩
      · exact missing
      · exact absurd ⟨_, before, gap, behind, by simp, length, braceless, rfl⟩ opening
    rw [matchBrace_missing (not_exists.mp opening), matchBrace, missing]
    rfl

theorem matchBrace_here (before behind : Text) :
    MemberOffsets.matchBrace (before ++ '{' :: behind) (utf8Length before) =
      match splitAtClose 0 behind with
      | some (inner, _) => .ok (utf8Length before + 1 + utf8Length inner)
      | none => .error (.at (utf8Length before) ('{' :: behind)) := by
  have matched : MemberOffsets.matchBrace (before ++ [] ++ '{' :: behind) (utf8Length before) = _ :=
    matchBrace_opening behind List.not_mem_nil
  rwa [List.append_nil] at matched

section

variable {text before inner after : Text}
  (whole : text = before ++ '{' :: (inner ++ '}' :: after))
include whole

theorem slice_inside : slice text (utf8Length before + 1)
    (utf8Length before + 1 + utf8Length inner) = .ok inner :=
  slice_eq_ok.mpr ⟨before ++ ['{'], '}' :: after, by simp [whole],
    by rw [utf8Length_append]; rfl, by rw [utf8Length_append]; rfl⟩

theorem slice_closing : slice text (utf8Length before + 1 + utf8Length inner)
    (utf8Length text) = .ok ('}' :: after) := by
  have brace : '{'.utf8Size = 1 := rfl
  have parts : text = (before ++ '{' :: inner) ++ '}' :: after := by simp [whole]
  refine slice_end parts ?_
  rw [utf8Length_append, utf8Length_cons, brace]
  omega

theorem slice_behind : slice text (utf8Length before + 1 + utf8Length inner + 1)
    (utf8Length text) = .ok after := by
  have braces : '{'.utf8Size = 1 ∧ '}'.utf8Size = 1 := ⟨rfl, rfl⟩
  have parts : text = (before ++ '{' :: (inner ++ ['}'])) ++ after := by simp [whole]
  refine slice_end parts ?_
  simp only [utf8Length_append, utf8Length_cons, utf8Length_nil, braces]
  omega

end

theorem splitField_eq (statement : Text) :
    splitField statement = .ok (FieldDecl.read? statement) := by
  rw [splitField, FieldDecl.read?]
  cases found : Declarator.find? false (trim statement) with
  | none => rfl
  | some parts =>
    obtain ⟨before, d⟩ := parts
    obtain ⟨w, tail, whole, -⟩ := Declarator.find?_eq_some found
    have type : slice (trim statement) 0 (utf8Length before) = .ok before :=
      slice_front (whole.trans (List.append_assoc ..)) rfl
    simp only [type, ok_bind, pure_eq_ok, isEmpty_trim, isEmpty_collapse,
      collapse_congr (words_trim before)]

theorem header?_eq {front opened : Text} {header : BlockHeader}
    (read : BlockHeader.read? (front ++ '{' :: opened) = some (header, opened)) :
    header? (front ++ '{' :: opened) = some (header, utf8Length front + 1) := by
  have brace : '{'.utf8Size = 1 := rfl
  have length : utf8Length (front ++ '{' :: opened) - utf8Length opened = utf8Length front + 1 := by
    rw [utf8Length_append, utf8Length_cons, brace]
    omega
  rw [header?, read, ← length]
  rfl

theorem candidate_eq (after : Text) :
    ∃ taken, candidate after = .ok (trim (cutAt ';' after).1, taken) ∧
      taken + utf8Length (cutAt ';' after).2 = utf8Length after := by
  rw [candidate]
  rcases find?_cases ';' after with ⟨absent, missing⟩ | ⟨front, rest, rfl, absent, found⟩
  · rw [missing, cutAt_absent absent]
    exact ⟨_, rfl, rfl⟩
  · have semicolon : ';'.utf8Size = 1 := rfl
    have cut : slice (front ++ ';' :: rest) 0 (utf8Length front) = .ok front := slice_front rfl rfl
    rw [found, cutAt_append absent]
    simp only [cut, ok_bind, pure_eq_ok]
    refine ⟨_, rfl, ?_⟩
    rw [utf8Length_append, utf8Length_cons, semicolon]
    omega

theorem candidate_tail (after : Text) :
    ∃ name taken, candidate after = .ok (name, taken) ∧
      Declarator.read? name = (BlockTail.read after).declarator ∧
      (if name.isEmpty || (Declarator.read? name).isSome then taken else 0) +
        utf8Length (BlockTail.read after).rest = utf8Length after := by
  obtain ⟨taken, cut, length⟩ := candidate_eq after
  refine ⟨_, taken, cut, ?_⟩
  cases empty : (trim (cutAt ';' after).1).isEmpty with
  | true =>
    have tail : BlockTail.read after = ⟨none, [], (cutAt ';' after).2⟩ := by
      simp only [BlockTail.read, empty, if_true]
    rw [List.isEmpty_iff.mp empty, tail]
    exact ⟨rfl, length⟩
  | false =>
    cases declarator : Declarator.read? (trim (cutAt ';' after).1) with
    | none =>
      have tail : BlockTail.read after = ⟨none, trim (cutAt ';' after).1, after⟩ := by
        simp [BlockTail.read, empty, declarator]
      rw [tail]
      exact ⟨rfl, Nat.zero_add _⟩
    | some d =>
      have tail : BlockTail.read after = ⟨some d, [], (cutAt ';' after).2⟩ := by
        simp [BlockTail.read, empty, declarator]
      rw [tail]
      exact ⟨rfl, length⟩

section

variable {read : Text → Checked (Except Unbalanced (List Statement))}
  {body before front opened : Text} (header : BlockHeader)

theorem readBlock_unclosed (whole : body = before ++ (front ++ '{' :: opened))
    (closed : splitAtClose 0 opened = none) :
    readBlock read body (utf8Length before) (utf8Length (before ++ front)) header =
      .ok (.error (.at (utf8Length (before ++ front)) ('{' :: opened))) := by
  have matched := matchBrace_here (before ++ front) opened
  rw [closed, List.append_assoc, ← whole] at matched
  rw [readBlock, matchBrace_eq, ok_bind, matched]
  rfl

theorem readBlock_closed {inner after : Text} {members : List Statement}
    (whole : body = before ++ (front ++ '{' :: opened))
    (closed : splitAtClose 0 opened = some (inner, after))
    (inside : read inner = .ok (.ok members)) :
    ∃ block, front ++ '{' :: opened = block ++ (BlockTail.read after).rest ∧ block ≠ [] ∧
      readBlock read body (utf8Length before) (utf8Length (before ++ front)) header =
        .ok (.ok (.block ⟨header.kind, header.tag, (BlockTail.read after).declarator, trim block⟩
          members, utf8Length (before ++ block))) := by
  have one : '{'.utf8Size = 1 ∧ '}'.utf8Size = 1 := ⟨rfl, rfl⟩
  obtain ⟨name, length, cut, declarator, tail⟩ := candidate_tail after
  rw [declarator] at tail
  obtain ⟨taken, parts, -⟩ := BlockTail.read_taken after
  obtain rfl := append_of_splitAtClose closed
  have matched := matchBrace_here (before ++ front) (inner ++ '}' :: after)
  rw [closed, List.append_assoc, ← whole] at matched
  have regrouped : body = before ++ front ++ '{' :: (inner ++ '}' :: after) := by
    rw [whole, List.append_assoc]
  have next : utf8Length (before ++ front) + 1 + utf8Length inner + 1 +
      (if name.isEmpty || (BlockTail.read after).declarator.isSome then length else 0) =
      utf8Length (before ++ (front ++ '{' :: (inner ++ '}' :: taken))) := by
    have total := congrArg utf8Length parts
    simp only [utf8Length_append, utf8Length_cons, one] at total ⊢
    omega
  have sourceSlice : slice body (utf8Length before)
      (utf8Length (before ++ (front ++ '{' :: (inner ++ '}' :: taken)))) =
        .ok (front ++ '{' :: (inner ++ '}' :: taken)) :=
    slice_eq_ok.mpr ⟨before, (BlockTail.read after).rest, by
      rw [whole]
      conv_lhs => rw [parts]
      simp, rfl, utf8Length_append ..⟩
  refine ⟨front ++ '{' :: (inner ++ '}' :: taken), ?_, by simp, ?_⟩
  · conv_lhs => rw [parts]
    simp
  rw [readBlock, matchBrace_eq, ok_bind, matched]
  simp only [slice_inside regrouped, slice_behind regrouped, ok_bind, pure_eq_ok, inside, cut,
    declarator, next, sourceSlice]

end

/-- What has been found up to the cursor comes first in the segmentation of the body, and behind it
comes what the rest holds. The cursor may have gone past the end. -/
def Segmented (body : Text) (s : Segmenting) : Prop :=
  ∃ before rest, body = before ++ rest ∧
    (s.cursor = utf8Length before ∨ rest = [] ∧ utf8Length body ≤ s.cursor) ∧
    MemberOffsets.segment body =
      ((statements rest).map (s.found ++ ·)).mapError fun r =>
        .at (utf8Length body - utf8Length r) r

abbrev SegmentAdvances (body : Text) (s : Segmenting) :
    Checked (Segmenting ⊕ Except Unbalanced (List Statement)) → Prop :=
  Advances (fun s => utf8Length body - s.cursor) (Segmented body) (MemberOffsets.segment body) s

section

variable {read : Text → Checked (Except Unbalanced (List Statement))} {body : Text} {s : Segmenting}

theorem segmentPass_finish (segmented : Segmented body s) (ended : ¬ s.cursor < utf8Length body) :
    segmentPass read body s = .ok (.inr (MemberOffsets.segment body)) := by
  obtain ⟨before, rest, whole, place, result⟩ := segmented
  have empty : rest = [] := by
    rcases place with place | ⟨empty, -⟩
    · rw [whole, utf8Length_append, ← place] at ended
      exact eq_nil_of_utf8Length (by omega)
    · exact empty
  have all : MemberOffsets.segment body = .ok s.found := by
    rw [result, empty, statements_blank rfl, Except.map, Except.mapError, List.append_nil]
  rw [segmentPass, if_neg ended, all]
  rfl

theorem segmentPass_blank {before rest : Text} (whole : body = before ++ rest)
    (place : s.cursor = utf8Length before) (within : s.cursor < utf8Length body)
    (blank : trimStart rest = [])
    (result : MemberOffsets.segment body = ((statements rest).map (s.found ++ ·)).mapError fun r =>
      .at (utf8Length body - utf8Length r) r) :
    segmentPass read body s = .ok (.inr (MemberOffsets.segment body)) := by
  have less : sub (utf8Length rest) (utf8Length (trimStart rest)) = .ok (utf8Length rest) := by
    rw [blank]
    exact sub_eq_ok.mpr rfl
  have all : MemberOffsets.segment body = .ok s.found := by
    rw [result, statements_none (by simp [Piece.next?, blank]), Except.map, Except.mapError,
      List.append_nil]
  simp only [segmentPass, if_pos within, slice_end whole place, ok_bind, less]
  rw [place, ← utf8Length_append, ← whole, if_pos le_rfl, all]
  rfl

theorem segmentPass_unit {before rest : Text} (whole : body = before ++ rest)
    (place : s.cursor = utf8Length before) (within : s.cursor < utf8Length body)
    (unread : trimStart rest ≠ []) :
    segmentPass read body s =
      readUnit read body (utf8Length (before ++ rest.takeWhile isBlank)) s.found := by
  have parts : rest.takeWhile isBlank ++ trimStart rest = rest := List.takeWhile_append_dropWhile
  have cut := slice_end whole place
  have less : sub (utf8Length rest) (utf8Length (trimStart rest)) =
      .ok (utf8Length (rest.takeWhile isBlank)) := by
    rw [sub_eq_ok, ← utf8Length_append, parts]
  have more : ¬ utf8Length body ≤ utf8Length (before ++ rest.takeWhile isBlank) := by
    have size := congrArg utf8Length parts
    have positive := mt eq_nil_of_utf8Length unread
    simp only [whole, utf8Length_append] at size ⊢
    omega
  simp only [segmentPass, if_pos within, cut, ok_bind, less]
  rw [place, ← utf8Length_append, if_neg more]

variable (read) in
theorem readUnit_field {before text : Text} (whole : body = before ++ text)
    (plain : BlockHeader.read? text = none) (found : List Statement) :
    ∃ next, readUnit read body (utf8Length before) found =
        .ok (.inl ⟨next, found ++ ((FieldDecl.read? (cutAt ';' text).1).map .field).toList⟩) ∧
      utf8Length before < next ∧ ∃ front, body = front ++ (cutAt ';' text).2 ∧
        (next = utf8Length front ∨ (cutAt ';' text).2 = [] ∧ utf8Length body ≤ next) := by
  have cut : slice body (utf8Length before) (utf8Length body) = .ok text := slice_end whole rfl
  have headless : header? text = none := by rw [header?, plain]; rfl
  have size : utf8Length body = utf8Length before + utf8Length text := by
    rw [whole, utf8Length_append]
  rcases find?_cases ';' text with ⟨absent, missing⟩ | ⟨front, rest, rfl, absent, occurs⟩
  · refine ⟨utf8Length body + 1, ?_, by omega, body, ?_⟩
    · simp only [readUnit, cut, ok_bind, headless, missing, Option.elim_none, splitField_eq,
        cutAt_absent absent, pure_eq_ok]
    · rw [cutAt_absent absent]
      exact ⟨(List.append_nil body).symm, .inr ⟨rfl, Nat.le_succ _⟩⟩
  · have semicolon : ';'.utf8Size = 1 := rfl
    have statement : slice body (utf8Length before) (utf8Length before + utf8Length front) =
        .ok front := slice_eq_ok.mpr ⟨before, ';' :: rest, by simp [whole], rfl, rfl⟩
    rw [cutAt_append absent]
    refine ⟨utf8Length before + utf8Length front + 1, ?_, by omega, before ++ front ++ [';'], ?_⟩
    · simp only [readUnit, cut, ok_bind, headless, occurs, Option.elim_some, statement,
        splitField_eq, pure_eq_ok]
    · exact ⟨by simp [whole], .inl (by simp [semicolon]; omega)⟩

theorem readUnit_header {before front opened : Text} {header : BlockHeader}
    (whole : body = before ++ (front ++ '{' :: opened))
    (headed : BlockHeader.read? (front ++ '{' :: opened) = some (header, opened))
    (found : List Statement) :
    readUnit read body (utf8Length before) found =
      readBlock read body (utf8Length before) (utf8Length (before ++ front)) header >>= fun
        | .error place => .ok (.inr (.error place))
        | .ok (block, next) => .ok (.inl ⟨next, found ++ [block]⟩) := by
  have cut := slice_end whole rfl
  have opening : sub (utf8Length before + (utf8Length front + 1)) 1 =
      .ok (utf8Length (before ++ front)) := by
    rw [sub_eq_ok, utf8Length_append]
    omega
  simp only [readUnit, cut, ok_bind, header?_eq headed, opening, pure_eq_ok]

section

variable {before rest : Text} (whole : body = before ++ trimStart rest)
  (unread : trimStart rest ≠ []) (behind : s.cursor ≤ utf8Length before)
  (result : MemberOffsets.segment body =
    ((statements rest).map (s.found ++ ·)).mapError fun r => .at (utf8Length body - utf8Length r) r)
include whole unread behind result

theorem readUnit_field_advances (plain : BlockHeader.read? (trimStart rest) = none) :
    SegmentAdvances body s (readUnit read body (utf8Length before) s.found) := by
  have within : utf8Length before < utf8Length body := by
    have positive := mt eq_nil_of_utf8Length unread
    rw [whole, utf8Length_append]
    omega
  have next : Piece.next? rest = some (.statement (cutAt ';' (trimStart rest)).1,
      (cutAt ';' (trimStart rest)).2) := by
    simp [Piece.next?, unread, plain]
  obtain ⟨cursor, made, more, front, tail, reached⟩ := readUnit_field read whole plain s.found
  refine .of_inl made (by simp only; omega) ⟨front, _, tail, reached, ?_⟩
  rw [result, statements_statement next]
  cases statements (cutAt ';' (trimStart rest)).2 <;>
    cases FieldDecl.read? (cutAt ';' (trimStart rest)).1 <;> simp [Except.map]

section

variable {front opened : Text} {header : BlockHeader}
  (spelled : front ++ '{' :: opened = trimStart rest)
  (headed : BlockHeader.read? (trimStart rest) = some (header, opened))
include spelled headed

omit behind in
theorem readUnit_unclosed_advances (closed : splitAtClose 0 opened = none) :
    SegmentAdvances body s (readUnit read body (utf8Length before) s.found) := by
  have next : Piece.next? rest = some (.unclosed ('{' :: opened), []) := by
    simp [Piece.next?, unread, headed, closed]
  rw [← spelled] at whole headed
  have place : utf8Length body - utf8Length ('{' :: opened) = utf8Length (before ++ front) := by
    rw [whole, ← List.append_assoc, utf8Length_append _ ('{' :: opened)]
    omega
  have failed : MemberOffsets.segment body =
      .error (.at (utf8Length (before ++ front)) ('{' :: opened)) := by
    rw [result, statements_unclosed next, ← place]
    rfl
  rw [readUnit_header whole headed, readBlock_unclosed header whole closed, ok_bind,
    SegmentAdvances, failed]
  exact .of_inr rfl

theorem readUnit_block_advances {inner after : Text}
    (closed : splitAtClose 0 opened = some (inner, after))
    (reads : ∀ inner, utf8Length inner < utf8Length body →
      read inner = .ok (MemberOffsets.segment inner)) :
    SegmentAdvances body s (readUnit read body (utf8Length before) s.found) := by
  obtain ⟨members, segmented⟩ := segment_of_bracesMatch (bracesMatch_of_splitAtClose closed)
  have shorter : utf8Length inner < utf8Length body := by
    rw [whole, ← spelled, ← append_of_splitAtClose closed]
    simp only [utf8Length_append, utf8Length_cons]
    have brace := '{'.utf8Size_pos
    omega
  have inside : read inner = .ok (.ok members) := by rw [reads inner shorter, segmented]
  rw [← spelled] at whole
  obtain ⟨block, text, nonempty, made⟩ := readBlock_closed header whole closed inside
  have next : Piece.next? rest =
      some (.block ⟨header.kind, header.tag, (BlockTail.read after).declarator, trim block⟩
        inner (BlockTail.read after).stray, (BlockTail.read after).rest) := by
    have source : (trimStart rest).take
        ((trimStart rest).length - (BlockTail.read after).rest.length) = block := by
      simp [← spelled, text]
    simp [Piece.next?, unread, headed, closed, source]
  have further : utf8Length before < utf8Length (before ++ block) := by
    have positive := mt eq_nil_of_utf8Length nonempty
    rw [utf8Length_append]
    omega
  rw [readUnit_header whole (spelled ▸ headed), made, ok_bind]
  refine .of_inl rfl ?_ ⟨before ++ block, (BlockTail.read after).rest, ?_, .inl rfl, ?_⟩
  · change utf8Length body - utf8Length (before ++ block) < utf8Length body - s.cursor
    have size := congrArg utf8Length whole
    rw [text, ← List.append_assoc, utf8Length_append] at size
    omega
  · rw [whole, text, List.append_assoc]
  · rw [result, statements_block next, segment_eq_ok.mp segmented]
    cases statements (BlockTail.read after).rest <;> simp [Except.map, bind, Except.bind]

end

theorem readUnit_advances
    (reads : ∀ inner, utf8Length inner < utf8Length body →
      read inner = .ok (MemberOffsets.segment inner)) :
    SegmentAdvances body s (readUnit read body (utf8Length before) s.found) := by
  cases headed : BlockHeader.read? (trimStart rest) with
  | none => exact readUnit_field_advances whole unread behind result headed
  | some found =>
    obtain ⟨header, opened⟩ := found
    obtain ⟨front, spelled⟩ := (BlockHeader.read?_part headed).1
    cases closed : splitAtClose 0 opened with
    | none => exact readUnit_unclosed_advances whole unread result spelled headed closed
    | some block =>
      exact readUnit_block_advances whole unread behind result spelled headed closed reads

end

theorem segmentPass_advances
    (reads : ∀ inner, utf8Length inner < utf8Length body →
      read inner = .ok (MemberOffsets.segment inner)) (segmented : Segmented body s) :
    SegmentAdvances body s (segmentPass read body s) := by
  by_cases within : s.cursor < utf8Length body
  · obtain ⟨before, rest, whole, place, result⟩ := segmented
    replace place : s.cursor = utf8Length before := by
      rcases place with place | ⟨-, past⟩
      · exact place
      · omega
    have parts : rest.takeWhile isBlank ++ trimStart rest = rest := List.takeWhile_append_dropWhile
    by_cases unread : trimStart rest = []
    · exact .of_inr (segmentPass_blank whole place within unread result)
    · let start := before ++ rest.takeWhile isBlank
      have behind : body = start ++ trimStart rest := by rw [List.append_assoc, parts, whole]
      have further : s.cursor ≤ utf8Length start := by simp [start, place]
      rw [segmentPass_unit whole place within unread]
      exact readUnit_advances behind unread further result reads
  · exact .of_inr (segmentPass_finish segmented within)

end

theorem segment_eq (body : Text) : segment body = .ok (MemberOffsets.segment body) := by
  induction size : utf8Length body using Nat.strong_induction_on generalizing body with
  | h n ih =>
    rw [segment]
    refine loop_eq_ok (fun s => segmentPass_advances ?_) ?_
    · intro inner shorter
      rw [if_pos shorter]
      exact ih _ (by omega) inner rfl
    · refine ⟨[], body, rfl, .inl rfl, ?_⟩
      rw [MemberOffsets.segment]
      cases statements body <;> rfl

end MemberOffsets.Checked
