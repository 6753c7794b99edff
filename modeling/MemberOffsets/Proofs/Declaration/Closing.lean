import Mathlib.Data.List.Infix
import MemberOffsets.Proofs.Declaration.Origin

set_option autoImplicit false

namespace MemberOffsets

open Text

/-- Of a brace opened right before the text and `depth` more around it, one stays open: at no point
have more than `depth` braces closed beyond those that opened. -/
def StaysOpen (depth : Nat) (s : Text) : Prop :=
  ∀ front, front <+: s → front.count '}' ≤ front.count '{' + depth

structure BracesMatch (s : Text) : Prop where
  early : ∀ front, front <+: s → front.count '}' ≤ front.count '{'
  equal : s.count '{' = s.count '}'

instance (s : Text) : Decidable (BracesMatch s) :=
  decidable_of_iff
    ((∀ front ∈ s.inits, front.count '}' ≤ front.count '{') ∧ s.count '{' = s.count '}')
    ⟨fun all => ⟨fun front start => all.1 front ((List.mem_inits front s).mpr start), all.2⟩,
      fun m => ⟨fun front member => m.early front ((List.mem_inits front s).mp member), m.equal⟩⟩

def Unbalanced.In (text : Text) (place : Unbalanced) : Prop :=
  ∃ before behind, text = before ++ '{' :: behind ∧ StaysOpen 0 behind ∧
    place.start = utf8Length before ∧ place.span = ('{' :: behind).take 48

theorem Unbalanced.at_in (before : Text) {behind : Text} (stays : StaysOpen 0 behind) :
    (Unbalanced.at (utf8Length before) ('{' :: behind)).In (before ++ '{' :: behind) :=
  ⟨before, behind, rfl, stays, rfl, rfl⟩

namespace BracesMatch

theorem not_staysOpen {before behind : Text} (matching : BracesMatch (before ++ '{' :: behind)) :
    ¬ StaysOpen 0 behind := by
  intro stays
  have front := matching.early before (List.prefix_append before _)
  have rest := stays behind (List.prefix_refl behind)
  have equal := matching.equal
  simp only [List.count_append, List.count_cons, beq_iff_eq, Char.reduceEq, if_true, if_false]
    at equal
  omega

theorem not_in {text : Text} (matching : BracesMatch text) (place : Unbalanced) :
    ¬ place.In text := by
  rintro ⟨before, behind, rfl, stays, -⟩
  exact matching.not_staysOpen stays

theorem of_squash {s t : Text} (matching : BracesMatch s) (same : squash s = squash t) :
    BracesMatch t := by
  have counted (c : Char) (dark : isBlank c = false) (r : Text) : (squash r).count c = r.count c :=
    List.count_filter (by simp [dark])
  have opening := counted '{' (by decide)
  have closing := counted '}' (by decide)
  constructor
  · intro front start
    have squashed : squash front <+: squash s := same ▸ start.filter _
    obtain ⟨front', start', same'⟩ := List.prefix_filter_iff.mp squashed
    have bound := matching.early front' start'
    rwa [← opening front, ← closing front, same', ← squash, opening, closing]
  · rw [← opening, ← closing, ← same, opening, closing]
    exact matching.equal

theorem normalize {text : Text} (matching : BracesMatch (stripComments text)) :
    BracesMatch (normalize text) := by
  apply matching.of_squash
  rw [MemberOffsets.normalize, ← flatten_words, ← flatten_words, words_tidyLines]

end BracesMatch

theorem forall_prefix_cons {P : Text → Prop} {c : Char} {s : Text} :
    (∀ front, front <+: c :: s → P front) ↔ P [] ∧ ∀ front, front <+: s → P (c :: front) := by
  simp only [List.prefix_cons_iff]
  constructor
  · intro all
    exact ⟨all [] (.inl rfl), fun front start => all _ (.inr ⟨front, rfl, start⟩)⟩
  · rintro ⟨empty, longer⟩ _ (rfl | ⟨front, rfl, start⟩)
    · exact empty
    · exact longer front start

namespace StaysOpen

@[simp] theorem nil (depth : Nat) : StaysOpen depth [] := by
  intro front start
  simp [List.prefix_nil.mp start]

@[simp] theorem plain_iff {c : Char} {depth : Nat} {s : Text} (opens : c ≠ '{') (closes : c ≠ '}') :
    StaysOpen depth (c :: s) ↔ StaysOpen depth s := by
  simp [StaysOpen, forall_prefix_cons, opens, closes]

@[simp] theorem opening_iff {depth : Nat} {s : Text} :
    StaysOpen depth ('{' :: s) ↔ StaysOpen (depth + 1) s := by
  simp [StaysOpen, forall_prefix_cons, Nat.add_right_comm, ← Nat.add_assoc]

@[simp] theorem closing_iff {depth : Nat} {s : Text} :
    StaysOpen (depth + 1) ('}' :: s) ↔ StaysOpen depth s := by
  simp [StaysOpen, forall_prefix_cons, ← Nat.add_assoc]

@[simp] theorem not_closing {s : Text} : ¬ StaysOpen 0 ('}' :: s) := by
  intro stays
  simpa using stays ['}'] ⟨s, rfl⟩

end StaysOpen

theorem splitAtClose_eq_none {depth : Nat} {s : Text} :
    splitAtClose depth s = none ↔ StaysOpen depth s := by
  induction s generalizing depth with
  | nil => simp [splitAtClose]
  | cons c s ih =>
    by_cases opens : c = '{'
    · simp [opens, splitAtClose_opening, ih]
    · by_cases closes : c = '}'
      · cases depth with
        | zero => simp [closes, splitAtClose]
        | succ depth => simp [closes, splitAtClose_closing, ih]
      · simp [splitAtClose_plain depth opens closes, opens, closes, ih]

theorem eq_cons_of_map {c : Char} {found : Option (Text × Text)} {body after : Text}
    (extended : (found.map fun (inner, after) => (c :: inner, after)) = some (body, after)) :
    ∃ inner, found = some (inner, after) ∧ body = c :: inner := by
  obtain ⟨⟨inner, rest⟩, rfl, same⟩ := Option.map_eq_some_iff.mp extended
  obtain ⟨rfl, rfl⟩ := Prod.mk.inj same
  exact ⟨inner, rfl, rfl⟩

theorem staysOpen_of_splitAtClose {depth : Nat} {s body after : Text}
    (found : splitAtClose depth s = some (body, after)) :
    StaysOpen depth body ∧ body.count '}' = body.count '{' + depth := by
  induction s generalizing depth body with
  | nil => simp [splitAtClose] at found
  | cons c s ih =>
    by_cases opens : c = '{'
    · rw [opens, splitAtClose_opening] at found
      obtain ⟨inner, later, rfl⟩ := eq_cons_of_map found
      obtain ⟨stays, equal⟩ := ih later
      exact ⟨StaysOpen.opening_iff.mpr stays, by simp [equal]; omega⟩
    · by_cases closes : c = '}'
      · cases depth with
        | zero =>
          obtain ⟨rfl, -⟩ : [] = body ∧ s = after := by simpa [closes, splitAtClose] using found
          simp
        | succ depth =>
          rw [closes, splitAtClose_closing] at found
          obtain ⟨inner, later, rfl⟩ := eq_cons_of_map found
          obtain ⟨stays, equal⟩ := ih later
          exact ⟨StaysOpen.closing_iff.mpr stays, by simp [equal]; omega⟩
      · rw [splitAtClose_plain depth opens closes] at found
        obtain ⟨inner, later, rfl⟩ := eq_cons_of_map found
        obtain ⟨stays, equal⟩ := ih later
        exact ⟨(StaysOpen.plain_iff opens closes).mpr stays, by simp [equal, opens, closes]⟩

theorem splitAtClose_of_staysOpen {depth : Nat} {body : Text} (stays : StaysOpen depth body)
    (equal : body.count '}' = body.count '{' + depth) (after : Text) :
    splitAtClose depth (body ++ '}' :: after) = some (body, after) := by
  induction body generalizing depth with
  | nil =>
    obtain rfl : depth = 0 := by simpa using equal.symm
    simp [splitAtClose]
  | cons c body ih =>
    by_cases opens : c = '{'
    · subst opens
      have deeper : body.count '}' = body.count '{' + (depth + 1) := by
        simp only [List.count_cons, beq_iff_eq, Char.reduceEq, if_true, if_false] at equal
        omega
      rw [List.cons_append, splitAtClose_opening, ih (StaysOpen.opening_iff.mp stays) deeper]
      rfl
    · by_cases closes : c = '}'
      · subst closes
        cases depth with
        | zero => exact absurd stays StaysOpen.not_closing
        | succ depth =>
          have outer : body.count '}' = body.count '{' + depth := by
            simp only [List.count_cons, beq_iff_eq, Char.reduceEq, if_true, if_false] at equal
            omega
          rw [List.cons_append, splitAtClose_closing, ih (StaysOpen.closing_iff.mp stays) outer]
          rfl
      · have same : body.count '}' = body.count '{' + depth := by
          simpa [opens, closes] using equal
        rw [List.cons_append, splitAtClose_plain depth opens closes,
          ih ((StaysOpen.plain_iff opens closes).mp stays) same]
        rfl

theorem BracesMatch.splitAtClose {body : Text} (matching : BracesMatch body) (after : Text) :
    splitAtClose 0 (body ++ '}' :: after) = some (body, after) := by
  have stays : StaysOpen 0 body := matching.early
  exact splitAtClose_of_staysOpen stays matching.equal.symm after

theorem bracesMatch_of_splitAtClose {s body after : Text}
    (found : splitAtClose 0 s = some (body, after)) : BracesMatch body := by
  obtain ⟨stays, equal⟩ := staysOpen_of_splitAtClose found
  exact ⟨stays, equal.symm⟩

namespace Piece

theorem bracesMatch_block {s inner stray rest : Text} {b : BlockDecl}
    (next : next? s = some (.block b inner stray, rest)) : BracesMatch inner := by
  rcases next?_cases next with
    ⟨piece, -⟩ | ⟨header, opened, -, ⟨-, piece⟩ | ⟨body, after, source, closed, piece, -⟩⟩
  · contradiction
  · contradiction
  · obtain ⟨-, rfl, -⟩ := block.inj piece
    exact bracesMatch_of_splitAtClose closed

theorem unclosed_part {s rest rest' : Text} (next : next? s = some (.unclosed rest, rest')) :
    ∃ opened, rest = '{' :: opened ∧ rest <:+ s ∧ StaysOpen 0 opened := by
  rcases next?_cases next with
    ⟨piece, -⟩ | ⟨header, opened, read, ⟨never, piece⟩ | ⟨body, after, source, -, piece, -⟩⟩
  · contradiction
  · obtain rfl := unclosed.inj piece
    have start : trimStart s <:+ s := List.dropWhile_suffix isBlank
    exact ⟨opened, rfl, (BlockHeader.read?_part read).1.trans start, splitAtClose_eq_none.mp never⟩
  · contradiction

end Piece

-- The error of an inner body would not be one of the body around it; but no inner body has one.
theorem statements_error {s rest : Text} (failed : statements s = .error rest) :
    ∃ opened, rest = '{' :: opened ∧ rest <:+ s ∧ StaysOpen 0 opened := by
  induction s using statements.induct generalizing rest with
  | case1 s next => simp [statements_none next] at failed
  | case2 s text rest' next ih =>
    rw [statements_statement next] at failed
    have later : statements rest' = .error rest := by
      cases tail : statements rest' <;> simp_all [Except.map]
    obtain ⟨opened, rfl, part, stays⟩ := ih later
    exact ⟨opened, rfl, part.trans (Piece.statement_part next).2.2, stays⟩
  | case3 s b inner stray rest' next ihInner ihRest =>
    rw [statements_block next, bind_eq_error] at failed
    rcases failed with inside | ⟨members, -, failed⟩
    · obtain ⟨opened, rfl, ⟨before, whole⟩, stays⟩ := ihInner inside
      have matching := Piece.bracesMatch_block next
      rw [← whole] at matching
      exact absurd stays matching.not_staysOpen
    · have later : statements rest' = .error rest := by simpa [bind_eq_error] using failed
      obtain ⟨opened, rfl, part, stays⟩ := ihRest later
      exact ⟨opened, rfl, part.trans (Piece.block_part next).2.1, stays⟩
  | case4 s unclosed rest' next =>
    obtain rfl : unclosed = rest := by simpa [statements_unclosed next] using failed
    exact Piece.unclosed_part next

theorem segment_error {text : Text} {place : Unbalanced} (failed : segment text = .error place) :
    place.In text := by
  cases read : statements text with
  | ok ms => simp [segment, read, Except.mapError] at failed
  | error rest =>
    obtain ⟨opened, rfl, ⟨before, rfl⟩, stays⟩ := statements_error read
    obtain rfl : Unbalanced.at (utf8Length before) ('{' :: opened) = place := by
      simpa [segment, read, Except.mapError] using failed
    exact Unbalanced.at_in before stays

theorem segment_of_bracesMatch {text : Text} (matching : BracesMatch text) :
    ∃ ms, segment text = .ok ms := by
  cases read : segment text with
  | ok ms => exact ⟨ms, rfl⟩
  | error place => exact absurd (segment_error read) (matching.not_in place)

/-- Segmentation with a cursor, as on slices of one text: it counts the bytes of the body at hand
only, so within a block it starts at zero again. -/
def segmentFrom (cursor : Nat) (body : Text) : Except Unbalanced (List Statement) :=
  match _ : Piece.next? body with
  | none => .ok []
  | some (.statement text, rest) => do
      let later ← segmentFrom (cursor + (utf8Length body - utf8Length rest)) rest
      match FieldDecl.read? text with
      | some decl => .ok (.field decl :: later)
      | none => .ok later
  | some (.block decl inner _, rest) => do
      let members ← segmentFrom 0 inner
      let later ← segmentFrom (cursor + (utf8Length body - utf8Length rest)) rest
      .ok (.block decl members :: later)
  | some (.unclosed rest, _) => .error (.at (cursor + (utf8Length body - utf8Length rest)) rest)
termination_by body.length
decreasing_by
  · exact Piece.length_rest_lt ‹_›
  · exact Piece.length_body_lt ‹_›
  · exact Piece.length_rest_lt ‹_›

-- The cursor goes on from where the rest begins.
theorem mapError_of_suffix {s rest : Text} (part : rest <:+ s) (cursor : Nat) :
    ((statements rest).mapError fun r =>
        Unbalanced.at (cursor + (utf8Length s - utf8Length rest) +
          (utf8Length rest - utf8Length r)) r) =
      (statements rest).mapError fun r =>
        .at (cursor + (utf8Length s - utf8Length r)) r := by
  cases later : statements rest with
  | ok ms => rfl
  | error r =>
    obtain ⟨opened, -, ⟨between, rfl⟩, -⟩ := statements_error later
    obtain ⟨before, rfl⟩ := part
    simp only [Except.mapError, utf8Length_append]
    congr 2
    omega

-- That the cursor starts at zero again in a block is never seen: no error comes from there.
theorem segmentFrom_eq (cursor : Nat) (body : Text) :
    segmentFrom cursor body = (statements body).mapError fun rest =>
      .at (cursor + (utf8Length body - utf8Length rest)) rest := by
  induction body using statements.induct generalizing cursor with
  | case1 s next =>
    rw [segmentFrom, statements_none next]
    split <;> simp_all [Except.mapError]
  | case2 s text rest next ih =>
    rw [segmentFrom, statements_statement next]
    split
    · simp_all
    · rename_i text' rest' same
      obtain ⟨rfl, rfl⟩ : text = text' ∧ rest = rest' := by simpa [next] using same
      rw [ih, mapError_of_suffix (Piece.statement_part next).2.2]
      cases statements rest <;> cases FieldDecl.read? text <;> rfl
    · simp_all
    · simp_all
  | case3 s b inner stray rest next ihInner ihRest =>
    rw [segmentFrom, statements_block next]
    split
    · simp_all
    · simp_all
    · rename_i b' inner' stray' rest' same
      obtain ⟨⟨rfl, rfl, rfl⟩, rfl⟩ :
          (b = b' ∧ inner = inner' ∧ stray = stray') ∧ rest = rest' := by simpa [next] using same
      obtain ⟨members, segmented⟩ := segment_of_bracesMatch (Piece.bracesMatch_block next)
      rw [ihInner, ihRest, mapError_of_suffix (Piece.block_part next).2.1,
        segment_eq_ok.mp segmented]
      cases statements rest <;> rfl
    · simp_all
  | case4 s unclosed rest next =>
    rw [segmentFrom, statements_unclosed next]
    split <;> simp_all [Except.mapError]

theorem segmentFrom_zero (body : Text) : segmentFrom 0 body = segment body := by
  simp only [segmentFrom_eq, segment, Nat.zero_add]

namespace Shell

theorem split_braceless {text : Text} (braceless : '{' ∉ text) : split text = .ok (bare text) := by
  rw [split, List.dropWhile_eq_nil_iff.mpr (forall_ne_of_not_mem braceless)]

theorem split_first {before behind : Text} (first : '{' ∉ before) :
    split (before ++ '{' :: behind) =
      if ';' ∈ before then .ok (bare (before ++ '{' :: behind))
      else
        match splitAtClose 0 behind with
        | none => .error (.at (utf8Length before) ('{' :: behind))
        | some (body, after) =>
            .ok (if allBlank (cutAt ';' after).2 then enclosing before body after
              else bare (before ++ '{' :: behind)) := by
  have run := forall_ne_of_not_mem first
  have stop : ∀ c ∈ ('{' :: behind).head?, (c != '{') = false := by simp
  rw [split, takeWhile_append_stop run stop, dropWhile_append_stop run stop]
  simp only [List.elem_eq_mem, decide_eq_true_eq]
  split
  · rfl
  · cases splitAtClose 0 behind with
    | none => rfl
    | some found => exact (apply_ite _ _ _ _).symm

theorem split_error {text : Text} {place : Unbalanced} (failed : split text = .error place) :
    place.In text := by
  by_cases brace : '{' ∈ text
  · obtain ⟨before, behind, rfl, first⟩ := List.eq_append_cons_of_mem brace
    rw [split_first first] at failed
    split at failed
    · contradiction
    · cases closed : splitAtClose 0 behind with
      | none =>
        rw [closed] at failed
        obtain rfl := Except.error.inj failed
        exact Unbalanced.at_in before (splitAtClose_eq_none.mp closed)
      | some found =>
        rw [closed] at failed
        contradiction
  · rw [split_braceless brace] at failed
    contradiction

theorem split_eq_enclosing {text : Text} {shell : Shell} (read : split text = .ok shell)
    (shelled : shell ≠ bare text) :
    ∃ before body after, text = before ++ '{' :: (body ++ '}' :: after) ∧
      '{' ∉ before ∧ ';' ∉ before ∧ BracesMatch body ∧ allBlank (cutAt ';' after).2 = true ∧
        shell = enclosing before body after := by
  by_cases brace : '{' ∈ text
  · obtain ⟨before, behind, rfl, first⟩ := List.eq_append_cons_of_mem brace
    rw [split_first first] at read
    split at read
    · exact absurd (Except.ok.inj read).symm shelled
    · rename_i single
      cases closed : splitAtClose 0 behind with
      | none =>
        rw [closed] at read
        contradiction
      | some found =>
        obtain ⟨body, after⟩ := found
        rw [closed] at read
        by_cases last : allBlank (cutAt ';' after).2 = true
        · have same : enclosing before body after = shell := by simpa [last] using read
          rw [← append_of_splitAtClose closed]
          exact ⟨before, body, after, rfl, first, single, bracesMatch_of_splitAtClose closed, last,
            same.symm⟩
        · have same : bare (before ++ '{' :: behind) = shell := by simpa [last] using read
          exact absurd same.symm shelled
  · rw [split_braceless brace] at read
    exact absurd (Except.ok.inj read).symm shelled

theorem opening_enclosing (before body after : Text) : (enclosing before body after).opening ≠ [] :=
  collapse_ne_nil (by simp [allBlank, show isBlank '{' = false from rfl])

theorem bracesMatch_body {text : Text} {shell : Shell} (read : split text = .ok shell)
    (shelled : shell ≠ bare text) : BracesMatch shell.body := by
  obtain ⟨before, body, after, -, -, -, matching, -, rfl⟩ := split_eq_enclosing read shelled
  exact matching

end Shell

end MemberOffsets
