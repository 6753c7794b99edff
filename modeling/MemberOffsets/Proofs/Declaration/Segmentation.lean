import MemberOffsets.Declaration.Block
import MemberOffsets.Proofs.Declaration.Balance
import MemberOffsets.Proofs.Declaration.Tree
import MemberOffsets.Proofs.Basic

set_option autoImplicit false

namespace MemberOffsets

open Text

theorem trimStart_semicolon (s rest : Text) :
    trimStart (s ++ ';' :: rest) = trimStart s ++ ';' :: rest :=
  trimStart_append_cons s (by decide) rest

theorem trimStart_keyword (kind : Kind) (t : Text) :
    trimStart (kind.keyword ++ t) = kind.keyword ++ t := by
  cases kind <;> exact trimStart_cons _ (by decide)

theorem dropAttributes?_blank {g : Text} (blank : allBlank g = true) (inside : Bool) (s : Text) :
    dropAttributes? inside (g ++ s) = dropAttributes? inside s := by
  induction g with
  | nil => rfl
  | cons c g ih =>
    simp only [allBlank, List.all_cons, Bool.and_eq_true] at blank
    have closes : c ≠ ']' := ne_of_isBlank blank.1 (by decide)
    have opens : c ≠ '[' := ne_of_isBlank blank.1 (by decide)
    cases inside <;> simp [dropAttributes?, closes, opens, blank.1, ih blank.2]

theorem dropAttributes?_plain {s : Text} (bracket : ∀ c ∈ (trimStart s).head?, c ≠ '[') :
    dropAttributes? false s = some (trimStart s) := by
  induction s with
  | nil => rfl
  | cons c s ih =>
    cases blank : isBlank c with
    | true =>
      have trimmed : trimStart (c :: s) = trimStart s := by simp [trimStart, blank]
      have opens : c ≠ '[' := by
        rintro rfl
        revert blank
        decide
      rw [trimmed] at bracket ⊢
      rw [← ih bracket, dropAttributes?, if_pos blank]
      simp [opens]
    | false =>
      rw [trimStart_cons s blank] at bracket ⊢
      have opens : c ≠ '[' := bracket c rfl
      rw [dropAttributes?, if_neg (by simp [blank])]
      simp [opens]

theorem dropAttributes?_inside {s : Text} (plain : ∀ c ∈ s, c ≠ ']') (t : Text) :
    dropAttributes? true (s ++ ']' :: ']' :: t) = dropAttributes? false t := by
  induction s with
  | nil => simp [dropAttributes?]
  | cons c s ih =>
    have closes := plain c List.mem_cons_self
    have rest := ih fun d member => plain d (List.mem_cons_of_mem c member)
    simp [dropAttributes?, closes, rest]

theorem dropAttributes?_write (as : List AttributeSpelling) (t : Text) :
    dropAttributes? false (as.flatMap AttributeSpelling.write ++ t) = dropAttributes? false t := by
  induction as with
  | nil => rfl
  | cons a as ih =>
    have inside : ∀ c ∈ a.inside, c ≠ ']' := fun c member => (a.plain c member).2
    rw [List.flatMap_cons, AttributeSpelling.write]
    simp only [List.append_assoc, List.cons_append, List.nil_append]
    rw [dropAttributes?_blank a.gap.property, dropAttributes?, dropAttributes?_inside inside, ih]

namespace BlockHeader

theorem keyword?_append (kind : Kind) (r : Text) :
    keyword? (kind.keyword ++ r) = some (kind, r) := by
  have dropped (s : Text) : dropStart? s (s ++ r) = some r := by simp [dropStart?]
  cases kind with
  | struct => simp only [keyword?, List.findSome?_cons, dropped, Option.map_some]
  | union =>
    have other : dropStart? Kind.struct.keyword (Kind.union.keyword ++ r) = none := rfl
    simp only [keyword?, List.findSome?_cons, dropped, other, Option.map_some, Option.map_none]

theorem append_of_keyword? {s r : Text} {kind : Kind} (found : keyword? s = some (kind, r)) :
    s = kind.keyword ++ r := by
  obtain ⟨k, -, here⟩ := List.exists_of_findSome?_eq_some found
  obtain ⟨t, start, same⟩ := Option.map_eq_some_iff.mp here
  obtain ⟨rfl, rfl⟩ := Prod.mk.inj same
  exact (append_of_dropStart? start).symm

theorem splitTag_append (i : Identifier) {t : Text} (stop : ∀ c ∈ t.head?, isIdentChar c = false) :
    splitTag (i.text ++ t) = (some i.text, t) := by
  simp only [Identifier.text, List.cons_append, splitTag, i.start, if_true,
    takeWhile_append_stop i.later stop, dropWhile_append_stop i.later stop]

-- Behind the keyword and its attributes, only blanks, a tag and a brace make a header.
theorem read?_keyword (kind : Kind) {r t : Text} (apart : ∀ c ∈ r.head?, isWordChar c = false)
    (attributes : dropAttributes? false r = some t) :
    read? (kind.keyword ++ r) =
      match trimStart (splitTag t).2 with
      | '{' :: u => some (⟨kind, (splitTag t).1⟩, u)
      | _ => none := by
  have outside : r.head?.any isWordChar = false := by
    cases first : r.head? with
    | none => rfl
    | some c => exact apart c first
  simp only [read?, keyword?_append, Option.bind_eq_bind, Option.bind_some, outside, attributes]
  rfl

theorem splitTag_tagged (h : HeaderSpelling) (t : Text) :
    (∀ c ∈ (trimStart (h.tagged ++ '{' :: t)).head?, c ≠ '[') ∧
      (splitTag (trimStart (h.tagged ++ '{' :: t))).1 = h.decl.tag ∧
        trimStart (splitTag (trimStart (h.tagged ++ '{' :: t))).2 = '{' :: t := by
  have brace : trimStart ('{' :: t) = '{' :: t := trimStart_cons t (by decide)
  have braced : trimStart (h.opening.val ++ '{' :: t) = '{' :: t := by
    rw [trimStart_append h.opening.property, brace]
  rw [HeaderSpelling.tagged, HeaderSpelling.decl, List.append_assoc]
  cases h.tag with
  | none =>
    have untagged : splitTag ('{' :: t) = (none, '{' :: t) := by simp [splitTag, isIdentStart]
    simp [braced, untagged, brace]
  | some tag =>
    obtain ⟨gap, ident⟩ := tag
    have stop : ∀ c ∈ (h.opening.val ++ '{' :: t).head?, isIdentChar c = false :=
      h.opening.head?_append (fun _ => isIdentChar_of_isBlank) (by simp; decide)
    have trimmed : trimStart (gap.val ++ ident.text ++ (h.opening.val ++ '{' :: t)) =
        ident.text ++ (h.opening.val ++ '{' :: t) := by
      rw [List.append_assoc, trimStart_append gap.property, Identifier.text, List.cons_append,
        trimStart_cons _ ident.first_dark]
    simp only [Option.elim_some, Option.map_some, trimmed, splitTag_append ident stop, braced]
    simp [Identifier.text, ident.first_ne_bracket]

-- A word character right behind the keyword would make it the start of a longer word.
theorem head?_behind_keyword (h : HeaderSpelling) (t : Text) :
    ∀ c ∈ (h.attributes.flatMap AttributeSpelling.write ++ (h.tagged ++ '{' :: t)).head?,
      isWordChar c = false := by
  have dark (c : Char) := isWordChar_of_isBlank (c := c)
  cases attributes : h.attributes with
  | nil =>
    cases tag : h.tag with
    | none =>
      simp only [List.flatMap_nil, List.nil_append, HeaderSpelling.tagged, tag, Option.elim_none]
      exact h.opening.head?_append dark (by simp; decide)
    | some tagged =>
      obtain ⟨c, r, gap⟩ := List.exists_cons_of_ne_nil (h.apart attributes tagged tag)
      have blank := allBlank_iff.mp tagged.1.property c (by simp [gap])
      simpa [HeaderSpelling.tagged, tag, gap] using dark c blank
  | cons a as =>
    simp only [List.flatMap_cons, AttributeSpelling.write, List.append_assoc]
    exact a.gap.head?_append dark (by simp; decide)

theorem read?_write (h : HeaderSpelling) (t : Text) :
    read? (h.write ++ '{' :: t) = some (h.decl, t) := by
  obtain ⟨bracket, tag, brace⟩ := splitTag_tagged h t
  have attributes : dropAttributes? false
      (h.attributes.flatMap AttributeSpelling.write ++ (h.tagged ++ '{' :: t)) =
        some (trimStart (h.tagged ++ '{' :: t)) := by
    rw [dropAttributes?_write, dropAttributes?_plain bracket]
  rw [HeaderSpelling.write, List.append_assoc, List.append_assoc,
    read?_keyword h.kind (head?_behind_keyword h t) attributes, brace, tag]
  rfl

theorem splitTag_subset (s : Text) : (splitTag s).2 ⊆ s := by
  cases s with
  | nil => simp [splitTag]
  | cons c r =>
    by_cases start : isIdentStart c = true
    · simp only [splitTag, start, if_true]
      intro d member
      exact List.mem_cons_of_mem c ((List.dropWhile_sublist isIdentChar).subset member)
    · simp [splitTag, start]

theorem splitTag_append_cons (s : Text) {c : Char} (stop : isIdentChar c = false) (t : Text) :
    splitTag (s ++ c :: t) = ((splitTag s).1, (splitTag s).2 ++ c :: t) := by
  have stopped : ∀ d ∈ (c :: t).head?, isIdentChar d = false := by simpa using stop
  cases s with
  | nil =>
    have start : isIdentStart c = false := by
      rw [Bool.eq_false_iff]
      intro start
      rw [isIdentChar_of_isIdentStart c start] at stop
      contradiction
    simp [splitTag, start]
  | cons d r =>
    by_cases start : isIdentStart d = true
    · simp only [List.cons_append, splitTag, start, if_true, takeWhile_append_before r stopped,
        dropWhile_append_before r stopped]
    · simp [splitTag, start]

theorem splitTag_semicolon (s rest : Text) :
    splitTag (s ++ ';' :: rest) = ((splitTag s).1, (splitTag s).2 ++ ';' :: rest) :=
  splitTag_append_cons s (by decide) rest

theorem keyword?_semicolon {x rest r : Text} {kind : Kind}
    (found : keyword? (x ++ ';' :: rest) = some (kind, r)) :
    ∃ y, x = kind.keyword ++ y ∧ r = y ++ ';' :: rest := by
  rcases List.append_eq_append_iff.mp (append_of_keyword? found) with
    ⟨z, keyword, tail⟩ | ⟨y, whole, rest⟩
  · cases z with
    | nil => exact ⟨[], by simpa using keyword.symm, by simpa using tail.symm⟩
    | cons c z =>
      obtain rfl : ';' = c := by simpa using congrArg List.head? tail
      have semicolon : ';' ∈ kind.keyword := by simp [keyword]
      exact absurd semicolon (by cases kind <;> decide)
  · exact ⟨y, whole, rest⟩

-- No brace stands before the semicolon, so none is found behind a tag.
theorem read?_unbraced {x : Text} (unbraced : '{' ∉ x) (rest : Text)
    (bracket : ∀ kind y, x = Kind.keyword kind ++ y → (∀ c ∈ y.head?, isWordChar c = false) →
      ∀ c ∈ (trimStart y).head?, c ≠ '[') :
    read? (x ++ ';' :: rest) = none := by
  cases found : keyword? (x ++ ';' :: rest) with
  | none => simp [read?, found]
  | some result =>
    obtain ⟨kind, r⟩ := result
    obtain ⟨y, rfl, rfl⟩ := keyword?_semicolon found
    cases word : (y ++ ';' :: rest).head?.any isWordChar with
    | true => simp only [read?, found, Option.bind_eq_bind, Option.bind_some, word, if_true]
    | false =>
      have apart : ∀ c ∈ (y ++ ';' :: rest).head?, isWordChar c = false := by
        intro c first
        simpa [Option.mem_def.mp first] using word
      have inner : ∀ c ∈ y.head?, isWordChar c = false := by
        intro c first
        exact apart c (by simp [List.head?_append, Option.mem_def.mp first])
      have plain : ∀ c ∈ (trimStart (y ++ ';' :: rest)).head?, c ≠ '[' := by
        rw [trimStart_semicolon]
        cases front : trimStart y with
        | nil => simp
        | cons d t =>
          intro c first
          obtain rfl : d = c := by simpa using first
          exact bracket kind y rfl inner d (by simp [front])
      have within : ∀ c ∈ trimStart (splitTag (trimStart y)).2, c ≠ '{' := by
        rintro c member rfl
        have tagged := splitTag_subset _ ((List.dropWhile_sublist isBlank).subset member)
        have here := (List.dropWhile_sublist isBlank).subset tagged
        exact unbraced (List.mem_append_right _ here)
      rw [List.append_assoc, read?_keyword kind apart (dropAttributes?_plain plain),
        trimStart_semicolon, splitTag_semicolon, trimStart_semicolon]
      cases front : trimStart (splitTag (trimStart y)).2 with
      | nil => rfl
      | cons c t =>
        have opens : c ≠ '{' := within c (by simp [front])
        simp [opens]

theorem head?_trimStart_name {s : Text} (plain : ∀ c ∈ s, c ≠ '[') (i : Identifier) (t : Text) :
    ∀ c ∈ (trimStart (s ++ (i.text ++ t))).head?, c ≠ '[' := by
  have first : ∀ c ∈ (i.text ++ t).head?, isBlank c = false := by
    intro c member
    obtain rfl : i.first = c := by simpa [Identifier.text] using member
    exact i.first_dark
  rw [trimStart, dropWhile_append_before s first]
  cases front : s.dropWhile isBlank with
  | nil =>
    intro c member same
    obtain rfl : i.first = c := by simpa [Identifier.text] using member
    exact i.first_ne_bracket same
  | cons d r =>
    intro c member
    obtain rfl : d = c := by simpa using member
    exact plain d ((List.dropWhile_sublist isBlank).subset (front ▸ List.mem_cons_self))

-- A keyword in front of a field belongs to its type: it cannot reach into the name.
theorem read?_field (f : FieldSpelling) (rest : Text) :
    read? (trimStart f.statement ++ ';' :: rest) = none := by
  apply read?_unbraced
  · intro member
    exact not_mem_of_plain f.plain rfl ((List.dropWhile_sublist isBlank).subset member)
  · intro kind y whole _
    rw [FieldSpelling.statement, List.append_assoc, trimStart_append_right f.named] at whole
    obtain ⟨z, type, tail⟩ : ∃ z, trimStart f.type = kind.keyword ++ z ∧
        y = z ++ (f.declarator.write ++ f.gap.val) := by
      rcases List.append_eq_append_iff.mp whole with ⟨z, keyword, tail⟩ | split
      · cases last : (trimStart f.type).getLast? with
        | none =>
          rw [List.getLast?_eq_none_iff] at last
          exact absurd last (trimStart_ne_nil f.named)
        | some c =>
          have member : c ∈ kind.keyword := by
            rw [keyword]
            exact List.mem_append_left z (List.mem_of_getLast? last)
          have word := isWordChar_of_isIdentChar (kind.isIdentChar_keyword c member)
          rw [getLast?_trimStart f.named] at last
          have other := f.apart
          simp [Declarator.endsInWord, last, word] at other
      · exact split
    have plain : ∀ c ∈ z, c ≠ '[' := by
      intro c member
      have here : c ∈ trimStart f.type := type ▸ List.mem_append_right _ member
      exact (f.typePlain c ((List.dropWhile_sublist isBlank).subset here)).2.1
    rw [tail, DeclaratorSpelling.write, List.append_assoc]
    exact head?_trimStart_name plain f.declarator.ident _

end BlockHeader

theorem BlockTail.read_of_cut {after front rest : Text} (cut : cutAt ';' after = (front, rest))
    (declarator : Option (Blanks × DeclaratorSpelling)) (gap : Blanks)
    (written : front = declarator.elim [] (fun d => d.1.val ++ d.2.write) ++ gap.val) :
    read after = ⟨declarator.map (·.2.decl), [], rest⟩ := by
  cases declarator with
  | none =>
    have blank : trim front = [] := by
      simp [written, trim, trimStart_eq_nil gap.property, trimEnd]
    simp [read, cut, blank]
  | some d =>
    obtain ⟨lead, d⟩ := d
    have first : ∀ c ∈ d.write.head?, isBlank c = false := by
      simpa [DeclaratorSpelling.write, Identifier.text] using d.ident.first_dark
    have trimmed : trim front = d.write := by
      rw [written, Option.elim_some, trim_append_right _ gap.property,
        trim_append_left lead.property]
      exact trim_eq_self first d.getLast?_write
    have whole : Declarator.read? d.write = some d.decl := by
      simpa using Declarator.read?_write d ⟨[], rfl⟩
    simp [read, cut, trimmed, whole, d.write_ne_nil]

theorem BlockTail.read_trailer (b : BlockSpelling) (rest : Text) :
    BlockTail.read (b.trailer ++ ';' :: rest) =
      ⟨b.declarator.map (·.2.decl), [], rest⟩ :=
  read_of_cut (cutAt_append (not_mem_of_plain b.trailer_plain rfl)) b.declarator b.gap rfl

namespace Piece

theorem next?_cases {s rest : Text} {piece : Piece} (next : next? s = some (piece, rest)) :
    (piece = .statement (cutAt ';' (trimStart s)).1 ∧ rest = (cutAt ';' (trimStart s)).2) ∨
      ∃ header opened, BlockHeader.read? (trimStart s) = some (header, opened) ∧
        ((splitAtClose 0 opened = none ∧ piece = .unclosed ('{' :: opened)) ∨
          ∃ inner after source, splitAtClose 0 opened = some (inner, after) ∧
            piece = .block
              ⟨header.kind, header.tag, (BlockTail.read after).declarator, source⟩ inner
              (BlockTail.read after).stray ∧
            rest = (BlockTail.read after).rest) := by
  simp only [next?] at next
  split at next
  · simp at next
  · split at next
    · obtain ⟨rfl, rfl⟩ := Prod.mk.inj (Option.some.inj next)
      exact .inl ⟨rfl, rfl⟩
    · rename_i header opened read
      refine .inr ⟨header, opened, read, ?_⟩
      split at next
      · obtain ⟨rfl, -⟩ := Prod.mk.inj (Option.some.inj next)
        exact .inl ⟨‹_›, rfl⟩
      · rename_i inner after closed
        obtain ⟨rfl, rfl⟩ := Prod.mk.inj (Option.some.inj next)
        exact .inr ⟨inner, after, _, closed, rfl, rfl⟩

theorem next?_field (f : FieldSpelling) (rest : Text) :
    next? (f.write ++ rest) = some (.statement (trimStart f.statement), rest) := by
  have plain : ∀ c ∈ trimStart f.statement, isMark c = false := by
    intro c member
    exact f.plain c ((List.dropWhile_sublist isBlank).subset member)
  have cut := cutAt_append (t := rest) (not_mem_of_plain plain (c := ';') rfl)
  rw [FieldSpelling.write, List.append_assoc, List.singleton_append, next?, trimStart_semicolon]
  simp [BlockHeader.read?_field, cut]

theorem next?_header (lead : Blanks) (h : HeaderSpelling) {opened inner after : Text}
    (closed : splitAtClose 0 opened = some (inner, after)) :
    let text := h.write ++ '{' :: opened
    let tail := BlockTail.read after
    next? (lead.val ++ text) =
      some (.block ⟨h.kind, h.decl.tag, tail.declarator,
        trim (text.take (text.length - tail.rest.length))⟩ inner tail.stray, tail.rest) := by
  have start : trimStart (h.write ++ '{' :: opened) = h.write ++ '{' :: opened := by
    simp only [HeaderSpelling.write, List.append_assoc, trimStart_keyword]
  have nonempty : h.write ++ '{' :: opened ≠ [] := by simp
  simp only [next?, trimStart_append lead.property, start, List.isEmpty_iff, nonempty, if_false,
    BlockHeader.read?_write, closed]
  rfl

theorem next?_block (b : BlockSpelling) {members : Text} (balanced : Balanced members)
    (rest : Text) :
    next? (b.lead.val ++ b.source members ++ rest) =
      some (.block (b.decl members) (members ++ b.closing.val) [], rest) := by
  have inner : Balanced (members ++ b.closing.val) :=
    balanced.append (.of_unmarked b.closing.plain)
  have shape : b.source members ++ rest =
      b.heading.write ++
        '{' :: (members ++ b.closing.val ++ '}' :: (b.trailer ++ ';' :: rest)) := by
    simp [BlockSpelling.source, b.write_heading]
  have source : trim (b.source members) = b.source members := by
    rw [trim, BlockSpelling.source, BlockSpelling.header]
    simp only [List.append_assoc, trimStart_keyword, ← List.cons_append]
    simp only [← List.append_assoc]
    exact trimEnd_concat _ (by decide)
  have next := next?_header b.lead b.heading (inner.splitAtClose_close (b.trailer ++ ';' :: rest))
  simp only [← shape, BlockTail.read_trailer, b.decl_heading, List.length_append,
    Nat.add_sub_cancel, List.take_left, source] at next
  rw [List.append_assoc, next]
  rfl

end Piece

theorem statements_none {s : Text} (next : Piece.next? s = none) : statements s = .ok [] := by
  rw [statements]
  split <;> simp_all

theorem statements_blank {s : Text} (blank : allBlank s = true) : statements s = .ok [] := by
  apply statements_none
  simp [Piece.next?, trimStart_eq_nil blank]

theorem statements_statement {s text rest : Text}
    (next : Piece.next? s = some (.statement text, rest)) :
    statements s =
      (statements rest).map fun later =>
        match FieldDecl.read? text with
        | some f => .field f :: later
        | none => later := by
  rw [statements]
  split
  · simp_all
  · rename_i text' rest' same
    obtain ⟨rfl, rfl⟩ : text = text' ∧ rest = rest' := by simpa [next] using same
    cases statements rest <;> cases FieldDecl.read? text <;> rfl
  · simp_all
  · simp_all

theorem statements_block {s inner stray rest : Text} {b : BlockDecl}
    (next : Piece.next? s = some (.block b inner stray, rest)) :
    statements s = (do
      let members ← statements inner
      let later ← statements rest
      .ok (.block b members :: later)) := by
  rw [statements]
  split
  · simp_all
  · simp_all
  · rename_i b' inner' stray' rest' same
    obtain ⟨⟨rfl, rfl, rfl⟩, rfl⟩ :
        (b = b' ∧ inner = inner' ∧ stray = stray') ∧ rest = rest' := by simpa [next] using same
    rfl
  · simp_all

theorem statements_unclosed {s rest rest' : Text}
    (next : Piece.next? s = some (.unclosed rest, rest')) : statements s = .error rest := by
  rw [statements]
  split <;> simp_all

theorem segment_eq_ok {body : Text} {ms : List Statement} :
    segment body = .ok ms ↔ statements body = .ok ms := by
  cases read : statements body <;> simp [segment, read, Except.mapError]

namespace Spelling

theorem balanced_writeAll (ms : List Spelling) : Balanced (writeAll ms) := by
  induction ms using MemberTree.members_induction with
  | nil => exact .nil
  | field f ms ih =>
    have plain : ∀ c ∈ f.write, c ≠ '{' ∧ c ≠ '}' := by
      intro c member
      rcases List.mem_append.mp member with inside | last
      · have unmarked := f.plain c inside
        constructor <;> rintro rfl <;> exact absurd unmarked (by decide)
      · rw [List.mem_singleton.mp last]
        decide
    exact (Balanced.of_plain plain).append ih
  | block b inner ms ihInner ih =>
    have body : Balanced (writeAll inner ++ b.closing.val) :=
      ihInner.append (.of_unmarked b.closing.plain)
    have last : Balanced (b.trailer ++ [';']) :=
      (Balanced.of_unmarked b.trailer_plain).append (.of_plain (by simp))
    have whole := (Balanced.of_unmarked b.lead.plain).append
      ((Balanced.of_unmarked b.header_plain).append ((Balanced.pair body last).append ih))
    simpa [writeAll, write, BlockSpelling.source] using whole

theorem statements_writeAll (ms : List Spelling) (tail : Blanks) :
    statements (writeAll ms ++ tail.val) = .ok (statementsOf ms) := by
  induction ms using MemberTree.members_induction generalizing tail with
  | nil => exact statements_blank tail.property
  | field f ms ih =>
    have next := Piece.next?_field f (writeAll ms ++ tail.val)
    have read : FieldDecl.read? (trimStart f.statement) = some f.decl := by
      rw [FieldDecl.read?, trim_trimStart]
      exact FieldDecl.read?_statement f
    rw [writeAll, write, List.append_assoc, statements_statement next, ih, read]
    rfl
  | block b inner ms ihInner ih =>
    have next := Piece.next?_block b (balanced_writeAll inner) (writeAll ms ++ tail.val)
    rw [writeAll, write, List.append_assoc, statements_block next, ihInner, ih]
    rfl

-- Every list of spelled members is read back as it was written, each name without the blanks
-- that its spelling has before and inside the brackets.
theorem segment_writeAll (ms : List Spelling) (tail : Blanks) :
    segment (writeAll ms ++ tail.val) = .ok (statementsOf ms) ∧
      ∀ d : DeclaratorSpelling, d.decl.text = squash d.write := by
  constructor
  · exact segment_eq_ok.mpr (statements_writeAll ms tail)
  · exact DeclaratorSpelling.text_decl

end Spelling

-- A declaration with a block in it, and its members spelled out.
def nestedText : Text := "struct S\x7bunion\x7bINT a;CHAR b;\x7du[2];INT c[3];\x7d;".toList

def nestedMembers : List Spelling :=
  let bare : Blanks := ⟨[], rfl⟩
  let name (c : Char) (start : isIdentStart c = true) : Identifier := ⟨c, [], start, by simp⟩
  let index (c : Char) (plain : c ≠ '[' ∧ c ≠ ']') : DimSpelling :=
    ⟨bare, [c], by simpa using plain⟩
  let field (type : Text) (declarator : DeclaratorSpelling)
      (named : allBlank type = false)
      (typePlain : ∀ c ∈ type ++ [' '], isMark c = false ∧ c ≠ '[' ∧ c ≠ ']')
      (declaratorPlain : ∀ c ∈ declarator.write, isMark c = false) : Spelling :=
    .field ⟨type ++ [' '], declarator, bare,
      by rw [allBlank, List.all_append, ← allBlank, named]; rfl, typePlain, by simp; decide,
      declaratorPlain⟩
  [.block ⟨bare, .union, .none, bare, bare, some (bare, ⟨name 'u' rfl, [index '2' (by decide)]⟩),
      bare, by simpa using forall_mem_of_all (by decide)⟩
    [field "INT".toList ⟨name 'a' rfl, []⟩ rfl (forall_mem_of_all (by decide))
        (forall_mem_of_all (by decide)),
      field "CHAR".toList ⟨name 'b' rfl, []⟩ rfl (forall_mem_of_all (by decide))
        (forall_mem_of_all (by decide))],
    field "INT".toList ⟨name 'c' rfl, [index '3' (by decide)]⟩ rfl (forall_mem_of_all (by decide))
      (forall_mem_of_all (by decide))]

def nestedShell : Shell :=
  ⟨"struct S\x7b".toList, Spelling.writeAll nestedMembers, ['}', ';'], .struct, some ['S']⟩

theorem split_nestedText : Shell.split (normalize nestedText) = .ok nestedShell := by decide

theorem segment_nestedMembers :
    segment (Spelling.writeAll nestedMembers) = .ok (Spelling.statementsOf nestedMembers) := by
  have statements := Spelling.statements_writeAll nestedMembers ⟨[], rfl⟩
  rw [List.append_nil] at statements
  exact segment_eq_ok.mpr statements

end MemberOffsets
