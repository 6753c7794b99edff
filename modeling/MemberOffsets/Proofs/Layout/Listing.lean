import MemberOffsets.Proofs.Layout.Columns
import MemberOffsets.Proofs.Text.Numerals

/-!
Listings: the lines that a printed declaration has to consist of, read off the tree alone, each with
the number of braces around it and the number that its comment states. Lining up annotated lines,
which knows the braces at their ends and no tree, prints what a listing says.
-/

set_option autoImplicit false

namespace MemberOffsets

open Text

inductive Quantity where
  | offsetAfter
  | size
deriving DecidableEq, Repr

def Quantity.label : Quantity → Text
  | .offsetAfter => "// ".toList
  | .size => "// size: ".toList

structure Figure where
  quantity : Quantity
  number : Nat
  isMarked : Bool
deriving DecidableEq, Repr

structure ListingLine where
  depth : Nat
  code : Text
  figure : Option Figure
deriving DecidableEq, Repr

def FieldNode.listingLine (depth : Nat) (f : FieldNode) : ListingLine :=
  ⟨depth, f.type ++ ' ' :: f.name ++ [';'], some ⟨.offsetAfter, f.offsetAfter, !f.isResolved⟩⟩

namespace BlockNode

def openingListed (depth : Nat) (b : BlockNode) : ListingLine :=
  ⟨depth, b.kind.keyword ++ b.tag.elim [] (' ' :: ·) ++ [' ', '{'], none⟩

def closingListed (depth : Nat) (b : BlockNode) : ListingLine :=
  ⟨depth, '}' :: b.declarator.elim [] (' ' :: ·) ++ [';'],
    some ⟨.offsetAfter, b.offsetAfter, false⟩⟩

end BlockNode

namespace Node

mutual

def listing (depth : Nat) : Node → List ListingLine
  | .field f => [f.listingLine depth]
  | .block b members =>
      b.openingListed depth :: listingAll (depth + 1) members ++ [b.closingListed depth]

def listingAll (depth : Nat) : List Node → List ListingLine
  | [] => []
  | m :: ms => listing depth m ++ listingAll depth ms

end

end Node

def Declaration.listing (d : Declaration) : List ListingLine :=
  (if d.opening.isEmpty then [] else [⟨0, d.opening, none⟩]) ++
    Node.listingAll (if d.opening.isEmpty then 0 else 1) d.root.members ++
      [⟨0, d.closing, some ⟨.size, d.size, false⟩⟩]

def StatesTwice (s : Text) (n : Nat) : Prop :=
  ∃ dec hex, s = dec ++ ": ".toList ++ hex ∧ "0x".toList <+: hex ∧
    (∀ c ∈ dec, c.isDigit = true) ∧ (∀ c ∈ hex, isIdentChar c = true) ∧
      parseOffset dec = .ok n ∧ parseOffset hex = .ok n

def Figure.ShownIn (comment : Text) (f : Figure) : Prop :=
  ∃ numerals note, comment = f.quantity.label ++ numerals ++ note ∧ StatesTwice numerals f.number ∧
    (∀ c ∈ note.head?, c = ' ') ∧ (' ' :: unresolvedMarker <+: note ↔ f.isMarked = true)

namespace ListingLine

def Shows (line : Text) (l : ListingLine) : Prop :=
  '\n' ∉ line ∧ (∀ c ∈ l.code.head?, isBlank c = false) ∧
    ∃ behind, line = List.replicate (4 * l.depth) ' ' ++ l.code ++ behind ∧
      match l.figure with
      | none => behind = []
      | some f => ∃ gap comment, 0 < gap ∧ behind = List.replicate gap ' ' ++ comment ∧
          f.ShownIn comment

end ListingLine

theorem numeralPair_eq (n : Nat) :
    numeralPair n = padded 4 (decimal n) ++ ": ".toList ++ ("0x".toList ++ padded 4 (hex n)) := by
  simp [numeralPair]

theorem statesTwice_numeralPair {n : Nat} (fits : n ≤ wordMax) :
    StatesTwice (numeralPair n) n :=
  ⟨_, _, numeralPair_eq n, List.prefix_append _ _, isDigit_of_mem_padded,
    isIdentChar_of_mem_prefixed, parseOffset_decimal fits, parseOffset_hex fits⟩

theorem getLast?_numeralPair (n : Nat) : ∀ c ∈ (numeralPair n).getLast?, isBlank c = false := by
  have nonempty : padded 4 (hex n) ≠ [] := by
    simp [padded, List.leftpad, hex, Nat.toDigits_ne_nil]
  intro c last
  rw [numeralPair, List.getLast?_append_of_ne_nil _ nonempty] at last
  exact isBlank_of_isIdentChar (isIdentChar_of_mem_padded c (List.mem_of_mem_getLast? last))

namespace FieldStatus

theorem note_resolved : note .resolved = [] := rfl

theorem note_unresolved (reason : Unresolved) :
    note (.unresolved reason) =
      ' ' :: unresolvedMarker ++ (" (".toList ++ reason.message ++ [')']) := by
  rw [← List.append_assoc, ← List.append_assoc]
  rfl

theorem note_arrayLengthIgnored (dim : Text) :
    note (.arrayLengthIgnored dim) =
      " **array length '".toList ++ dim ++ "' not evaluated**".toList :=
  rfl

theorem note_ends (s : FieldStatus) :
    (∀ c ∈ s.note.head?, c = ' ') ∧ ∀ c ∈ s.note.getLast?, isBlank c = false := by
  cases s with
  | resolved => simp [note_resolved]
  | unresolved reason =>
    rw [note_unresolved]
    refine ⟨by simp, fun c last => ?_⟩
    rw [← List.append_assoc, List.getLast?_concat] at last
    obtain rfl := Option.some.inj last
    decide
  | arrayLengthIgnored dim =>
    rw [note_arrayLengthIgnored]
    refine ⟨by simp, fun c last => ?_⟩
    rw [List.getLast?_append_of_ne_nil _ (by decide)] at last
    have ends : "' not evaluated**".toList.getLast? = some '*' := by decide
    rw [ends] at last
    obtain rfl := Option.some.inj last
    decide

theorem marker_note (s : FieldStatus) :
    ' ' :: unresolvedMarker <+: s.note ↔ ∃ reason, s = .unresolved reason := by
  cases s with
  | resolved => simp [note_resolved]
  | unresolved reason =>
    have marked := List.prefix_append (' ' :: unresolvedMarker)
      (" (".toList ++ reason.message ++ [')'])
    rw [note_unresolved]
    exact ⟨fun _ => ⟨reason, rfl⟩, fun _ => marked⟩
  | arrayLengthIgnored dim =>
    constructor
    · rw [note_arrayLengthIgnored, List.append_assoc]
      rintro ⟨rest, same⟩
      have fourth := congrArg (·[3]?) same
      simp only [List.getElem?_append_left (show 3 < (' ' :: unresolvedMarker).length by decide),
        List.getElem?_append_left (show 3 < " **array length '".toList.length by decide)] at fourth
      exact absurd fourth (by decide)
    · rintro ⟨reason, other⟩
      contradiction

end FieldStatus

theorem FieldNode.marker_note (f : FieldNode) :
    ' ' :: unresolvedMarker <+: f.status.note ↔ (!f.isResolved) = true := by
  rw [f.status.marker_note, isResolved]
  cases f.status <;> simp

theorem Quantity.label_single (q : Quantity) :
    (∃ rest, q.label = '/' :: rest) ∧ '\n' ∉ q.label := by
  cases q <;> exact ⟨⟨_, rfl⟩, by decide⟩

namespace Figure

def comment (f : Figure) (note : Text) : Text := f.quantity.label ++ numeralPair f.number ++ note

theorem comment_offsetAfter (n : Nat) (isMarked : Bool) (note : Text) :
    comment ⟨.offsetAfter, n, isMarked⟩ note = offsetComment n ++ note := rfl

theorem comment_size (n : Nat) (isMarked : Bool) (note : Text) :
    comment ⟨.size, n, isMarked⟩ note = sizeComment n ++ note := rfl

variable (f : Figure) {status : FieldStatus}

theorem shownIn_comment (fits : f.number ≤ wordMax)
    (marked : ' ' :: unresolvedMarker <+: status.note ↔ f.isMarked = true) :
    f.ShownIn (f.comment status.note) :=
  ⟨_, _, rfl, statesTwice_numeralPair fits, status.note_ends.1, marked⟩

theorem trim_comment : trim (f.comment status.note) = f.comment status.note := by
  obtain ⟨⟨rest, label⟩, -⟩ := f.quantity.label_single
  apply trim_eq_self
  · intro c first
    obtain rfl : '/' = c := by simpa [comment, label] using first
    decide
  · intro c last
    rw [comment] at last
    by_cases empty : status.note = []
    · have pair : numeralPair f.number ≠ [] := by simp [numeralPair]
      rw [empty, List.append_nil, List.getLast?_append_of_ne_nil _ pair] at last
      exact getLast?_numeralPair f.number c last
    · rw [List.getLast?_append_of_ne_nil _ empty] at last
      exact status.note_ends.2 c last

theorem newline_not_mem_comment (single : '\n' ∉ status.note) : '\n' ∉ f.comment status.note :=
  List.not_mem_append
    (List.not_mem_append f.quantity.label_single.2 (newline_not_mem_numeralPair f.number)) single

end Figure

def ListingLine.AnnotatedBy (line : Text) (l : ListingLine) : Prop :=
  collapse l.code = l.code ∧
    match l.figure with
    | none => l.code ≠ [] ∧ line = l.code
    | some f => ∃ comment, line = l.code ++ '\t' :: comment ∧ '\n' ∉ comment ∧
        trim comment = comment ∧ f.ShownIn comment

theorem annotatedBy_comment {line : Text} {depth : Nat} {code : Text} {f : Figure}
    {status : FieldStatus} (same : line = code ++ '\t' :: f.comment status.note)
    (collapsed : collapse code = code) (fits : f.number ≤ wordMax) (single : '\n' ∉ status.note)
    (marked : ' ' :: unresolvedMarker <+: status.note ↔ f.isMarked = true) :
    ListingLine.AnnotatedBy line ⟨depth, code, some f⟩ :=
  ⟨collapsed, _, same, f.newline_not_mem_comment single, f.trim_comment,
    f.shownIn_comment fits marked⟩

theorem not_marked_resolved :
    ' ' :: unresolvedMarker <+: FieldStatus.resolved.note ↔ false = true := by
  simp [FieldStatus.note_resolved]

namespace Columns

structure Lists (depth : Nat) (r : Row) (l : ListingLine) : Prop where
  collapsed : collapse l.code = l.code
  code : r.code = List.replicate (indentWidth * depth) ' ' ++ l.code
  comment : match l.figure with
    | none => r.comment = none
    | some f => ∃ comment, r.comment = some comment ∧ '\n' ∉ comment ∧ f.ShownIn comment

theorem lists_ofLine {line : Text} {l : ListingLine} (annotated : l.AnnotatedBy line) :
    ((Row.ofLine line).isKept = true ∧ '\n' ∉ line) ∧ Lists 0 (Row.ofLine line) l := by
  obtain ⟨depth, code, figure⟩ := l
  obtain ⟨collapsed, parts⟩ := annotated
  have untabbed : '\t' ∉ code := not_mem_of_collapsed collapsed (by decide) (by decide)
  have single : '\n' ∉ code := not_mem_of_collapsed collapsed (by decide) (by decide)
  have trimmed := trim_of_collapsed collapsed
  cases figure with
  | none =>
    obtain ⟨nonempty, rfl⟩ := parts
    rw [Row.ofLine_code untabbed, trimmed]
    exact ⟨⟨by simpa [Row.isKept] using nonempty, single⟩, collapsed, rfl, rfl⟩
  | some f =>
    obtain ⟨comment, rfl, commentSingle, commentTrimmed, shown⟩ := parts
    rw [Row.ofLine_noted untabbed, trimmed, commentTrimmed]
    have whole : '\n' ∉ code ++ '\t' :: comment :=
      List.not_mem_append single (by simpa using commentSingle)
    exact ⟨⟨by simp [Row.isKept], whole⟩, collapsed, rfl, comment, rfl, commentSingle, shown⟩

def depths : Nat → List Text → List Nat
  | _, [] => []
  | depth, code :: codes =>
      let depth := if code.head? = some '}' then depth - 1 else depth
      depth :: depths (if code.getLast? = some '{' then depth + 1 else depth) codes

def Row.indent (depth : Nat) (r : Row) : Row :=
  ⟨List.replicate (indentWidth * depth) ' ' ++ r.code, r.comment⟩

theorem indentFrom_eq (depth : Nat) (rs : List Row) :
    indentFrom depth rs = List.zipWith Row.indent (depths depth (rs.map Row.code)) rs := by
  induction rs generalizing depth with
  | nil => rfl
  | cons r rs ih => simp [indentFrom, depths, ih, Row.indent]

section Steps

variable (depth : Nat) (codes : List Text)

-- A field line neither opens nor closes, as long as its type does not start with a brace.
theorem depths_listingLine {f : FieldNode} (type : f.type.head? ≠ some '}') :
    depths depth ((f.listingLine depth).code :: codes) = depth :: depths depth codes := by
  have opens : (f.listingLine depth).code.getLast? ≠ some '{' := by
    rw [FieldNode.listingLine, List.getLast?_concat]
    decide
  have closes : (f.listingLine depth).code.head? ≠ some '}' := by
    cases start : f.type with
    | nil => simp [FieldNode.listingLine, start]
    | cons c r => simpa [FieldNode.listingLine, start] using type
  simp [depths, opens, closes]

theorem depths_openingListed (b : BlockNode) :
    depths depth ((b.openingListed depth).code :: codes) = depth :: depths (depth + 1) codes := by
  have opens : (b.openingListed depth).code.getLast? = some '{' := by
    simp [BlockNode.openingListed]
  have closes : (b.openingListed depth).code.head? ≠ some '}' := by
    obtain ⟨c, r, keyword, other⟩ : ∃ c r, b.kind.keyword = c :: r ∧ c ≠ '}' := by
      cases b.kind <;> exact ⟨_, _, rfl, by decide⟩
    simp [BlockNode.openingListed, keyword, other]
  simp [depths, opens, closes]

theorem depths_closingListed (b : BlockNode) :
    depths (depth + 1) ((b.closingListed depth).code :: codes) = depth :: depths depth codes := by
  have opens : (b.closingListed depth).code.getLast? ≠ some '{' := by
    rw [BlockNode.closingListed, List.getLast?_concat]
    decide
  have closes : (b.closingListed depth).code.head? = some '}' := rfl
  simp [depths, opens, closes]

end Steps

theorem depths_listingAll (ns : List Node)
    (types : ∀ f ∈ MemberTree.leavesOf ns, f.type.head? ≠ some '}') (depth : Nat)
    (codes : List Text) :
    depths depth ((Node.listingAll depth ns).map ListingLine.code ++ codes) =
      (Node.listingAll depth ns).map ListingLine.depth ++ depths depth codes := by
  induction ns using MemberTree.members_induction generalizing depth codes with
  | nil => rfl
  | field f ns ih =>
    have rest := ih (fun g among => types g (List.mem_append_right _ among)) depth codes
    have type := types f (by simp [MemberTree.leavesOf, MemberTree.leaves])
    simp only [Node.listingAll, Node.listing, List.cons_append, List.nil_append, List.map_cons,
      depths_listingLine depth _ type, rest]
    rfl
  | block b inner ns ihInner ih =>
    have rest := ih (fun g among => types g (List.mem_append_right _ among)) depth codes
    have inside := ihInner (fun g among => types g (List.mem_append_left _ among)) (depth + 1)
    simp only [Node.listingAll, Node.listing, List.cons_append, List.append_assoc, List.map_cons,
      List.map_append, List.nil_append, depths_openingListed depth _ b, inside,
      depths_closingListed depth _ b, rest]
    rfl

theorem lists_indent {rs : List Row} {ls : List ListingLine}
    (listed : List.Forall₂ (Lists 0) rs ls) :
    List.Forall₂ (fun r l => Lists l.depth r l)
      (List.zipWith Row.indent (ls.map ListingLine.depth) rs) ls := by
  induction listed with
  | nil => exact .nil
  | @cons r l rs ls here _ ih =>
    have code : (r.indent l.depth).code = List.replicate (indentWidth * l.depth) ' ' ++ l.code := by
      simp [Row.indent, here.code]
    exact .cons ⟨here.collapsed, code, here.comment⟩ ih

theorem codes_of_lists {rs : List Row} {ls : List ListingLine}
    (listed : List.Forall₂ (Lists 0) rs ls) : rs.map Row.code = ls.map ListingLine.code := by
  induction listed with
  | nil => rfl
  | cons here _ ih => simp [here.code, ih]

theorem shows_render {r : Row} {l : ListingLine} (lists : Lists l.depth r l) {column : Nat}
    (wide : r.comment.isSome = true → r.code.length < column) :
    l.Shows (r.render column) := by
  obtain ⟨depth, code, figure⟩ := l
  obtain ⟨collapsed, indented, comment⟩ := lists
  have codeSingle : '\n' ∉ code := not_mem_of_collapsed collapsed (by decide) (by decide)
  have single : '\n' ∉ r.code := by
    rw [indented]
    exact List.not_mem_append (by simp) codeSingle
  have first := (collapse_dark code).1
  rw [show collapse code = code from collapsed] at first
  cases figure with
  | none =>
    rw [Row.render, comment]
    exact ⟨single, first, [], by simp [indented, indentWidth], rfl⟩
  | some f =>
    obtain ⟨text, same, textSingle, shown⟩ := comment
    have gap : 0 < column - r.code.length := by
      have := wide (by simp [same])
      omega
    rw [Row.render, same]
    refine ⟨?_, first, List.replicate (column - r.code.length) ' ' ++ text,
      by simp [indented, indentWidth], _, text, gap, rfl, shown⟩
    exact List.not_mem_append (List.not_mem_append single (by simp)) textSingle

theorem format_listed {lines : List Text} {ls : List ListingLine}
    (annotated : List.Forall₂ ListingLine.AnnotatedBy lines ls)
    (nested : depths 0 (ls.map ListingLine.code) = ls.map ListingLine.depth) :
    ∃ printed, format (terminated lines) = terminated printed ∧
      List.Forall₂ ListingLine.Shows printed ls := by
  obtain ⟨single, read⟩ :=
    (List.forall₂_and_left _ _).mp (annotated.imp fun _ _ => lists_ofLine)
  have listed := List.forall₂_map_left_iff.mpr read
  have rows_eq : rows (terminated lines) =
      List.zipWith Row.indent (ls.map ListingLine.depth) (lines.map Row.ofLine) := by
    rw [rows_terminated (fun l member => (single l member).2) (fun l member => (single l member).1),
      indentFrom_eq, codes_of_lists listed, nested]
  have placed := lists_indent listed
  rw [← rows_eq] at placed
  have wide : ∀ r ∈ rows (terminated lines), r.comment.isSome = true →
      r.code.length < column (rows (terminated lines)) := fun r member => length_lt_column member
  refine ⟨(rows (terminated lines)).map (Row.render (column (rows (terminated lines)))), rfl, ?_⟩
  rw [List.forall₂_map_left_iff]
  apply ((List.forall₂_and_left _ _).mpr ⟨wide, placed⟩).imp
  intro r l here
  exact shows_render here.2 here.1

end Columns

end MemberOffsets
