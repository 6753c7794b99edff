import MemberOffsets.Proofs.Declaration.Enclosure
import MemberOffsets.Proofs.Layout.Listing
import MemberOffsets.Proofs.Layout.Resolution

set_option autoImplicit false

namespace MemberOffsets

open Text

structure FieldDecl.Tidy (f : FieldDecl) : Prop where
  type : collapse f.type = f.type
  named : f.type ≠ []
  name : ∀ c ∈ f.name, isBlank c = false

structure BlockDecl.Tidy (b : BlockDecl) : Prop where
  tag : ∀ t ∈ b.tag, t ≠ [] ∧ ∀ c ∈ t, isBlank c = false
  name : ∀ d ∈ b.name, ∀ c ∈ d, isBlank c = false

theorem Declarator.From.dark {text : Text} {d : Declarator} (origin : d.From text) :
    ∀ c ∈ d.text, isBlank c = false := by
  obtain ⟨w, -, -, rfl⟩ := origin
  intro c member
  rw [w.text_decl] at member
  exact (mem_squash.mp member).2

theorem FieldDecl.From.tidy {text : Text} {f : FieldDecl} (origin : f.From text) : f.Tidy := by
  obtain ⟨⟨s, -, -, nonempty, same⟩, declarator⟩ := origin
  exact ⟨by rw [same, collapse_collapse], same ▸ nonempty, declarator.dark⟩

theorem FieldDecl.From.singleLine {text : Text} {f : FieldDecl} (origin : f.From text) :
    f.SingleLine := by
  obtain ⟨⟨s, -, -, -, same⟩, w, -, -, declarator⟩ := origin
  constructor
  · exact same ▸ newline_not_mem_collapse s
  · intro dim among
    rw [FieldDecl.dims, declarator, DeclaratorSpelling.decl, List.mem_map] at among
    obtain ⟨spelled, -, rfl⟩ := among
    exact newline_not_mem_collapse spelled.inside

theorem BlockDecl.From.tidy {text : Text} {b : BlockDecl} (origin : b.From text) : b.Tidy := by
  constructor
  · intro t among
    obtain ⟨i, rfl⟩ := origin.tag t among
    exact ⟨by simp [Identifier.text],
      fun c member => isBlank_of_isIdentChar (i.isIdentChar c member)⟩
  · intro name among
    obtain ⟨d, here, rfl⟩ := Option.map_eq_some_iff.mp among
    exact (origin.declarator d here).dark

theorem collapse_semicolon {s : Text} (dark : ∀ c ∈ s, isBlank c = false) :
    collapse (s ++ [';']) = s ++ [';'] := by
  have semicolon : isBlank ';' = false := by decide
  apply collapse_of_dark
  simpa only [List.forall_mem_append, List.forall_mem_singleton] using ⟨dark, semicolon⟩

theorem FieldDecl.Tidy.collapsed {f : FieldDecl} (tidy : f.Tidy) :
    collapse (f.type ++ ' ' :: f.name ++ [';']) = f.type ++ ' ' :: f.name ++ [';'] := by
  have whole := collapse_append tidy.named (by simp) tidy.type (collapse_semicolon tidy.name)
  simpa using whole

namespace BlockDecl.Tidy

variable {b : BlockDecl} (tidy : b.Tidy)

include tidy

theorem collapsed_opening : collapse (b.kind.keyword ++ b.tag.elim [] (' ' :: ·) ++ [' ', '{']) =
    b.kind.keyword ++ b.tag.elim [] (' ' :: ·) ++ [' ', '{'] := by
  have keyword : collapse b.kind.keyword = b.kind.keyword := by cases b.kind <;> decide
  have full : b.kind.keyword ≠ [] := by cases b.kind <;> decide
  have brace : collapse ['{'] = ['{'] := by decide
  cases tag : b.tag with
  | none => simpa using collapse_append full (by simp) keyword brace
  | some t =>
    obtain ⟨nonempty, dark⟩ := tidy.tag t tag
    have tagged := collapse_append full nonempty keyword (collapse_of_dark dark)
    simpa using collapse_append (by simp) (by simp) tagged brace

theorem collapsed_closing : collapse ('}' :: b.name.elim [] (' ' :: ·) ++ [';']) =
    '}' :: b.name.elim [] (' ' :: ·) ++ [';'] := by
  have brace : collapse ['}'] = ['}'] := by decide
  cases name : b.name with
  | none => decide
  | some d =>
    simpa using collapse_append (by simp) (by simp) brace (collapse_semicolon (tidy.name d name))

end BlockDecl.Tidy

theorem annotatedBy_line {f : SizedField} (tidy : f.decl.Tidy) {offset : Nat}
    (inRange : offset ≤ wordMax) (single : '\n' ∉ (f.placeAt offset).status.note) (depth : Nat) :
    ((f.placeAt offset).listingLine depth).AnnotatedBy (f.placeAt offset).line := by
  have placed := fieldPlaced_placeAt f inRange
  have collapsed := tidy.collapsed
  rw [← placed.type, ← placed.name] at collapsed
  apply annotatedBy_comment _ collapsed placed.inRange single (f.placeAt offset).marker_note
  rw [Figure.comment_offsetAfter]
  simp [FieldNode.line]

theorem annotatedBy_openingLine {b : BlockDecl} (tidy : b.Tidy) (entry : Nat) (ns : List Node)
    (depth : Nat) :
    ((b.placeAt entry ns).openingListed depth).AnnotatedBy (b.placeAt entry ns).openingLine :=
  ⟨tidy.collapsed_opening, by simp [BlockNode.openingListed], rfl⟩

theorem annotatedBy_closingLine {b : BlockDecl} (tidy : b.Tidy) {entry : Nat}
    (inRange : entry ≤ wordMax) (ns : List Node) (depth : Nat) :
    ((b.placeAt entry ns).closingListed depth).AnnotatedBy (b.placeAt entry ns).closingLine := by
  have placed := blockPlaced_placeAt b ns inRange
  apply annotatedBy_comment _ tidy.collapsed_closing placed.inRange List.not_mem_nil
    not_marked_resolved
  rw [Figure.comment_offsetAfter]
  simp [BlockNode.closingLine, FieldStatus.note_resolved, BlockDecl.placeAt]

theorem annotatedBy_annotatedAll {ms : List SizedStatement}
    (fields : ∀ f ∈ MemberTree.leavesOf ms,
      f.decl.Tidy ∧ ∀ offset, '\n' ∉ (f.placeAt offset).status.note)
    (blocks : ∀ b ∈ MemberTree.blocksOf ms, b.Tidy) (kind : Kind) {entry : Nat}
    (inRange : entry ≤ wordMax) (depth : Nat) :
    List.Forall₂ ListingLine.AnnotatedBy (Node.annotatedAll (placeMembers kind ms entry))
      (Node.listingAll depth (placeMembers kind ms entry)) := by
  induction ms using MemberTree.members_induction generalizing kind entry depth with
  | nil => simp [Node.annotatedAll, Node.listingAll]
  | field f ms ih =>
    rw [placeMembers_cons]
    -- The next member starts in range too, which is what its numerals need to be read back.
    have inside := kind.next_le (.field f) inRange
    have here := fields f (by simp [MemberTree.leavesOf, MemberTree.leaves])
    have rest := ih (fun g among => fields g (List.mem_append_right _ among))
      (fun b among => blocks b (List.mem_append_right _ among)) kind inside depth
    exact .cons (annotatedBy_line here.1 inRange (here.2 entry) depth) rest
  | block b inner ms ihInner ih =>
    rw [placeMembers_cons]
    have inside := kind.next_le (.block b inner) inRange
    rw [place_block] at inside ⊢
    have here := blocks b (by simp [MemberTree.blocksOf, MemberTree.blocks])
    have members := ihInner (fun g among => fields g (List.mem_append_left _ among))
      (fun c among => blocks c (List.mem_append_left _ (List.mem_cons_of_mem b among))) b.kind
      inRange (depth + 1)
    have rest := ih (fun g among => fields g (List.mem_append_right _ among))
      (fun c among => blocks c (List.mem_append_right _ among)) kind inside depth
    have opening := annotatedBy_openingLine here entry (placeMembers b.kind inner entry) depth
    have closing := annotatedBy_closingLine here inRange (placeMembers b.kind inner entry) depth
    have block := List.Forall₂.cons opening (List.rel_append members (.cons closing .nil))
    have whole := List.rel_append block rest
    simpa [Node.annotatedAll, Node.annotated, Node.listingAll, Node.listing] using whole

namespace Shell

theorem split_eq_bare {text : Text} {shell : Shell} (read : split text = .ok shell)
    (unshelled : shell.opening = []) : shell = bare text := by
  by_contra shelled
  obtain ⟨before, body, after, -, -, -, -, -, rfl⟩ := split_eq_enclosing read shelled
  exact opening_enclosing before body after unshelled

structure Edged (shell : Shell) : Prop where
  opening : collapse shell.opening = shell.opening
  closing : collapse shell.closing = shell.closing
  braces : if shell.opening = [] then shell.closing = []
    else shell.opening.getLast? = some '{' ∧ shell.closing.head? = some '}'

theorem edged_split {text : Text} {shell : Shell} (read : split text = .ok shell) :
    shell.Edged := by
  by_cases unshelled : shell.opening = []
  · obtain rfl := split_eq_bare read unshelled
    exact ⟨rfl, rfl, by simp [bare]⟩
  · obtain ⟨before, body, after, -, braceless, single, -, -, rfl⟩ :=
      split_eq_enclosing read (ne_bare unshelled)
    obtain ⟨s, opening, -⟩ := collapse_opening braceless single
    obtain ⟨t, closing, -⟩ := collapse_closing after
    refine ⟨collapse_collapse _, collapse_collapse _, ?_⟩
    rw [if_neg unshelled]
    simp [enclosing, opening, closing]

end Shell

namespace Resolution

variable {σ : Type} {p : Profile} {responder : Responder σ} {base : Nat} {s s' : σ} {text : Text}
  {r : Resolution} (resolved : ofText p responder text base s = .ok (r, s'))

include resolved

theorem edged : r.shell.Edged ∧ r.base = base := by
  obtain ⟨shell, split, ofShell⟩ := ofText_eq_ok.mp resolved
  obtain ⟨ms, -, rfl, -⟩ := ofShell_eq_ok.mp ofShell
  exact ⟨Shell.edged_split split, rfl⟩

theorem tidy_members :
    (∀ f ∈ MemberTree.leavesOf r.members,
      f.decl.Tidy ∧ ∀ offset, '\n' ∉ (f.placeAt offset).status.note) ∧
        ∀ b ∈ MemberTree.blocksOf r.members, b.Tidy := by
  obtain ⟨shell, -, ofShell⟩ := ofText_eq_ok.mp resolved
  obtain ⟨ms, segmented, rfl, -⟩ := ofShell_eq_ok.mp ofShell
  obtain ⟨fields, blocks⟩ := statements_from (segment_eq_ok.mp segmented)
  constructor
  · intro f among
    have single := newline_not_mem_notes p responder (fun f here => (fields f here).singleLine) s
    obtain ⟨decl, here, t, rfl⟩ := MemberTree.mem_leavesOf_traverseAll (p.sizeField responder) among
    exact ⟨(fields decl here).tidy, single _ among⟩
  · intro b among
    rw [Profile.sizeFields, MemberTree.blocksOf_traverseAll] at among
    exact (blocks b among).tidy

theorem annotatedBy_annotatedLines (inRange : base ≤ wordMax) :
    List.Forall₂ ListingLine.AnnotatedBy r.declaration.annotatedLines r.declaration.listing := by
  obtain ⟨edged, rfl⟩ := edged resolved
  obtain ⟨fields, blocks⟩ := tidy_members resolved
  have sizeFits : r.declaration.size ≤ wordMax := by
    have placed := blockPlaced_placeAt r.rootDecl r.root.members inRange
    have after := placed.offsetAfter
    have fits := placed.inRange
    change (r.rootDecl.placeAt r.base r.root.members).size ≤ wordMax
    omega
  have closing : ListingLine.AnnotatedBy
      (r.shell.closing ++ '\t' :: sizeComment r.declaration.size)
      ⟨0, r.shell.closing, some ⟨.size, r.declaration.size, false⟩⟩ := by
    apply annotatedBy_comment _ edged.closing sizeFits List.not_mem_nil not_marked_resolved
    rw [Figure.comment_size]
    simp [FieldStatus.note_resolved]
  have members (depth : Nat) : List.Forall₂ ListingLine.AnnotatedBy
      (Node.annotatedAll r.root.members) (Node.listingAll depth r.root.members) :=
    annotatedBy_annotatedAll fields blocks r.shell.kind inRange depth
  by_cases unshelled : r.shell.opening = []
  · have whole := List.rel_append (members 0) (.cons closing .nil)
    simpa [Declaration.annotatedLines, Declaration.listing, declaration, unshelled] using whole
  · have opening : ListingLine.AnnotatedBy r.shell.opening ⟨0, r.shell.opening, none⟩ :=
      ⟨edged.opening, unshelled, rfl⟩
    have whole := List.rel_append (.cons opening (members 1)) (.cons closing .nil)
    simpa [Declaration.annotatedLines, Declaration.listing, declaration, unshelled] using whole

theorem depths_listing (types : ∀ f ∈ r.declaration.root.fields, f.type.head? ≠ some '}') :
    Columns.depths 0 (r.declaration.listing.map ListingLine.code) =
      r.declaration.listing.map ListingLine.depth := by
  have braces := (edged resolved).1.braces
  have members := Columns.depths_listingAll r.declaration.root.members types
  have last (depth : Nat) (code : Text) (closes : depth = 0 ∨ depth = 1 ∧ code.head? = some '}') :
      Columns.depths depth [code] = [0] := by
    rcases closes with rfl | ⟨rfl, closes⟩
    · simp [Columns.depths]
    · simp [Columns.depths, closes]
  by_cases unshelled : r.shell.opening = []
  · have here := members 0 [r.shell.closing]
    rw [last 0 _ (.inl rfl)] at here
    simpa [Declaration.listing, declaration, unshelled] using here
  · rw [if_neg unshelled] at braces
    have here := members 1 [r.shell.closing]
    rw [last 1 _ (.inr ⟨rfl, braces.2⟩)] at here
    -- A closing brace in front of the opening line finds no depth to take back.
    have opening (codes : List Text) : Columns.depths 0 (r.shell.opening :: codes) =
        0 :: Columns.depths 1 codes := by
      simp [Columns.depths, braces.1]
    simpa [Declaration.listing, declaration, unshelled, opening] using here

end Resolution

/-- Whoever answers, a resolved declaration is printed line by line as its listing says, unless a
type starts with a closing brace. -/
theorem format_listing {σ : Type} (p : Profile) (responder : Responder σ) (text : Text)
    (base : Nat) (inRange : base ≤ wordMax) (s s' : σ) (d : Declaration)
    (resolved : p.resolveDeclaration responder text base s = .ok (d, s'))
    (types : ∀ f ∈ d.root.fields, f.type.head? ≠ some '}') :
    ∃ printed, Columns.format d.annotated = terminated printed ∧
      List.Forall₂ ListingLine.Shows printed d.listing := by
  obtain ⟨r, ofText, rfl⟩ := resolveDeclaration_eq_ok.mp resolved
  have annotated := Resolution.annotatedBy_annotatedLines ofText inRange
  have nested := Resolution.depths_listing ofText types
  exact Columns.format_listed annotated nested

theorem format_listing_nested :
    let responder := Responder.ofFunctions (fun _ => .notFound) (fun _ _ => none) (fun _ => false)
    ∃ d, 16 ≤ wordMax ∧ Profile.x64.resolveDeclaration responder nestedText 16 () = .ok (d, ()) ∧
      (∀ f ∈ d.root.fields, f.type.head? ≠ some '}') ∧
      ∃ printed, Columns.format d.annotated = terminated printed ∧
        List.Forall₂ ListingLine.Shows printed d.listing := by
  intro responder
  let r : Resolution := ⟨nestedShell, nestedSized, 16⟩
  have resolved : Profile.x64.resolveDeclaration responder nestedText 16 () =
      .ok (r.declaration, ()) :=
    resolveDeclaration_eq_ok.mpr
      ⟨r, by rw [Resolution.ofText_nestedText, sizeFields_nestedMembers], rfl⟩
  have placed : r.declaration.root.fields =
      [⟨"INT".toList, "a".toList, 4, 20, .resolved⟩, ⟨"CHAR".toList, "b".toList, 1, 17, .resolved⟩,
        ⟨"INT".toList, "c[3]".toList, 12, 36, .resolved⟩] := by rfl
  have types : ∀ f ∈ r.declaration.root.fields, f.type.head? ≠ some '}' := by
    rw [placed]
    decide
  exact ⟨_, by decide, resolved, types,
    format_listing Profile.x64 responder nestedText 16 (by decide) () () _ resolved types⟩

end MemberOffsets
