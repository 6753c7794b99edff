import MemberOffsets.Proofs.Declaration.Leading
import MemberOffsets.Proofs.Declaration.Normalization
import MemberOffsets.Proofs.Layout.Placement
import MemberOffsets.Proofs.Layout.Resolution

set_option autoImplicit false

namespace MemberOffsets

open Text

theorem Profile.sizeFields_nil {σ : Type} (p : Profile) (responder : Responder σ) (s : σ) :
    p.sizeFields responder [] s = ([], s) := by
  simp [sizeFields, MemberTree.traverseAll]

theorem Profile.sizeFields_field {σ : Type} (p : Profile) (responder : Responder σ) (f : FieldDecl)
    (s : σ) :
    p.sizeFields responder [.field f] s =
      ([.field (p.sizeField responder f s).1], (p.sizeField responder f s).2) := by
  simp [sizeFields, MemberTree.traverseAll, MemberTree.traverse]

-- A block without an array suffix is placed like a whole declaration, its declarator apart.
theorem placeBlock_root {b : BlockDecl} (single : b.dims = []) (ms : List SizedStatement)
    (entry : Nat) :
    placeBlock (.root b.kind b.tag) ms entry =
      ⟨{ (placeBlock b ms entry).block with declarator := none },
        (placeBlock b ms entry).members⟩ := by
  have count : (BlockDecl.root b.kind b.tag).count = b.count := by
    rw [BlockDecl.count, BlockDecl.count, single]
    rfl
  simp only [placeBlock, BlockDecl.placeAt, count]
  rfl

theorem placeMembers_block (b : BlockDecl) (ms later : List SizedStatement) (entry : Nat) :
    placeMembers .struct (.block b ms :: later) entry =
      .block (placeBlock b ms entry).block (placeBlock b ms entry).members ::
        placeMembers .struct later (placeBlock b ms entry).block.offsetAfter := by
  rw [placeMembers_cons, place_block]
  rfl

section

variable {σ : Type} (p : Profile) (responder : Responder σ) (base : Nat) (s : σ) {text : Text}

theorem resolveDeclaration_bare
    (split : Shell.split (normalize text) = .ok (.bare (normalize text))) {a : Aggregate} {s' : σ}
    (resolved : p.resolveBody responder text base s = .ok (a, s')) :
    ∃ d, p.resolveDeclaration responder text base s = .ok (d, s') ∧ d.root = a := by
  obtain ⟨r, ofShell, rfl⟩ := resolveBody_eq_ok.mp resolved
  have ofText := Resolution.ofText_eq_ok.mpr ⟨_, split, ofShell⟩
  exact ⟨r.declaration, resolveDeclaration_eq_ok.mpr ⟨r, ofText, rfl⟩, rfl⟩

variable {h : HeaderSpelling} {body after : Text} {ms : List Statement}
  (normal : normalize text = leadingBlock h body after) (matching : BracesMatch body)
  (members : statements body = .ok ms)

include normal matching members

theorem resolveDeclaration_leadingBlock (last : allBlank (cutAt ';' after).2 = true) :
    ∃ d, p.resolveDeclaration responder text base s = .ok (d, (p.sizeFields responder ms s).2) ∧
      d.root = placeBlock (.root h.kind h.decl.tag) (p.sizeFields responder ms s).1 base := by
  have split := Shell.split_leadingBlock h matching after
  rw [← normal, if_pos last] at split
  have segmented : segment body = .ok ms := segment_eq_ok.mpr members
  exact ⟨_, resolveDeclaration_eq_ok.mpr ⟨_, Resolution.ofText_eq_ok.mpr
    ⟨_, split, Resolution.ofShell_eq_ok.mpr ⟨ms, segmented, rfl, rfl⟩⟩, rfl⟩, rfl⟩

theorem resolveBody_leadingBlock {later : List Statement}
    (behind : statements (BlockTail.read after).rest = .ok later) :
    ∃ source,
      let b : BlockDecl := ⟨h.kind, h.decl.tag, (BlockTail.read after).declarator, source⟩
      let inner := p.sizeFields responder ms s
      let outer := p.sizeFields responder later inner.2
      p.resolveBody responder text base s =
        .ok (placeBlock (.root .struct none) (.block b inner.1 :: outer.1) base, outer.2) := by
  obtain ⟨source, read⟩ := statements_leadingBlock h matching after members behind
  rw [← normal] at read
  exact ⟨source, resolveBody_eq_ok.mpr
    ⟨_, Resolution.ofShell_eq_ok.mpr ⟨_, segment_eq_ok.mpr read, rfl, rfl⟩, rfl⟩⟩

end

/-- A text that is one block is resolved alike as a declaration and as a body with that block for
its only member; the declaration does not keep the name behind the closing brace. -/
theorem resolve_alone {σ : Type} (p : Profile) (responder : Responder σ) (text : Text) (base : Nat)
    (s : σ) (h : HeaderSpelling) (body : Text) (e : ClosingSpelling)
    (normal : normalize text = h.write ++ '{' :: (body ++ '}' :: e.write))
    (matching : BracesMatch body) :
    ∃ d a b ms s', p.resolveDeclaration responder text base s = .ok (d, s') ∧
      p.resolveBody responder text base s = .ok (a, s') ∧ a.members = [.block b ms] ∧
      d.root = ⟨{ b with declarator := none }, ms⟩ := by
  obtain ⟨ms, segmented⟩ := segment_of_bracesMatch matching
  have members := segment_eq_ok.mp segmented
  have last : allBlank (cutAt ';' e.write).2 = true := by
    rw [e.cutAt_write]
    exact e.allBlank_rest
  have behind : statements (BlockTail.read e.write).rest = .ok [] := by
    rw [e.read_write]
    exact statements_blank e.allBlank_rest
  obtain ⟨d, declared, root⟩ :=
    resolveDeclaration_leadingBlock p responder base s normal matching members last
  obtain ⟨source, resolved⟩ :=
    resolveBody_leadingBlock p responder base s normal matching members behind
  simp only [Profile.sizeFields_nil] at resolved
  refine ⟨d, _, _, _, _, declared, resolved, placeMembers_block _ _ _ _, ?_⟩
  have single : BlockDecl.dims ⟨h.kind, h.decl.tag, (BlockTail.read e.write).declarator, source⟩ =
      [] := by
    rw [e.read_write, BlockDecl.dims]
    cases e.name <;> rfl
  exact root.trans (placeBlock_root single _ base)

-- An attribute, a tag right behind it, a name, and no semicolon.
theorem resolve_alone_named :
    let responder := Responder.ofFunctions (fun _ => .notFound) (fun _ _ => none) (fun _ => false)
    let h : HeaderSpelling :=
      ⟨.union, [⟨⟨[' '], rfl⟩, "packed".toList, forall_mem_of_all (by decide)⟩],
        some (⟨[], rfl⟩, ⟨'U', [], rfl, by simp⟩), ⟨['\n'], rfl⟩, by simp⟩
    let e : ClosingSpelling := ⟨some (⟨[], rfl⟩, ⟨'u', [], rfl, by simp⟩), ⟨[], rfl⟩, none⟩
    let text := "union [[packed]]U\n\x7bINT a;\x7du".toList
    let body := "INT a;".toList
    normalize text = h.write ++ '{' :: (body ++ '}' :: e.write) ∧ BracesMatch body ∧
      ∃ d a b ms s', Profile.x64.resolveDeclaration responder text 8 () = .ok (d, s') ∧
        Profile.x64.resolveBody responder text 8 () = .ok (a, s') ∧ a.members = [.block b ms] ∧
        d.root = ⟨{ b with declarator := none }, ms⟩ := by
  intro responder h e text body
  have normal : normalize text = h.write ++ '{' :: (body ++ '}' :: e.write) := by decide
  have matching : BracesMatch body := by decide
  exact ⟨normal, matching,
    resolve_alone Profile.x64 responder text 8 () h body e normal matching⟩

-- Placed in a struct, the field starts where the block ends, and the struct ends with the field.
theorem placeBlock_field {b : BlockDecl} (single : b.dims = []) (ms : List SizedStatement)
    (f : SizedField) {entry : Nat} (inRange : entry ≤ wordMax) :
    let alone := placeBlock (.root b.kind b.tag) ms entry
    let both := placeBlock (.root .struct none) [.block b ms, .field f] entry
    ∃ g, FieldPlaced f.decl (entry + alone.block.size) g ∧ both.fields = alone.fields ++ [g] ∧
      both.block.size = alone.block.size + g.width := by
  intro alone both
  let n := placeBlock b ms entry
  let g := f.placeAt n.block.offsetAfter
  have root : alone = ⟨{ n.block with declarator := none }, n.members⟩ :=
    placeBlock_root single ms entry
  have nodes : both.members = [.block n.block n.members, .field g] :=
    placeMembers_block b ms [.field f] entry
  have first : BlockPlaced b entry (reach b.kind entry n.members) n.block :=
    blockPlaced_placeAt b n.members inRange
  have second : FieldPlaced f.decl n.block.offsetAfter g := fieldPlaced_placeAt f first.inRange
  have start : n.block.offsetAfter = entry + n.block.size := first.entry ▸ first.offsetAfter
  have stop : entry + n.block.size + g.width = g.offsetAfter :=
    start ▸ second.start ▸ second.offsetAfter
  have extent : reach .struct entry both.members = n.block.size + g.width := by
    rw [nodes]
    simp only [reach, List.getLast?_cons_cons, List.getLast?_singleton, Option.elim_some,
      Node.offsetAfter]
    omega
  have whole : both.block.size = min (reach .struct entry both.members * 1) (wordMax - entry) :=
    (blockPlaced_placeAt (.root .struct none) both.members inRange).size
  have size : alone.block.size = n.block.size := by rw [root]
  have last := second.inRange
  refine ⟨g, ?_, ?_, ?_⟩
  · rw [size, ← start]
    exact second
  · simp [Aggregate.fields, nodes, root, MemberTree.leavesOf, MemberTree.leaves]
  · rw [whole, extent, size]
    omega

section

variable {σ : Type} (p : Profile) (responder : Responder σ) {base : Nat} (s : σ) {text : Text}
  {h : HeaderSpelling} {body after : Text}

theorem resolve_unseparated (inRange : base ≤ wordMax)
    (normal : normalize text = leadingBlock h body after) (matching : BracesMatch body)
    (last : allBlank (cutAt ';' after).2 = true) {f : FieldDecl}
    (behind : statements (BlockTail.read after).rest = .ok [.field f])
    (unnamed : (BlockTail.read after).declarator = none) :
    ∃ d a s₁ s₂ g, p.resolveDeclaration responder text base s = .ok (d, s₁) ∧
      p.resolveBody responder text base s = .ok (a, s₂) ∧ FieldPlaced f (base + d.size) g ∧
      a.fields = d.root.fields ++ [g] ∧ a.block.size = d.size + g.width := by
  obtain ⟨ms, segmented⟩ := segment_of_bracesMatch matching
  have members := segment_eq_ok.mp segmented
  obtain ⟨d, declared, root⟩ :=
    resolveDeclaration_leadingBlock p responder base s normal matching members last
  obtain ⟨source, resolved⟩ :=
    resolveBody_leadingBlock p responder base s normal matching members behind
  have single : BlockDecl.dims ⟨h.kind, h.decl.tag, (BlockTail.read after).declarator, source⟩ =
      [] := by
    rw [unnamed]
    rfl
  simp only [Profile.sizeFields_field] at resolved
  obtain ⟨g, placed, fields, size⟩ := placeBlock_field single (p.sizeFields responder ms s).1
    (p.sizeField responder f (p.sizeFields responder ms s).2).1 inRange
  rw [← root] at placed fields size
  exact ⟨d, _, _, _, g, declared, resolved, placed, fields, size⟩

end

/-- Of a text that starts with a block, with statements behind it, the declaration has all fields of
the body exactly if there is text behind the first semicolon; else it loses the last one. -/
theorem resolveDeclaration_complete_iff {σ : Type} (p : Profile) (responder : Responder σ)
    (text : Text) (base : Nat) (s : σ) (h : HeaderSpelling) (body after : Text)
    (ms : List Statement) (inRange : base ≤ wordMax)
    (normal : normalize text = h.write ++ '{' :: (body ++ '}' :: after))
    (matching : BracesMatch body) (unbraced : '{' ∉ after)
    (segmented : segment (normalize text) = .ok ms) (several : 2 ≤ ms.length) :
    ∃ d a s₁ s₂, p.resolveDeclaration responder text base s = .ok (d, s₁) ∧
      p.resolveBody responder text base s = .ok (a, s₂) ∧
      (d.root.fields = a.fields ∧ d.size = a.block.size ↔ allBlank (cutAt ';' after).2 = false) ∧
      (allBlank (cutAt ';' after).2 = true → ∃ f g, ms.getLast? = some (.field f) ∧
        FieldPlaced f (base + d.size) g ∧ a.fields = d.root.fields ++ [g] ∧
        a.block.size = d.size + g.width) := by
  cases last : allBlank (cutAt ';' after).2 with
  | false =>
    have split := Shell.split_leadingBlock h matching after
    rw [last] at split
    obtain ⟨a, s', resolved⟩ : ∃ a s', p.resolveBody responder text base s = .ok (a, s') :=
      ⟨_, _, resolveBody_eq_ok.mpr ⟨_, Resolution.ofShell_eq_ok.mpr ⟨ms, segmented, rfl, rfl⟩, rfl⟩⟩
    obtain ⟨d, declared, rfl⟩ := resolveDeclaration_bare p responder base s
      (by rw [normal]; exact split) resolved
    exact ⟨d, d.root, s', s', declared, resolved, by simp [Declaration.size], by simp⟩
  | true =>
    rw [normal] at segmented
    obtain ⟨f, dropped, behind, unnamed⟩ :=
      statements_unseparated matching unbraced last (segment_eq_ok.mp segmented) several
    obtain ⟨d, a, s₁, s₂, g, declared, resolved, placed, fields, size⟩ :=
      resolve_unseparated p responder s inRange normal matching last behind unnamed
    exact ⟨d, a, s₁, s₂, declared, resolved, by simp [fields],
      fun _ => ⟨f, g, dropped, placed, fields, size⟩⟩

theorem resolveDeclaration_complete_separated :
    let responder := Responder.ofFunctions (fun _ => .notFound) (fun _ _ => none) (fun _ => false)
    let h : HeaderSpelling := ⟨.struct, [], none, ⟨[], rfl⟩, by simp⟩
    let text := "struct\x7bINT a;\x7dINT b;INT c;".toList
    let body := "INT a;".toList
    let after := "INT b;INT c;".toList
    0 ≤ wordMax ∧ normalize text = h.write ++ '{' :: (body ++ '}' :: after) ∧ BracesMatch body ∧
      '{' ∉ after ∧ (∃ ms, segment (normalize text) = .ok ms ∧ ms.length = 3) ∧
      ∃ d a s₁ s₂, Profile.x64.resolveDeclaration responder text 0 () = .ok (d, s₁) ∧
        Profile.x64.resolveBody responder text 0 () = .ok (a, s₂) ∧
        d.root.fields = a.fields ∧ d.size = a.block.size := by
  intro responder h text body after
  have normal : normalize text = h.write ++ '{' :: (body ++ '}' :: after) := by decide
  have matching : BracesMatch body := by decide
  have unbraced : '{' ∉ after := by decide
  obtain ⟨inner, members⟩ := segment_of_bracesMatch matching
  have behind : statements (BlockTail.read after).rest =
      .ok [.field ⟨"INT".toList, ⟨['b'], []⟩⟩, .field ⟨"INT".toList, ⟨['c'], []⟩⟩] := by
    have rest : (BlockTail.read after).rest = after := by decide
    have first : Piece.next? after = some (.statement "INT b".toList, "INT c;".toList) := by decide
    have second : Piece.next? "INT c;".toList = some (.statement "INT c".toList, []) := by decide
    rw [rest, statements_statement first, statements_statement second, statements_blank rfl]
    rfl
  obtain ⟨source, read⟩ :=
    statements_leadingBlock h matching after (segment_eq_ok.mp members) behind
  rw [leadingBlock, ← normal] at read
  obtain ⟨d, a, s₁, s₂, declared, resolved, complete, -⟩ :=
    resolveDeclaration_complete_iff Profile.x64 responder text 0 () h body after _ (Nat.zero_le _)
      normal matching unbraced (segment_eq_ok.mpr read) (by simp)
  have separated : allBlank (cutAt ';' after).2 = false := by decide
  obtain ⟨fields, size⟩ := complete.mpr separated
  exact ⟨Nat.zero_le _, normal, matching, unbraced, ⟨_, segment_eq_ok.mpr read, rfl⟩, d, a, s₁, s₂,
    declared, resolved, fields, size⟩

-- Without the semicolon behind the block, the field after it is lost, and its bytes with it.
theorem resolveDeclaration_incomplete :
    let responder := Responder.ofFunctions (fun _ => .notFound) (fun _ _ => none) (fun _ => false)
    let h : HeaderSpelling := ⟨.struct, [], none, ⟨[' '], rfl⟩, by simp⟩
    let text := "struct \x7b INT a; \x7d\nINT b;".toList
    let body := " INT a; ".toList
    let after := "\nINT b;".toList
    normalize text = h.write ++ '{' :: (body ++ '}' :: after) ∧ BracesMatch body ∧
      (∀ c ∈ after, c ∉ "\x7b\x7d[]*,".toList) ∧
      (∃ ms, segment (normalize text) = .ok ms ∧ ms.length = 2) ∧
      ∃ d a, Profile.x64.resolveDeclaration responder text 0 () = .ok (d, ()) ∧
        Profile.x64.resolveBody responder text 0 () = .ok (a, ()) ∧
        d.root.fields.map FieldNode.name = [['a']] ∧
        a.fields.map FieldNode.name = [['a'], ['b']] ∧ d.size = 4 ∧ a.block.size = 8 := by
  intro responder h text body after
  have normal : normalize text = h.write ++ '{' :: (body ++ '}' :: after) := by decide
  have matching : BracesMatch body := by decide
  have field (name : Char) (s : Unit) :
      Profile.x64.sizeField responder ⟨"INT".toList, ⟨[name], []⟩⟩ s =
        (nestedField ⟨"INT".toList, ⟨[name], []⟩⟩, s) := by
    have known : Profile.x64.sizing? "INT".toList = some ⟨"INT".toList, 4, .builtIn⟩ := by decide
    rw [Profile.sizeField, Profile.sizing_eq_done (by decide) (by decide) (by decide) (by decide)
      known]
    rfl
  have members : statements body = .ok [.field ⟨"INT".toList, ⟨['a'], []⟩⟩] := by
    have next : Piece.next? body = some (.statement "INT a".toList, [' ']) := by decide
    rw [statements_statement next, statements_blank rfl]
    rfl
  have behind : statements (BlockTail.read after).rest =
      .ok [.field ⟨"INT".toList, ⟨['b'], []⟩⟩] := by
    have rest : (BlockTail.read after).rest = after := by decide
    have next : Piece.next? after = some (.statement "INT b".toList, []) := by decide
    rw [rest, statements_statement next, statements_blank rfl]
    rfl
  obtain ⟨_, read⟩ := statements_leadingBlock h matching after members behind
  rw [leadingBlock, ← normal] at read
  obtain ⟨d, declared, root⟩ :=
    resolveDeclaration_leadingBlock Profile.x64 responder 0 () normal matching members (by decide)
  obtain ⟨source, resolved⟩ :=
    resolveBody_leadingBlock Profile.x64 responder 0 () normal matching members behind
  simp only [Profile.sizeFields_field, field] at declared root resolved
  refine ⟨normal, matching, forall_mem_of_all (by decide), ⟨_, segment_eq_ok.mpr read, rfl⟩,
    d, _, declared, resolved, ?_, rfl, ?_, rfl⟩
  · rw [root]
    rfl
  · rw [Declaration.size, root]
    rfl

/-- Both resolutions of a normalized text are those of the text itself, also of one that is decoded
first. -/
theorem resolve_normalize {σ : Type} (p : Profile) (responder : Responder σ) (text : Text)
    (base : Nat) (s : σ) :
    Normalized (normalize text) ∧ normalize (normalize text) = normalize text ∧
      p.resolveDeclaration responder (normalize text) base s =
        p.resolveDeclaration responder text base s ∧
      p.resolveBody responder (normalize text) base s = p.resolveBody responder text base s ∧
      ∀ bytes,
        (normalizeBytes bytes).map (fun t => p.resolveDeclaration responder t base s) =
          ((Utf8.decode bytes).mapError .malformed).map fun t =>
            p.resolveDeclaration responder t base s := by
  have again := normalize_normalize
  have declaration (t : Text) : p.resolveDeclaration responder (normalize t) base s =
      p.resolveDeclaration responder t base s := by
    rw [Profile.resolveDeclaration, Resolution.ofText, again, Profile.resolveDeclaration,
      Resolution.ofText]
  refine ⟨normalized_normalize text, again text, declaration text, ?_, ?_⟩
  · rw [Profile.resolveBody, again, Profile.resolveBody]
  · intro bytes
    rw [normalizeBytes]
    cases Utf8.decode bytes with
    | error fault => rfl
    | ok t => exact congrArg Except.ok (declaration t)

end MemberOffsets
