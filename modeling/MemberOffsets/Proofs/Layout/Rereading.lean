import MemberOffsets.Proofs.Declaration.Enclosure
import MemberOffsets.Proofs.Layout.Columns
import MemberOffsets.Proofs.Layout.Resolution

set_option autoImplicit false

namespace MemberOffsets

open Text

theorem types_placeMembers (ms : List SizedStatement) (kind : Kind) (entry : Nat) :
    (MemberTree.leavesOf (placeMembers kind ms entry)).map FieldNode.type =
      (MemberTree.leavesOf (declared ms)).map FieldDecl.type := by
  induction ms using MemberTree.members_induction generalizing kind entry with
  | nil => cases kind <;> rfl
  | field f ms ih =>
    rw [placeMembers_cons]
    generalize kind.next entry _ = next
    have rest := ih kind next
    simpa [declared, place, MemberTree.leavesOf, MemberTree.leaves] using rest
  | block b inner ms ihInner ih =>
    rw [placeMembers_cons, place_block]
    generalize kind.next entry _ = next
    have inside := ihInner b.kind entry
    have rest := ih kind next
    simp only [declared] at inside rest
    simp [declared, MemberTree.leavesOf, MemberTree.leaves, inside, rest]

theorem FieldDecl.Plain.singleLine {f : FieldDecl} (plain : f.Plain) : f.SingleLine := by
  constructor
  · exact plain.collapsed ▸ newline_not_mem_collapse f.type
  · intro dim inside member
    exact absurd (plain.declarator.dark dim inside '\n' member) (by decide)

theorem unlines_concat (first : Text) (codes : List Text) (last : Text) :
    unlines (first :: codes ++ [last]) =
      first ++ (codes.flatMap ('\n' :: ·) ++ ['\n']) ++ last := by
  induction codes generalizing first with
  | nil => simp [unlines, List.intercalate_cons_cons]
  | cons code codes ih =>
    have rest := ih code
    rw [unlines] at rest
    rw [unlines, List.cons_append, List.cons_append, List.intercalate_cons_cons, ← List.cons_append,
      rest]
    simp

namespace Resolution

variable {σ : Type} {p : Profile} {responder : Responder σ} {base : Nat} {s s' : σ}

def codes (r : Resolution) : List Text :=
  r.shell.opening :: codeAll (declared r.members) ++ [r.shell.closing]

theorem root_members (r : Resolution) :
    r.root.members = placeMembers r.shell.kind r.members r.base := rfl

theorem ofText_rewritten {text : Text} {r : Resolution}
    (resolved : ofText p responder text base s = .ok (r, s')) (shelled : r.shell.opening ≠ [])
    (plain : Plain (declared r.members)) {text' : Text}
    (rewritten : normalize text' = unlines r.codes) :
    p.resolveDeclaration responder text' base s = .ok (r.declaration, s') := by
  obtain ⟨shell, split, ofShell⟩ := ofText_eq_ok.mp resolved
  obtain ⟨ms, -, rfl, rfl⟩ := ofShell_eq_ok.mp ofShell
  simp only [codes, declared_sizeFields] at plain rewritten
  obtain ⟨ws, written, same⟩ := plain.spelled
  have newline : allBlank ['\n'] = true := by decide
  have balanced : Balanced (Spelling.writeAll ws ++ ['\n']) :=
    (Spelling.balanced_writeAll ws).append (.of_plain (by simp))
  have segmented : segment (Spelling.writeAll ws ++ ['\n']) = .ok (Spelling.statementsOf ws) := by
    exact segment_eq_ok.mpr (Spelling.statements_writeAll ws ⟨['\n'], newline⟩)
  have exchanged := Shell.split_exchange split shelled balanced.splitAtClose_close
  rw [written, ← unlines_concat, ← rewritten, ← written] at exchanged
  obtain ⟨members, state⟩ := sizeFields_congr p responder same s
  apply resolveDeclaration_eq_ok.mpr
  refine ⟨_, ofText_eq_ok.mpr ⟨_, exchanged, ofShell_eq_ok.mpr ⟨_, segmented, rfl, state.symm⟩⟩, ?_⟩
  simp only [declaration, root, rootDecl]
  rw [placeBlock_congr members]

theorem noted_annotatedLines {text : Text} {r : Resolution}
    (resolved : ofText p responder text base s = .ok (r, s')) (shelled : r.shell.opening ≠ [])
    (plain : Plain (declared r.members)) :
    List.Forall₂ Noted r.declaration.annotatedLines r.codes := by
  obtain ⟨shell, -, ofShell⟩ := ofText_eq_ok.mp resolved
  obtain ⟨ms, -, rfl, rfl⟩ := ofShell_eq_ok.mp ofShell
  simp only [declared_sizeFields] at plain
  have single := newline_not_mem_notes p responder
    (fun f among => (plain.fields f among).singleLine) s
  have members := noted_annotatedAll single shell.kind base
  have closing (size : Nat) : Noted (shell.closing ++ '\t' :: sizeComment size) shell.closing := by
    refine .inr ⟨" size: ".toList ++ numeralPair size, ?_, rfl⟩
    exact List.not_mem_append (by decide) (newline_not_mem_numeralPair size)
  have opening : Noted shell.opening shell.opening := .inl rfl
  have whole := List.rel_append (.cons opening members)
    (.cons (closing (declaration ⟨shell, (p.sizeFields responder ms s).1, base⟩).size) .nil)
  have printed : shell.opening.isEmpty = false := by simpa using shelled
  simpa [Declaration.annotatedLines, declaration, root_members, codes, printed] using whole

theorem codeLines_codes {text : Text} {r : Resolution}
    (resolved : ofText p responder text base s = .ok (r, s')) (shelled : r.shell.opening ≠ [])
    (plain : Plain (declared r.members)) : ∀ c ∈ r.codes, CodeLine c := by
  obtain ⟨shell, split, ofShell⟩ := ofText_eq_ok.mp resolved
  obtain ⟨ms, -, rfl, rfl⟩ := ofShell_eq_ok.mp ofShell
  obtain ⟨opening, -, closing⟩ :=
    Shell.codeLines_split (commentFree_normalize text) split shelled
  intro c member
  simp only [codes, List.cons_append, List.mem_cons, List.mem_append, List.not_mem_nil, or_false]
    at member
  rcases member with rfl | inside | rfl
  · exact opening
  · exact plain.codeLines c inside
  · exact closing

theorem resolveDeclaration_annotated {text : Text} {r : Resolution}
    (resolved : ofText p responder text base s = .ok (r, s')) (shelled : r.shell.opening ≠ [])
    (plain : Plain (declared r.members)) :
    p.resolveDeclaration responder (Columns.format r.declaration.annotated) base s =
        .ok (r.declaration, s') ∧
      p.resolveDeclaration responder r.declaration.annotated base s = .ok (r.declaration, s') := by
  have noted := noted_annotatedLines resolved shelled plain
  have lines := codeLines_codes resolved shelled plain
  constructor
  · exact ofText_rewritten resolved shelled plain (Columns.normalize_format noted lines)
  · exact ofText_rewritten resolved shelled plain
      (normalize_terminated (carries_of_noted noted lines) lines)

end Resolution

/-- A declaration that was resolved from one text is resolved from its own printed form, whoever
answers, as long as the answers depend on the questions alone. -/
theorem resolveDeclaration_printed (p : Profile) (lookup : Text → Lookup Nat)
    (choose : Text → List Text → Option Text) (confirm : Text → Bool) (text : Text) (base : Nat)
    (d : Declaration) (shell : Shell) (ms : List Statement)
    (resolved : p.resolveDeclaration (.ofFunctions lookup choose confirm) text base () =
      .ok (d, ()))
    (shelled : d.opening ≠ [])
    (types : ∀ f ∈ d.root.fields, ∀ c ∈ f.type, c ∉ ['{', '}', '[', ']'])
    (split : Shell.split (normalize text) = .ok shell) (segmented : segment shell.body = .ok ms)
    (dims : ∀ dim ∈ dimsOf ms, ∀ c ∈ dim, isBlank c = false ∧ c ≠ '{' ∧ c ≠ '}') :
    p.resolveDeclaration (.ofFunctions lookup choose confirm) (Columns.format d.annotated) base () =
        .ok (d, ()) ∧
      p.resolveDeclaration (.ofFunctions lookup choose confirm) d.annotated base () =
        .ok (d, ()) := by
  obtain ⟨r, ofText, rfl⟩ := resolveDeclaration_eq_ok.mp resolved
  obtain ⟨shell', split', ofShell⟩ := Resolution.ofText_eq_ok.mp ofText
  obtain rfl : shell = shell' := Except.ok.inj (split.symm.trans split')
  obtain ⟨ms', segmented', rfl, -⟩ := Resolution.ofShell_eq_ok.mp ofShell
  obtain rfl : ms = ms' := Except.ok.inj (segmented.symm.trans segmented')
  let members := (p.sizeFields (.ofFunctions lookup choose confirm) ms ()).1
  have members_eq : declared members = ms := declared_sizeFields _ _ ms ()
  have fieldTypes : ∀ f ∈ MemberTree.leavesOf ms, ∀ c ∈ f.type, c ∉ ['{', '}', '[', ']'] := by
    intro f among
    have type : f.type ∈ (MemberTree.leavesOf ms).map FieldDecl.type := List.mem_map_of_mem among
    rw [← members_eq, ← types_placeMembers members shell.kind base] at type
    obtain ⟨node, here, same⟩ := List.mem_map.mp type
    rw [← same]
    exact types node here
  have free := (Shell.codeLines_split (commentFree_normalize text) split shelled).2.1
  have plain := plain_of_statements free (segment_eq_ok.mp segmented) fieldTypes dims
  rw [← members_eq] at plain
  exact Resolution.resolveDeclaration_annotated ofText shelled plain

theorem resolveDeclaration_printed_nested :
    let lookup : Text → Lookup Nat := fun _ => .notFound
    let choose : Text → List Text → Option Text := fun _ _ => none
    let confirm : Text → Bool := fun _ => false
    let responder := Responder.ofFunctions lookup choose confirm
    let ms := Spelling.statementsOf nestedMembers
    ∃ d, Profile.x64.resolveDeclaration responder nestedText 16 () = .ok (d, ()) ∧
      d.opening ≠ [] ∧
      (∀ f ∈ d.root.fields, ∀ c ∈ f.type, c ∉ ['{', '}', '[', ']']) ∧
      Shell.split (normalize nestedText) = .ok nestedShell ∧
      segment nestedShell.body = .ok ms ∧
      (∀ dim ∈ dimsOf ms, ∀ c ∈ dim, isBlank c = false ∧ c ≠ '{' ∧ c ≠ '}') ∧
      Profile.x64.resolveDeclaration responder (Columns.format d.annotated) 16 () = .ok (d, ()) ∧
      Profile.x64.resolveDeclaration responder d.annotated 16 () = .ok (d, ()) := by
  intro lookup choose confirm responder ms
  let members := (Profile.x64.sizeFields responder ms ()).1
  let r : Resolution := ⟨nestedShell, members, 16⟩
  have resolved : Profile.x64.resolveDeclaration responder nestedText 16 () =
      .ok (r.declaration, ()) :=
    resolveDeclaration_eq_ok.mpr ⟨r, Resolution.ofText_nestedText, rfl⟩
  have members_eq : declared members = ms := declared_sizeFields _ _ ms ()
  have plain : ∀ type ∈ (MemberTree.leavesOf ms).map FieldDecl.type,
      ∀ c ∈ type, c ∉ ['{', '}', '[', ']'] := by
    have checked : ((MemberTree.leavesOf ms).map FieldDecl.type).all (fun type =>
      type.all fun c => decide (c ∉ ['{', '}', '[', ']'])) = true := by decide
    exact fun type among => forall_mem_of_all (List.all_eq_true.mp checked type among)
  have types : ∀ f ∈ MemberTree.leavesOf (placeMembers .struct members 16),
      ∀ c ∈ f.type, c ∉ ['{', '}', '[', ']'] := by
    intro f among
    apply plain
    rw [← members_eq, ← types_placeMembers members .struct 16]
    exact List.mem_map_of_mem among
  have dims : ∀ dim ∈ dimsOf ms, ∀ c ∈ dim, isBlank c = false ∧ c ≠ '{' ∧ c ≠ '}' := by
    have checked : (dimsOf ms).all (fun dim =>
      dim.all fun c => decide (isBlank c = false ∧ c ≠ '{' ∧ c ≠ '}')) = true := by decide
    exact fun dim among => forall_mem_of_all (List.all_eq_true.mp checked dim among)
  have shelled : nestedShell.opening ≠ [] := by decide
  exact ⟨_, resolved, shelled, types, split_nestedText, segment_nestedMembers, dims,
    resolveDeclaration_printed Profile.x64 lookup choose confirm nestedText 16 _ nestedShell ms
      resolved shelled types split_nestedText segment_nestedMembers dims⟩

end MemberOffsets
