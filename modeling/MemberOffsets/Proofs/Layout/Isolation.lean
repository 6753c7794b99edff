import MemberOffsets.Proofs.Layout.Placement
import MemberOffsets.Proofs.Layout.Resolution

set_option autoImplicit false

namespace MemberOffsets

open Text

theorem SizedField.placeAt_unresolved {f : SizedField} {offset : Nat} {reason : Unresolved}
    (unresolved : (f.placeAt offset).status = .unresolved reason) :
    (f.placeAt offset).width = 0 ∧ (f.placeAt offset).offsetAfter = offset := by
  by_cases fits : offset + f.extent.1 ≤ wordMax
  · have status : f.extent.2 = .unresolved reason := by simpa [placeAt, fits] using unresolved
    have width : f.extent.1 = 0 := by
      cases sizing : f.sizing with
      | error e => simp [extent, sizing]
      | ok s => cases count : elementCount f.decl.dims <;> simp [extent, sizing, count] at status
    rw [width, Nat.add_zero] at fits
    simp [placeAt, fits, width]
  · simp [placeAt, fits]

theorem place_unresolved {m : SizedStatement} {entry : Nat} {f : FieldNode} {reason : Unresolved}
    (placed : place m entry = .field f) (unresolved : f.status = .unresolved reason) :
    f.width = 0 ∧ f.offsetAfter = entry := by
  cases m with
  | block b ms => simp at placed
  | field g =>
    obtain rfl : g.placeAt entry = f := by simpa [place] using placed
    exact SizedField.placeAt_unresolved unresolved

theorem exists_place {kind : Kind} {ms : List SizedStatement} {entry i : Nat} {n : Node}
    (found : (placeMembers kind ms entry)[i]? = some n) :
    ∃ m start, ms[i]? = some m ∧ place m start = n := by
  induction ms generalizing entry i with
  | nil => simp at found
  | cons m ms ih =>
    rw [placeMembers_cons] at found
    cases i with
    | zero => exact ⟨m, entry, rfl, by simpa using found⟩
    | succ i => exact ih (by simpa using found)

theorem getLast?_elim_cons {α β : Type} (f : α → β) (a : α) (as : List α) (b : β) :
    (a :: as).getLast?.elim b f = as.getLast?.elim (f a) f := by
  cases as <;> rfl

theorem foldl_max_eraseIdx {sizes : List Nat} {i : Nat} (found : sizes[i]? = some 0) (least : Nat) :
    (sizes.eraseIdx i).foldl max least = sizes.foldl max least := by
  induction sizes generalizing i least with
  | nil => simp
  | cons size sizes ih =>
    cases i with
    | zero =>
      obtain rfl : size = 0 := by simpa using found
      simp
    | succ i =>
      have rest := ih (by simpa using found) (max least size)
      simpa using rest

section Erased

variable {kind : Kind} {ms : List SizedStatement} {entry i : Nat} {f : FieldNode}
  {reason : Unresolved}

theorem placeMembers_eraseIdx (found : (placeMembers kind ms entry)[i]? = some (.field f))
    (unresolved : f.status = .unresolved reason) :
    placeMembers kind (ms.eraseIdx i) entry = (placeMembers kind ms entry).eraseIdx i := by
  induction ms generalizing entry i with
  | nil => simp
  | cons m ms ih =>
    rw [placeMembers_cons] at found ⊢
    cases i with
    | zero =>
      have here : place m entry = .field f := by simpa using found
      have next : kind.next entry (.field f) = entry := by
        have still := (place_unresolved here unresolved).2
        cases kind <;> simp [Kind.next, Node.offsetAfter, still]
      simp [here, next]
    | succ i =>
      have rest := ih (by simpa using found)
      simp [placeMembers_cons, rest]

-- The last end offset is that of the member before, and the largest size is not its own.
theorem reach_eraseIdx (found : (placeMembers kind ms entry)[i]? = some (.field f))
    (unresolved : f.status = .unresolved reason) :
    reach kind entry ((placeMembers kind ms entry).eraseIdx i) =
      reach kind entry (placeMembers kind ms entry) := by
  cases kind with
  | struct =>
    have last : ((placeMembers .struct ms entry).eraseIdx i).getLast?.elim entry Node.offsetAfter =
        (placeMembers .struct ms entry).getLast?.elim entry Node.offsetAfter := by
      induction ms generalizing entry i with
      | nil => simp
      | cons m ms ih =>
        rw [placeMembers_cons] at found ⊢
        cases i with
        | zero =>
          have here : place m entry = .field f := by simpa using found
          have still := (place_unresolved here unresolved).2
          rw [here, getLast?_elim_cons, Node.offsetAfter, still, List.eraseIdx_zero, List.tail_cons]
        | succ i =>
          have rest := ih (by simpa using found)
          rw [List.eraseIdx_cons_succ, getLast?_elim_cons, getLast?_elim_cons]
          exact rest
    rw [reach, reach, last]
  | union =>
    have width : f.width = 0 := by
      obtain ⟨m, start, -, here⟩ := exists_place found
      exact (place_unresolved here unresolved).1
    have size : ((placeMembers .union ms entry).map Node.size)[i]? = some 0 := by
      simp [found, Node.size, width]
    rw [reach, reach, ← List.eraseIdx_map, foldl_max_eraseIdx size]

end Erased

@[simp] theorem Node.size_erase (n : Node) (path : List Nat) :
    Node.size (n.erase path) = n.size := by
  rcases n with f | ⟨b, ns⟩
  · simp
  · rcases path with _ | ⟨i, _ | ⟨j, path⟩⟩ <;> simp [Node.size]

@[simp] theorem Node.offsetAfter_erase (n : Node) (path : List Nat) :
    Node.offsetAfter (n.erase path) = n.offsetAfter := by
  rcases n with f | ⟨b, ns⟩
  · simp
  · rcases path with _ | ⟨i, _ | ⟨j, path⟩⟩ <;> simp [Node.offsetAfter]

theorem reach_modify {k : Node → Node} (sizes : ∀ n, (k n).size = n.size)
    (ends : ∀ n, (k n).offsetAfter = n.offsetAfter) (kind : Kind) (entry : Nat) (ns : List Node)
    (i : Nat) : reach kind entry (ns.modify i k) = reach kind entry ns := by
  cases kind with
  | struct =>
    have last (ns : List Node) : ns.getLast?.elim entry Node.offsetAfter =
        (ns.map Node.offsetAfter).getLast?.getD entry := by
      rw [List.getLast?_map]
      cases ns.getLast? <;> rfl
    rw [reach, reach, last, last, MemberTree.map_modify (k := id) ends, List.modify_id]
  | union => rw [reach, reach, MemberTree.map_modify (k := id) sizes, List.modify_id]

theorem placeMembers_modify {kind : Kind} {ms : List SizedStatement} {entry i : Nat}
    {h : SizedStatement → SizedStatement} {k : Node → Node}
    (ends : ∀ n, (k n).offsetAfter = n.offsetAfter)
    (here : ∀ m start, (placeMembers kind ms entry)[i]? = some (place m start) →
      place (h m) start = k (place m start)) :
    placeMembers kind (ms.modify i h) entry = (placeMembers kind ms entry).modify i k := by
  induction ms generalizing entry i with
  | nil => simp
  | cons m ms ih =>
    rw [placeMembers_cons] at here ⊢
    cases i with
    | zero =>
      have changed := here m entry (by simp)
      have next (n : Node) : kind.next entry (k n) = kind.next entry n := by
        cases kind <;> simp [Kind.next, ends]
      simp [placeMembers_cons, changed, next]
    | succ i =>
      have rest := ih fun n start found => here n start (by simpa using found)
      simp [placeMembers_cons, rest]

theorem BlockDecl.placeAt_congr {b : BlockDecl} {entry : Nat} {ns ns' : List Node}
    (same : reach b.kind entry ns = reach b.kind entry ns') :
    b.placeAt entry ns = b.placeAt entry ns' := by
  simp only [placeAt, same]

-- Along the path: the block around the field loses a member that takes nothing, and each block
-- further out has a member changed that keeps its size and its end.
theorem place_erase {m : SizedStatement} {path : List Nat} {entry : Nat} {f : FieldNode}
    {reason : Unresolved} (found : (place m entry).at? path = some (.field f))
    (unresolved : f.status = .unresolved reason) :
    place (m.erase path) entry = (place m entry).erase path := by
  induction path generalizing m entry with
  | nil => simp
  | cons i path ih =>
    cases m with
    | field g => simp [place]
    | block b ms =>
      rw [place_block] at found ⊢
      cases path with
      | nil =>
        have member : (placeMembers b.kind ms entry)[i]? = some (.field f) := by
          simpa using found
        rw [MemberTree.erase_block_last, place_block, placeMembers_eraseIdx member unresolved,
          BlockDecl.placeAt_congr (reach_eraseIdx member unresolved), MemberTree.erase_block_last]
      | cons j path =>
        have members : placeMembers b.kind (ms.modify i (·.erase (j :: path))) entry =
            (placeMembers b.kind ms entry).modify i (·.erase (j :: path)) := by
          apply placeMembers_modify (fun n => Node.offsetAfter_erase n _)
          intro m start member
          apply ih
          simpa [member] using found
        have extent := reach_modify (fun n => Node.size_erase n (j :: path))
          (fun n => Node.offsetAfter_erase n (j :: path)) b.kind entry
          (placeMembers b.kind ms entry) i
        rw [MemberTree.erase_block_cons, place_block, members, BlockDecl.placeAt_congr extent,
          MemberTree.erase_block_cons]

/-- Without a field that is unresolved, a tree is resolved to what it is resolved to with the field,
the field's own node left out, as long as the answers depend on the questions alone. -/
theorem resolveStatement_erase (p : Profile) (lookup : Text → Lookup Nat)
    (choose : Text → List Text → Option Text) (confirm : Text → Bool) (m : Statement) (base : Nat)
    (path : List Nat) (f : FieldNode) (reason : Unresolved)
    (found : (p.resolveStatement (.ofFunctions lookup choose confirm) m base ()).at? path =
      some (.field f))
    (unresolved : f.status = .unresolved reason) :
    p.resolveStatement (.ofFunctions lookup choose confirm) (m.erase path) base () =
      (p.resolveStatement (.ofFunctions lookup choose confirm) m base ()).erase path := by
  simp only [Profile.resolveStatement, MemberTree.traverse_unit] at found ⊢
  rw [MemberTree.map_erase]
  exact place_erase found unresolved

-- Two bytes before the end of the range the first member of the union does not fit, but the second
-- does, so that the array of unions is clamped and not empty.
theorem resolveStatement_erase_at_the_end :
    let m : Statement := .block (.root .struct none) (Spelling.statementsOf nestedMembers)
    let responder := Responder.ofFunctions (fun _ => .notFound) (fun _ _ => none) (fun _ => false)
    let f : FieldNode :=
      ⟨"INT".toList, "a".toList, 0, wordMax - 2, .unresolved .offsetOverflow⟩
    let n := Profile.x64.resolveStatement responder m (wordMax - 2) ()
    n.at? [0, 0] = some (.field f) ∧ f.status = .unresolved .offsetOverflow ∧
      Profile.x64.resolveStatement responder (m.erase [0, 0]) (wordMax - 2) () =
        n.erase [0, 0] := by
  intro m responder f n
  have sized := sizeFields_nestedMembers responder ()
  have placed : n = place (.block (.root .struct none) nestedSized) (wordMax - 2) := by
    rw [Profile.sizeFields] at sized
    simp only [n, m, Profile.resolveStatement, MemberTree.traverse, sized]
  have found : n.at? [0, 0] = some (.field f) := by
    rw [placed]
    rfl
  exact ⟨found, rfl, resolveStatement_erase Profile.x64 _ _ _ m (wordMax - 2) [0, 0] f
    .offsetOverflow found rfl⟩

end MemberOffsets
