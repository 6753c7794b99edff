import MemberOffsets.Proofs.Layout.Placement
import MemberOffsets.Proofs.Layout.Resolution

set_option autoImplicit false

namespace MemberOffsets

open Text

def FieldNode.shift (b : Nat) (f : FieldNode) : FieldNode :=
  { f with offsetAfter := f.offsetAfter + b }

def BlockNode.shift (b : Nat) (n : BlockNode) : BlockNode :=
  { n with entry := n.entry + b, offsetAfter := n.offsetAfter + b }

namespace Node

def shift (b : Nat) (n : Node) : Node := n.map (BlockNode.shift b) (FieldNode.shift b)

@[simp] theorem shift_field (b : Nat) (f : FieldNode) :
    shift b (.field f) = .field (f.shift b) := by simp [shift]

@[simp] theorem shift_block (b : Nat) (n : BlockNode) (ns : List Node) :
    shift b (.block n ns) = .block (n.shift b) (ns.map (shift b)) := by
  simp [shift, MemberTree.mapAll_eq_map]

@[simp] theorem size_shift (b : Nat) (n : Node) : (n.shift b).size = n.size := by
  cases n <;> simp [size, FieldNode.shift, BlockNode.shift]

@[simp] theorem offsetAfter_shift (b : Nat) (n : Node) :
    (n.shift b).offsetAfter = n.offsetAfter + b := by
  cases n <;> simp [offsetAfter, FieldNode.shift, BlockNode.shift]

/-- No end offset in the tree passes the range when `b` is added to it. -/
def RoomFor (b : Nat) (tree : Node) : Prop :=
  ∀ (path : List Nat) (n : Node), tree.at? path = some n → n.offsetAfter + b ≤ wordMax

@[simp] theorem roomFor_field {b : Nat} {f : FieldNode} :
    RoomFor b (.field f) ↔ f.offsetAfter + b ≤ wordMax := by
  constructor
  · intro room
    exact room [] (.field f) rfl
  · intro room path n found
    cases path with
    | nil =>
      obtain rfl : .field f = n := by simpa using found
      exact room
    | cons i path => simp at found

@[simp] theorem roomFor_block {b : Nat} {d : BlockNode} {ns : List Node} :
    RoomFor b (.block d ns) ↔ d.offsetAfter + b ≤ wordMax ∧ ∀ n ∈ ns, RoomFor b n := by
  constructor
  · intro room
    refine ⟨room [] (.block d ns) rfl, ?_⟩
    intro n among path m found
    obtain ⟨i, member⟩ := List.mem_iff_getElem?.mp among
    exact room (i :: path) m (by simp [member, found])
  · rintro ⟨root, members⟩ path n found
    cases path with
    | nil =>
      obtain rfl : .block d ns = n := by simpa using found
      exact root
    | cons i path =>
      obtain ⟨m, member, below⟩ := Option.bind_eq_some_iff.mp found
      exact members m (List.mem_of_getElem? member) path n below

end Node

namespace Aggregate

def node (a : Aggregate) : Node := .block a.block a.members

def shift (b : Nat) (a : Aggregate) : Aggregate := ⟨a.block.shift b, a.members.map (Node.shift b)⟩

end Aggregate

def Declaration.shift (b : Nat) (d : Declaration) : Declaration := { d with root := d.root.shift b }

theorem Kind.next_shift (kind : Kind) (entry b : Nat) (n : Node) :
    kind.next (entry + b) (n.shift b) = kind.next entry n + b := by
  cases kind <;> simp [Kind.next]

theorem reach_shift (kind : Kind) (entry b : Nat) (ns : List Node) :
    reach kind (entry + b) (ns.map (Node.shift b)) = reach kind entry ns := by
  cases kind with
  | struct =>
    rw [reach, reach, List.getLast?_map]
    cases ns.getLast? with
    | none => simp
    | some n => simp [Nat.add_sub_add_right]
  | union => simp [reach, Function.comp_def]

-- A field that fits at the lower offset fits at the higher one, and one that does not fit there
-- fits nowhere behind it.
theorem SizedField.placeAt_shift (f : SizedField) {offset b : Nat}
    (room : (f.placeAt offset).offsetAfter + b ≤ wordMax) :
    f.placeAt (offset + b) = (f.placeAt offset).shift b := by
  by_cases fits : offset + f.extent.1 ≤ wordMax
  · simp only [placeAt, fits, if_true] at room
    have shifted : offset + b + f.extent.1 ≤ wordMax := by omega
    simp [placeAt, fits, shifted, FieldNode.shift, Nat.add_right_comm]
  · have shifted : ¬ offset + b + f.extent.1 ≤ wordMax := by omega
    simp [placeAt, fits, shifted, FieldNode.shift]

-- A block that is clamped at the lower offset leaves no room for a shift at all.
theorem BlockDecl.placeAt_shift (d : BlockDecl) {entry b : Nat} {ns : List Node}
    (room : (d.placeAt entry ns).offsetAfter + b ≤ wordMax) :
    d.placeAt (entry + b) (ns.map (Node.shift b)) = (d.placeAt entry ns).shift b := by
  have size : min (reach d.kind entry ns * d.count) (wordMax - (entry + b)) =
      min (reach d.kind entry ns * d.count) (wordMax - entry) := by
    simp only [placeAt] at room
    omega
  simp [placeAt, reach_shift, size, BlockNode.shift, Nat.add_right_comm]

theorem placeMembers_shift (b : Nat) (ms : List SizedStatement) (kind : Kind) (entry : Nat)
    (room : ∀ n ∈ placeMembers kind ms entry, n.RoomFor b) :
    placeMembers kind ms (entry + b) = (placeMembers kind ms entry).map (Node.shift b) := by
  induction ms using MemberTree.members_induction generalizing kind entry with
  | nil => simp
  | field f ms ih =>
    rw [placeMembers_cons] at room ⊢
    obtain ⟨first, rest⟩ := List.forall_mem_cons.mp room
    have here : place (.field f) (entry + b) = (place (.field f) entry).shift b := by
      simp only [place, Node.roomFor_field] at first
      simp [place, f.placeAt_shift first]
    rw [here, Kind.next_shift, ih kind _ rest, placeMembers_cons, List.map_cons]
  | block d inner ms ihInner ih =>
    rw [placeMembers_cons] at room ⊢
    obtain ⟨first, rest⟩ := List.forall_mem_cons.mp room
    have here : place (.block d inner) (entry + b) = (place (.block d inner) entry).shift b := by
      rw [place_block, Node.roomFor_block] at first
      rw [place_block, place_block, Node.shift_block, ihInner d.kind entry first.2,
        d.placeAt_shift first.1]
    rw [here, Kind.next_shift, ih kind _ rest, placeMembers_cons, List.map_cons]

theorem placeBlock_shift (d : BlockDecl) (ms : List SizedStatement) {entry b : Nat}
    (room : (placeBlock d ms entry).node.RoomFor b) :
    placeBlock d ms (entry + b) = (placeBlock d ms entry).shift b := by
  simp only [Aggregate.node, placeBlock, Node.roomFor_block] at room
  simp only [placeBlock, Aggregate.shift, placeMembers_shift b ms d.kind entry room.2,
    d.placeAt_shift room.1]

namespace Resolution

variable {σ : Type} {p : Profile} {responder : Responder σ} {base : Nat} {s s' : σ}

theorem root_shift {r : Resolution} {b : Nat} (room : r.root.node.RoomFor b) :
    root { r with base := r.base + b } = r.root.shift b :=
  placeBlock_shift r.rootDecl r.members room

theorem ofShell_rebase {shell : Shell} {r : Resolution}
    (resolved : ofShell p responder shell base s = .ok (r, s')) (base' : Nat) :
    r.base = base ∧ ofShell p responder shell base' s = .ok ({ r with base := base' }, s') := by
  obtain ⟨ms, segmented, rfl, rfl⟩ := ofShell_eq_ok.mp resolved
  exact ⟨rfl, ofShell_eq_ok.mpr ⟨ms, segmented, rfl, rfl⟩⟩

theorem ofText_rebase {text : Text} {r : Resolution}
    (resolved : ofText p responder text base s = .ok (r, s')) (base' : Nat) :
    r.base = base ∧ ofText p responder text base' s = .ok ({ r with base := base' }, s') := by
  obtain ⟨shell, split, ofShell⟩ := ofText_eq_ok.mp resolved
  obtain ⟨same, rebased⟩ := ofShell_rebase ofShell base'
  exact ⟨same, ofText_eq_ok.mpr ⟨shell, split, rebased⟩⟩

end Resolution

/-- Resolved at a base offset, a text has the tree that it has at zero, shifted by the base; names,
types, tags, sizes, widths and statuses stay. -/
theorem resolve_shifted {σ : Type} (p : Profile) (responder : Responder σ) (text : Text) (b : Nat)
    (s s' : σ) :
    (∀ d, p.resolveDeclaration responder text 0 s = .ok (d, s') → d.root.node.RoomFor b →
      p.resolveDeclaration responder text b s = .ok (d.shift b, s')) ∧
    ∀ a, p.resolveBody responder text 0 s = .ok (a, s') → a.node.RoomFor b →
      p.resolveBody responder text b s = .ok (a.shift b, s') := by
  constructor
  · intro d resolved room
    obtain ⟨r, ofText, rfl⟩ := resolveDeclaration_eq_ok.mp resolved
    obtain ⟨zero, rebased⟩ := Resolution.ofText_rebase ofText b
    refine resolveDeclaration_eq_ok.mpr ⟨_, rebased, ?_⟩
    have shifted := Resolution.root_shift room
    rw [zero, Nat.zero_add] at shifted
    simp only [Declaration.shift, Resolution.declaration, shifted]
  · intro a resolved room
    obtain ⟨r, ofShell, rfl⟩ := resolveBody_eq_ok.mp resolved
    obtain ⟨zero, rebased⟩ := Resolution.ofShell_rebase ofShell b
    refine resolveBody_eq_ok.mpr ⟨_, rebased, ?_⟩
    have shifted := Resolution.root_shift room
    rw [zero, Nat.zero_add] at shifted
    exact shifted.symm

-- Moved to 16, once with its shell and once as a bare body.
theorem resolve_shifted_nested :
    let responder := Responder.ofFunctions (fun _ => .notFound) (fun _ _ => none) (fun _ => false)
    let body := Spelling.writeAll nestedMembers
    ∃ d a, Profile.x64.resolveDeclaration responder nestedText 0 () = .ok (d, ()) ∧
      d.root.node.RoomFor 16 ∧
      Profile.x64.resolveBody responder body 0 () = .ok (a, ()) ∧ a.node.RoomFor 16 ∧
      Profile.x64.resolveDeclaration responder nestedText 16 () = .ok (d.shift 16, ()) ∧
      Profile.x64.resolveBody responder body 16 () = .ok (a.shift 16, ()) := by
  intro responder body
  let d : Resolution := ⟨nestedShell, nestedSized, 0⟩
  let a : Resolution := ⟨.bare body, nestedSized, 0⟩
  have sized := sizeFields_nestedMembers responder ()
  have declaration : Profile.x64.resolveDeclaration responder nestedText 0 () =
      .ok (d.declaration, ()) :=
    resolveDeclaration_eq_ok.mpr ⟨d, by rw [Resolution.ofText_nestedText, sized], rfl⟩
  have normal : normalize body = body := by decide
  have bare : Profile.x64.resolveBody responder body 0 () = .ok (a.root, ()) := by
    have ofShell : Resolution.ofShell Profile.x64 responder (.bare body) 0 () = .ok (a, ()) :=
      Resolution.ofShell_eq_ok.mpr ⟨_, segment_nestedMembers, by rw [sized], by rw [sized]⟩
    exact resolveBody_eq_ok.mpr ⟨a, by rw [normal, ofShell], rfl⟩
  have placed : placeMembers .struct nestedSized 0 =
      [.block ⟨.union, none, some "u[2]".toList, 0, 8, 8⟩
          [.field ⟨"INT".toList, "a".toList, 4, 4, .resolved⟩,
            .field ⟨"CHAR".toList, "b".toList, 1, 1, .resolved⟩],
        .field ⟨"INT".toList, "c[3]".toList, 12, 20, .resolved⟩] := by rfl
  have rooms : ∀ n ∈ placeMembers .struct nestedSized 0, n.RoomFor 16 := by
    simp [placed, wordMax]
  have declarationRoom : d.declaration.root.node.RoomFor 16 :=
    Node.roomFor_block.mpr ⟨by decide, rooms⟩
  have bareRoom : a.root.node.RoomFor 16 := Node.roomFor_block.mpr ⟨by decide, rooms⟩
  exact ⟨_, _, declaration, declarationRoom, bare, bareRoom,
    (resolve_shifted Profile.x64 responder nestedText 16 () ()).1 _ declaration declarationRoom,
    (resolve_shifted Profile.x64 responder body 16 () ()).2 _ bare bareRoom⟩

end MemberOffsets
