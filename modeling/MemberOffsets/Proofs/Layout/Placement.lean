import MemberOffsets.Layout.Resolution
import MemberOffsets.Proofs.Declaration.Segmentation

/-!
What placement does at every member of a tree: a relation between statements and placed nodes in
exact arithmetic, and a run of the same rules with one running offset in which every sum and
difference is checked. Placement satisfies the relation, and the run never leaves the range.
-/

set_option autoImplicit false

namespace MemberOffsets

open Text

def Kind.next (kind : Kind) (entry : Nat) (n : Node) : Nat :=
  match kind with
  | .struct => n.offsetAfter
  | .union => entry

@[simp] theorem placeMembers_nil (kind : Kind) (entry : Nat) : placeMembers kind [] entry = [] := by
  cases kind <;> rfl

theorem placeMembers_cons (kind : Kind) (m : SizedStatement) (ms : List SizedStatement)
    (entry : Nat) :
    placeMembers kind (m :: ms) entry =
      place m entry :: placeMembers kind ms (kind.next entry (place m entry)) := by
  cases kind <;> rfl

def literalProduct? : List Text → Option Nat
  | [] => some 1
  | dim :: dims => do
      let n ← if dim.isEmpty then some 0 else literal? dim
      let rest ← literalProduct? dims
      some (n * rest)

def copies (dims : List Text) : Nat := (literalProduct? dims).getD 1

theorem min_mul_min (a b c : Nat) : min (min a c * b) c = min (a * b) c := by
  rcases Nat.eq_zero_or_pos b with rfl | positive
  · simp
  · rcases Nat.le_total a c with small | large
    · rw [Nat.min_eq_left small]
    · have left : c ≤ c * b := Nat.le_mul_of_pos_right c positive
      have right : c * b ≤ a * b := Nat.mul_le_mul_right b large
      rw [Nat.min_eq_right large, Nat.min_eq_right left, Nat.min_eq_right (Nat.le_trans left right)]

theorem foldlM_countDim (dims : List Text) (count : Nat) :
    (dims.foldlM countDim (min count wordMax)).toOption =
      (literalProduct? dims).map fun n => min (count * n) wordMax := by
  induction dims generalizing count with
  | nil => simp [literalProduct?, Except.toOption, pure, Except.pure]
  | cons dim dims ih =>
    by_cases empty : dim.isEmpty
    · have := ih 0
      cases h : literalProduct? dims <;>
        simp_all [literalProduct?, countDim, bind, Except.bind]
    · cases value : literal? dim with
      | none => simp [literalProduct?, countDim, empty, value, bind, Except.bind, Except.toOption]
      | some n =>
        have := ih (count * n)
        cases h : literalProduct? dims <;>
          simp_all [literalProduct?, countDim, bind, Except.bind, min_mul_min, Nat.mul_assoc]

theorem BlockDecl.count_eq (b : BlockDecl) : b.count = min (copies b.dims) wordMax := by
  have folded := foldlM_countDim b.dims 1
  rw [show min 1 wordMax = 1 by decide] at folded
  rw [BlockDecl.count, elementCount, copies, folded]
  cases literalProduct? b.dims with
  | none => decide
  | some n => simp

structure FieldPlaced (d : FieldDecl) (offset : Nat) (f : FieldNode) : Prop where
  type : f.type = d.type
  name : f.name = d.name
  start : f.start = offset
  offsetAfter : f.start + f.width = f.offsetAfter
  inRange : f.offsetAfter ≤ wordMax

structure BlockPlaced (b : BlockDecl) (offset extent : Nat) (n : BlockNode) : Prop where
  kind : n.kind = b.kind
  tag : n.tag = b.tag
  declarator : n.declarator = b.name
  entry : n.entry = offset
  size : n.size = min (extent * copies b.dims) (wordMax - offset)
  offsetAfter : n.offsetAfter = n.entry + n.size
  start : n.offsetAfter - n.size = n.entry
  inRange : n.offsetAfter ≤ wordMax

theorem BlockPlaced.offset_le {b : BlockDecl} {offset extent : Nat} {n : BlockNode}
    (placed : BlockPlaced b offset extent n) : offset ≤ wordMax := by
  have after := placed.offsetAfter
  have entry := placed.entry
  have inRange := placed.inRange
  omega

mutual

inductive Placed : Statement → Nat → Node → Prop
  | field {d : FieldDecl} {offset : Nat} {f : FieldNode} :
      FieldPlaced d offset f → Placed (.field d) offset (.field f)
  | struct {b : BlockDecl} {ms : List Statement} {entry extent : Nat} {n : BlockNode}
      {ns : List Node} :
      b.kind = .struct → PlacedInOrder ms entry ns (entry + extent) →
        BlockPlaced b entry extent n → Placed (.block b ms) entry (.block n ns)
  | union {b : BlockDecl} {ms : List Statement} {entry extent : Nat} {n : BlockNode}
      {ns : List Node} :
      b.kind = .union → PlacedOverlaid ms entry ns extent →
        BlockPlaced b entry extent n → Placed (.block b ms) entry (.block n ns)

/-- Each member starts where the one before it ends; the last offset is where the last one ends. -/
inductive PlacedInOrder : List Statement → Nat → List Node → Nat → Prop
  | nil {offset : Nat} : PlacedInOrder [] offset [] offset
  | cons {m : Statement} {ms : List Statement} {offset last : Nat} {n : Node} {ns : List Node} :
      Placed m offset n → PlacedInOrder ms n.offsetAfter ns last →
        PlacedInOrder (m :: ms) offset (n :: ns) last

/-- All members start at one offset; the last number is the size of the largest. -/
inductive PlacedOverlaid : List Statement → Nat → List Node → Nat → Prop
  | nil {offset : Nat} : PlacedOverlaid [] offset [] 0
  | cons {m : Statement} {ms : List Statement} {offset largest : Nat} {n : Node} {ns : List Node} :
      Placed m offset n → PlacedOverlaid ms offset ns largest →
        PlacedOverlaid (m :: ms) offset (n :: ns) (max n.size largest)

end

theorem Placed.offsets {m : Statement} {offset : Nat} {n : Node} (placed : Placed m offset n) :
    n.start = offset ∧ n.offsetAfter = offset + n.size ∧ n.offsetAfter ≤ wordMax := by
  cases placed with
  | field f =>
    have after := f.offsetAfter
    rw [f.start] at after
    exact ⟨f.start, after.symm, f.inRange⟩
  | struct _ _ b | union _ _ b =>
    have entry := b.entry
    exact ⟨b.start.trans entry, entry ▸ b.offsetAfter, b.inRange⟩

theorem PlacedInOrder.last_eq {ms : List Statement} {offset last : Nat} {ns : List Node}
    (placed : PlacedInOrder ms offset ns last) :
    last = ns.getLast?.elim offset Node.offsetAfter := by
  induction ns generalizing ms offset with
  | nil => cases placed; rfl
  | cons n ns ih =>
    cases placed with
    | cons _ rest =>
      rw [ih rest]
      cases ns <;> rfl

theorem PlacedInOrder.le_last {ms : List Statement} {offset last : Nat} {ns : List Node}
    (placed : PlacedInOrder ms offset ns last) : offset ≤ last := by
  induction ns generalizing ms offset with
  | nil => cases placed; exact Nat.le_refl _
  | cons n ns ih =>
    cases placed with
    | cons first rest =>
      have := first.offsets
      have := ih rest
      omega

theorem PlacedInOrder.last_le {ms : List Statement} {offset last : Nat} {ns : List Node}
    (placed : PlacedInOrder ms offset ns last) (inRange : offset ≤ wordMax) : last ≤ wordMax := by
  induction ns generalizing ms offset with
  | nil => cases placed; exact inRange
  | cons n ns ih =>
    cases placed with
    | cons first rest => exact ih rest first.offsets.2.2

theorem PlacedOverlaid.largest_eq {ms : List Statement} {offset largest : Nat} {ns : List Node}
    (placed : PlacedOverlaid ms offset ns largest) (least : Nat) :
    (ns.map Node.size).foldl max least = max least largest := by
  induction ns generalizing ms largest least with
  | nil => cases placed; simp
  | cons n ns ih =>
    cases placed with
    | cons _ rest => simp [ih rest, Nat.max_assoc]

theorem min_mul_min_right {limit : Nat} (extent count : Nat) (within : limit ≤ wordMax) :
    min (extent * min count wordMax) limit = min (extent * count) limit := by
  rcases Nat.eq_zero_or_pos extent with rfl | positive
  · simp
  · rcases Nat.le_total count wordMax with small | large
    · rw [Nat.min_eq_left small]
    · have left : wordMax ≤ extent * wordMax := Nat.le_mul_of_pos_left wordMax positive
      have right : wordMax ≤ extent * count :=
        Nat.le_trans left (Nat.mul_le_mul_left extent large)
      rw [Nat.min_eq_right large]
      omega

theorem blockPlaced_placeAt (b : BlockDecl) {entry : Nat} (nodes : List Node)
    (inRange : entry ≤ wordMax) :
    BlockPlaced b entry (reach b.kind entry nodes) (b.placeAt entry nodes) where
  kind := rfl
  tag := rfl
  declarator := rfl
  entry := rfl
  size := by
    simp only [BlockDecl.placeAt, BlockDecl.count_eq]
    exact min_mul_min_right _ _ (Nat.sub_le _ _)
  offsetAfter := rfl
  start := by simp [BlockDecl.placeAt]
  inRange := by
    simp only [BlockDecl.placeAt]
    omega

theorem fieldPlaced_placeAt (f : SizedField) {offset : Nat} (inRange : offset ≤ wordMax) :
    FieldPlaced f.decl offset (f.placeAt offset) := by
  by_cases fits : offset + f.extent.1 ≤ wordMax
  · constructor <;> simp [SizedField.placeAt, FieldNode.start, fits]
  · constructor <;> simp [SizedField.placeAt, FieldNode.start, fits, inRange]

def declared (ms : List SizedStatement) : List Statement := MemberTree.mapAll id SizedField.decl ms

def MembersPlaced (ms : List SizedStatement) : Prop :=
  ∀ entry, entry ≤ wordMax →
    (∃ last, PlacedInOrder (declared ms) entry (placeInOrder ms entry) last) ∧
      ∃ largest, PlacedOverlaid (declared ms) entry (placeOverlaid ms entry) largest

theorem placed_block (b : BlockDecl) {ms : List SizedStatement} (members : MembersPlaced ms)
    {entry : Nat} (inRange : entry ≤ wordMax) :
    Placed (.block b (declared ms)) entry (place (.block b ms) entry) := by
  have block := blockPlaced_placeAt b (placeMembers b.kind ms entry) inRange
  obtain ⟨⟨last, inOrder⟩, ⟨largest, overlaid⟩⟩ := members entry inRange
  rw [place_block]
  cases kind : b.kind with
  | struct =>
    have bound := inOrder.le_last
    have extent : entry + reach .struct entry (placeInOrder ms entry) = last := by
      rw [reach, ← inOrder.last_eq]
      omega
    rw [kind] at block
    exact .struct kind (extent ▸ inOrder) block
  | union =>
    have extent : reach .union entry (placeOverlaid ms entry) = largest := by
      simpa [reach] using overlaid.largest_eq 0
    rw [kind] at block
    exact .union kind (extent ▸ overlaid) block

theorem membersPlaced_cons {m : SizedStatement} {ms : List SizedStatement}
    (first : ∀ entry, entry ≤ wordMax → Placed (m.map id SizedField.decl) entry (place m entry))
    (rest : MembersPlaced ms) : MembersPlaced (m :: ms) := by
  intro entry inRange
  have placed := first entry inRange
  obtain ⟨last, behind⟩ := (rest _ placed.offsets.2.2).1
  obtain ⟨largest, beside⟩ := (rest entry inRange).2
  simp only [declared, MemberTree.mapAll_cons, placeInOrder, placeOverlaid]
  exact ⟨⟨last, .cons placed behind⟩, ⟨_, .cons placed beside⟩⟩

-- One induction for both ways to place a list: a block needs the one that its kind chooses.
theorem membersPlaced (ms : List SizedStatement) : MembersPlaced ms := by
  induction ms using MemberTree.members_induction with
  | nil =>
    intro entry _
    simp only [declared, MemberTree.mapAll_nil, placeInOrder, placeOverlaid]
    exact ⟨⟨entry, .nil⟩, ⟨0, .nil⟩⟩
  | field f ms ih =>
    refine membersPlaced_cons (fun entry inRange => ?_) ih
    simp only [MemberTree.map_field, place]
    exact .field (fieldPlaced_placeAt f inRange)
  | block b inner ms ihInner ih =>
    refine membersPlaced_cons (fun entry inRange => ?_) ih
    rw [MemberTree.map_block]
    exact placed_block b ihInner inRange

theorem placed_place (m : SizedStatement) {entry : Nat} (inRange : entry ≤ wordMax) :
    Placed (m.map id SizedField.decl) entry (place m entry) := by
  cases m with
  | field f =>
    simp only [MemberTree.map_field, place]
    exact .field (fieldPlaced_placeAt f inRange)
  | block b ms =>
    rw [MemberTree.map_block]
    exact placed_block b (membersPlaced ms) inRange

theorem Kind.next_le (kind : Kind) (m : SizedStatement) {entry : Nat} (inRange : entry ≤ wordMax) :
    kind.next entry (place m entry) ≤ wordMax := by
  cases kind
  · exact (placed_place m inRange).offsets.2.2
  · exact inRange

def sum? (m n : Nat) : Option Nat := if m + n ≤ wordMax then some (m + n) else none

def difference? (m n : Nat) : Option Nat := if n ≤ m then some (m - n) else none

/-- A field at the running offset. Only this sum may fail: the field is then marked and the offset
stays. -/
def SizedField.advance (f : SizedField) (running : Nat) : FieldNode × Nat :=
  let (width, status) := f.extent
  match sum? running width with
  | some last => (⟨f.decl.type, f.decl.name, width, last, status⟩, last)
  | none => (⟨f.decl.type, f.decl.name, 0, running, .unresolved .offsetOverflow⟩, running)

def BlockDecl.advance? (b : BlockDecl) (entry extent : Nat) : Option BlockNode := do
  let size := min (extent * b.count) wordMax
  let size ← if (sum? entry size).isSome then some size else difference? wordMax entry
  let last ← sum? entry size
  some ⟨b.kind, b.tag, b.name, entry, size, last⟩

mutual

/-- The node of a statement and the running offset behind it, none if a sum passes the range or a
difference is negative. -/
def advance? : SizedStatement → Nat → Option (Node × Nat)
  | .field f, running =>
      let (node, last) := f.advance running
      some (.field node, last)
  | .block b ms, entry => do
      let (nodes, extent) ← match b.kind with
        | .struct => do
            let (nodes, last) ← advanceInOrder? ms entry
            let extent ← difference? last entry
            some (nodes, extent)
        | .union => advanceOverlaid? ms entry 0
      let node ← b.advance? entry extent
      some (.block node nodes, node.offsetAfter)

def advanceInOrder? : List SizedStatement → Nat → Option (List Node × Nat)
  | [], running => some ([], running)
  | m :: ms, running => do
      let (node, running) ← advance? m running
      let (nodes, running) ← advanceInOrder? ms running
      some (node :: nodes, running)

def advanceOverlaid? : List SizedStatement → (entry largest : Nat) → Option (List Node × Nat)
  | [], _, largest => some ([], largest)
  | m :: ms, entry, largest => do
      let (node, last) ← advance? m entry
      let size ← difference? last entry
      let (nodes, largest) ← advanceOverlaid? ms entry (max largest size)
      some (node :: nodes, largest)

end

theorem SizedField.advance_eq (f : SizedField) (running : Nat) :
    f.advance running = (f.placeAt running, (f.placeAt running).offsetAfter) := by
  by_cases fits : running + f.extent.1 ≤ wordMax <;>
    simp [SizedField.advance, SizedField.placeAt, sum?, fits]

theorem BlockDecl.advance?_eq (b : BlockDecl) (nodes : List Node) {entry : Nat}
    (inRange : entry ≤ wordMax) :
    b.advance? entry (reach b.kind entry nodes) = some (b.placeAt entry nodes) := by
  by_cases fits : entry + min (reach b.kind entry nodes * b.count) wordMax ≤ wordMax
  · have size : min (reach b.kind entry nodes * b.count) wordMax =
        min (reach b.kind entry nodes * b.count) (wordMax - entry) := by omega
    rw [size] at fits
    simp [BlockDecl.advance?, BlockDecl.placeAt, sum?, size, fits]
  · have size : min (reach b.kind entry nodes * b.count) (wordMax - entry) = wordMax - entry := by
      omega
    have last : entry + (wordMax - entry) ≤ wordMax := by omega
    simp [BlockDecl.advance?, BlockDecl.placeAt, sum?, difference?, fits, inRange, size]

def MembersAdvance (ms : List SizedStatement) : Prop :=
  ∀ entry, entry ≤ wordMax →
    advanceInOrder? ms entry =
        some (placeInOrder ms entry, (placeInOrder ms entry).getLast?.elim entry Node.offsetAfter) ∧
      ∀ largest, advanceOverlaid? ms entry largest =
        some (placeOverlaid ms entry, ((placeOverlaid ms entry).map Node.size).foldl max largest)

theorem advance?_block (b : BlockDecl) {ms : List SizedStatement} (members : MembersAdvance ms)
    {entry : Nat} (inRange : entry ≤ wordMax) :
    advance? (.block b ms) entry =
      some (place (.block b ms) entry, (place (.block b ms) entry).offsetAfter) := by
  obtain ⟨inOrder, overlaid⟩ := members entry inRange
  have node := b.advance?_eq (placeMembers b.kind ms entry) inRange
  have entryLast : entry ≤ (placeInOrder ms entry).getLast?.elim entry Node.offsetAfter := by
    obtain ⟨last, placed⟩ := (membersPlaced ms entry inRange).1
    exact placed.last_eq ▸ placed.le_last
  rw [place_block, advance?]
  cases kind : b.kind <;> rw [kind] at node
  · simp only [reach, placeMembers] at node
    simp [placeMembers, inOrder, difference?, entryLast, node, Node.offsetAfter]
  · simp only [reach, placeMembers] at node
    simp [placeMembers, overlaid, node, Node.offsetAfter]

theorem membersAdvance_cons {m : SizedStatement} {ms : List SizedStatement}
    (first : ∀ entry, entry ≤ wordMax →
      advance? m entry = some (place m entry, (place m entry).offsetAfter))
    (rest : MembersAdvance ms) : MembersAdvance (m :: ms) := by
  intro entry inRange
  obtain ⟨-, offsetAfter, bound⟩ := (placed_place m inRange).offsets
  have behind := (rest _ bound).1
  have beside := (rest entry inRange).2
  have size : difference? (place m entry).offsetAfter entry = some (place m entry).size := by
    have : entry ≤ (place m entry).offsetAfter := by omega
    simp only [difference?, this, if_true, Option.some.injEq]
    omega
  constructor
  · simp only [advanceInOrder?, placeInOrder, first entry inRange, behind, Option.bind_eq_bind,
      Option.bind_some, Option.some.injEq, Prod.mk.injEq, true_and]
    cases placeInOrder ms (place m entry).offsetAfter <;> rfl
  · intro largest
    simp [advanceOverlaid?, placeOverlaid, first entry inRange, size, beside]

theorem membersAdvance (ms : List SizedStatement) : MembersAdvance ms := by
  induction ms using MemberTree.members_induction with
  | nil => intro entry _; simp [advanceInOrder?, advanceOverlaid?, placeInOrder, placeOverlaid]
  | field f ms ih =>
    refine membersAdvance_cons (fun entry _ => ?_) ih
    simp [advance?, place, f.advance_eq, Node.offsetAfter]
  | block b inner ms ihInner ih => exact membersAdvance_cons (fun _ => advance?_block b ihInner) ih

theorem advance?_eq (m : SizedStatement) {entry : Nat} (inRange : entry ≤ wordMax) :
    advance? m entry = some (place m entry, (place m entry).offsetAfter) := by
  cases m with
  | field f => simp [advance?, place, f.advance_eq, Node.offsetAfter]
  | block b ms => exact advance?_block b (membersAdvance ms) inRange

theorem Profile.sizeField_eq {σ : Type} (p : Profile) (r : Responder σ) (d : FieldDecl) (s : σ) :
    p.sizeField r d s =
      (⟨d, ((p.sizing d.type).run r s).2.1, ((p.sizing d.type).run r s).1⟩,
        ((p.sizing d.type).run r s).2.2) := by
  rw [sizeField]

theorem declared_sizeField {σ : Type} (p : Profile) (r : Responder σ) (m : Statement) (s : σ) :
    (m.traverse (p.sizeField r) s).1.map id SizedField.decl = m :=
  MemberTree.map_traverse _ _ (fun _ _ => rfl) m s

theorem declared_sizeFields {σ : Type} (p : Profile) (r : Responder σ) (ms : List Statement)
    (s : σ) : declared (p.sizeFields r ms s).1 = ms :=
  MemberTree.mapAll_traverseAll _ _ (fun _ _ => rfl) ms s

def Profile.resolveStatement {σ : Type} (p : Profile) (r : Responder σ) (m : Statement)
    (base : Nat) (s : σ) : Node :=
  place (m.traverse (p.sizeField r) s).1 base

/-- Every statement is placed as the relation says, and the checked run gives the same node without
leaving the range; it ends where the node ends. -/
theorem resolveStatement_placed {σ : Type} (p : Profile) (r : Responder σ) (m : Statement)
    (base : Nat) (s : σ) (inRange : base ≤ wordMax) :
    Placed m base (p.resolveStatement r m base s) ∧
      advance? (m.traverse (p.sizeField r) s).1 base =
        some (p.resolveStatement r m base s, (p.resolveStatement r m base s).offsetAfter) := by
  constructor
  · have placed := placed_place (m.traverse (p.sizeField r) s).1 inRange
    rwa [declared_sizeField] at placed
  · exact advance?_eq _ inRange

-- Two bytes before the end of the range the union is clamped, and the field behind it is marked.
theorem resolveStatement_placed_at_the_end :
    wordMax - 2 ≤ wordMax ∧
      let m : Statement := .block (.root .struct none) (Spelling.statementsOf nestedMembers)
      let r := Responder.ofFunctions (fun _ => .notFound) (fun _ _ => none) (fun _ => false)
      let n := Profile.x64.resolveStatement r m (wordMax - 2) ()
      Placed m (wordMax - 2) n ∧
        advance? (m.traverse (Profile.x64.sizeField r) ()).1 (wordMax - 2) =
          some (n, n.offsetAfter) :=
  ⟨by decide, resolveStatement_placed Profile.x64 _ _ (wordMax - 2) () (by decide)⟩

end MemberOffsets
