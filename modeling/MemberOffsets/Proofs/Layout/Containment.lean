import MemberOffsets.Proofs.Layout.Placement
import MemberOffsets.Proofs.Layout.Resolution

set_option autoImplicit false

namespace MemberOffsets

open Text

/-- No block on the way from the member at `top` down to the one at `top ++ path`, that one left
out, is an array of zero elements. -/
def NoEmptyArray (tree : Statement) (top path : List Nat) : Prop :=
  ∀ above, above <+: path → above ≠ path →
    ∀ b ms, tree.at? (top ++ above) = some (.block b ms) → literalProduct? b.dims ≠ some 0

-- Depth-first order is the order of the indices at which two paths part, and the block where they
-- part is the nearest that holds both.
def FieldsApart (tree : Statement) (node : Node) : Prop :=
  ∀ (fork : List Nat) (i j : Nat) (path later : List Nat) (b : BlockNode) (ns : List Node)
    (f g : FieldNode),
    i < j → node.at? fork = some (.block b ns) → b.kind = .struct →
      node.at? (fork ++ i :: path) = some (.field f) →
        node.at? (fork ++ j :: later) = some (.field g) →
          NoEmptyArray tree (fork ++ [i]) path → f.offsetAfter ≤ g.start

def FieldsInside (tree : Statement) (node : Node) : Prop :=
  ∀ (top path : List Nat) (b : BlockNode) (ns : List Node) (f : FieldNode),
    node.at? top = some (.block b ns) → node.at? (top ++ path) = some (.field f) →
      NoEmptyArray tree top path → b.entry ≤ f.start ∧ f.offsetAfter ≤ b.offsetAfter

theorem NoEmptyArray.below {tree m : Statement} {top path : List Nat}
    (found : tree.at? top = some m)
    (nonempty : NoEmptyArray tree top path) : NoEmptyArray m [] path := by
  intro above inside proper b ms block
  apply nonempty above inside proper b ms
  rw [MemberTree.at?_append, found]
  exact block

theorem NoEmptyArray.head {b : BlockDecl} {ms : List Statement} {i : Nat} {path : List Nat}
    (nonempty : NoEmptyArray (.block b ms) [] (i :: path)) : literalProduct? b.dims ≠ some 0 :=
  nonempty [] List.nil_prefix (by simp) b ms rfl

theorem NoEmptyArray.tail {b : BlockDecl} {ms : List Statement} {m : Statement} {i : Nat}
    {path : List Nat} (member : ms[i]? = some m)
    (nonempty : NoEmptyArray (.block b ms) [] (i :: path)) : NoEmptyArray m [] path := by
  intro above inside proper b' ms' block
  apply nonempty (i :: above) (by simpa using inside) (by simpa using proper) b' ms'
  simpa [member] using block

theorem copies_pos {dims : List Text} (nonzero : literalProduct? dims ≠ some 0) :
    0 < copies dims := by
  cases h : literalProduct? dims with
  | none => simp [copies, h]
  | some n =>
    have : n ≠ 0 := by
      rintro rfl
      exact nonzero h
    simp only [copies, h, Option.getD_some]
    omega

theorem PlacedInOrder.member {ms : List Statement} {offset last : Nat} {ns : List Node}
    (placed : PlacedInOrder ms offset ns last) {i : Nat} {n : Node} (found : ns[i]? = some n) :
    ∃ m start, ms[i]? = some m ∧ Placed m start n ∧ offset ≤ start ∧ n.offsetAfter ≤ last := by
  induction ns generalizing ms offset i with
  | nil => simp at found
  | cons first ns ih =>
    cases placed with
    | @cons m ms _ _ _ _ here rest =>
      cases i with
      | zero =>
        obtain rfl : first = n := by simpa using found
        exact ⟨m, offset, rfl, here, Nat.le_refl _, rest.le_last⟩
      | succ i =>
        obtain ⟨m, start, at_, placed, lower, upper⟩ := ih rest (by simpa using found)
        have := here.offsets
        exact ⟨m, start, by simpa using at_, placed, by omega, upper⟩

theorem PlacedInOrder.apart {ms : List Statement} {offset last : Nat} {ns : List Node}
    (placed : PlacedInOrder ms offset ns last) {i j : Nat} {n n' : Node} (order : i < j)
    (first : ns[i]? = some n) (second : ns[j]? = some n') : n.offsetAfter ≤ n'.start := by
  induction ns generalizing ms offset i j with
  | nil => simp at first
  | cons head ns ih =>
    cases placed with
    | cons here rest =>
      cases j with
      | zero => omega
      | succ j =>
        cases i with
        | zero =>
          obtain rfl : head = n := by simpa using first
          obtain ⟨m, start, -, placed, lower, -⟩ := rest.member (by simpa using second)
          exact placed.offsets.1 ▸ lower
        | succ i =>
          have first : ns[i]? = some n := by simpa using first
          have second : ns[j]? = some n' := by simpa using second
          exact ih rest (by omega) first second

theorem PlacedOverlaid.member {ms : List Statement} {offset largest : Nat} {ns : List Node}
    (placed : PlacedOverlaid ms offset ns largest) {i : Nat} {n : Node} (found : ns[i]? = some n) :
    ∃ m, ms[i]? = some m ∧ Placed m offset n ∧ n.size ≤ largest := by
  induction ns generalizing ms largest i with
  | nil => simp at found
  | cons first ns ih =>
    cases placed with
    | @cons m ms _ _ _ _ here rest =>
      cases i with
      | zero =>
        obtain rfl : first = n := by simpa using found
        exact ⟨m, rfl, here, Nat.le_max_left _ _⟩
      | succ i =>
        obtain ⟨m, at_, placed, bound⟩ := ih rest (by simpa using found)
        exact ⟨m, by simpa using at_, placed, Nat.le_trans bound (Nat.le_max_right _ _)⟩

theorem PlacedOverlaid.largest_le {ms : List Statement} {offset largest : Nat} {ns : List Node}
    (placed : PlacedOverlaid ms offset ns largest) (inRange : offset ≤ wordMax) :
    offset + largest ≤ wordMax := by
  induction ns generalizing ms largest with
  | nil => cases placed; exact inRange
  | cons n ns ih =>
    cases placed with
    | cons here rest =>
      have := here.offsets
      have := ih rest
      omega

theorem BlockPlaced.fills {b : BlockDecl} {entry extent : Nat} {n : BlockNode}
    (placed : BlockPlaced b entry extent n) (inRange : entry + extent ≤ wordMax)
    (nonzero : literalProduct? b.dims ≠ some 0) : entry + extent ≤ n.offsetAfter := by
  have once : extent ≤ extent * copies b.dims :=
    Nat.le_mul_of_pos_right extent (copies_pos nonzero)
  have after := placed.offsetAfter
  rw [placed.entry, placed.size] at after
  omega

theorem Placed.member {b : BlockDecl} {ms : List Statement} {entry : Nat} {n : BlockNode}
    {ns : List Node} (placed : Placed (.block b ms) entry (.block n ns)) {i : Nat} {x : Node}
    (found : ns[i]? = some x) :
    ∃ m start, ms[i]? = some m ∧ Placed m start x ∧ entry ≤ start ∧
      (literalProduct? b.dims ≠ some 0 → x.offsetAfter ≤ n.offsetAfter) := by
  cases placed with
  | struct _ members block =>
    obtain ⟨m, start, at_, here, lower, upper⟩ := members.member found
    exact ⟨m, start, at_, here, lower, fun nonzero =>
      Nat.le_trans upper (block.fills (members.last_le block.offset_le) nonzero)⟩
  | union _ members block =>
    obtain ⟨m, at_, here, bound⟩ := members.member found
    refine ⟨m, entry, at_, here, Nat.le_refl _, fun nonzero => ?_⟩
    have := block.fills (members.largest_le block.offset_le) nonzero
    have := here.offsets
    omega

theorem Placed.found {m : Statement} {offset : Nat} {n x : Node} {path : List Nat}
    (placed : Placed m offset n) (found : n.at? path = some x) :
    ∃ t start, m.at? path = some t ∧ Placed t start x ∧ offset ≤ start := by
  induction path generalizing m offset n with
  | nil =>
    obtain rfl : n = x := by simpa using found
    exact ⟨m, offset, by simp, placed, Nat.le_refl _⟩
  | cons i path ih =>
    cases n with
    | field f => simp at found
    | block b ns =>
      obtain ⟨y, member, below⟩ := Option.bind_eq_some_iff.mp found
      cases m with
      | field d => cases placed
      | block d ms =>
        obtain ⟨t, start, at_, here, lower, -⟩ := placed.member member
        obtain ⟨u, first, deeper, there, above⟩ := ih here below
        exact ⟨u, first, by simp [at_, deeper], there, by omega⟩

theorem Placed.field_le {m : Statement} {offset : Nat} {n : Node} {path : List Nat} {f : FieldNode}
    (placed : Placed m offset n) (found : n.at? path = some (.field f))
    (nonempty : NoEmptyArray m [] path) : f.offsetAfter ≤ n.offsetAfter := by
  induction path generalizing m offset n with
  | nil =>
    obtain rfl : n = .field f := by simpa using found
    exact Nat.le_refl _
  | cons i path ih =>
    cases n with
    | field g => simp at found
    | block b ns =>
      obtain ⟨y, member, below⟩ := Option.bind_eq_some_iff.mp found
      cases m with
      | field d => cases placed
      | block d ms =>
        obtain ⟨t, start, at_, here, -, upper⟩ := placed.member member
        exact Nat.le_trans (ih here below (nonempty.tail at_)) (upper nonempty.head)

theorem Placed.fieldsInside {tree : Statement} {base : Nat} {node : Node}
    (placed : Placed tree base node) : FieldsInside tree node := by
  intro top path b ns f block field nonempty
  obtain ⟨m, start, at_, here, -⟩ := placed.found block
  rw [MemberTree.at?_append, block] at field
  have upper := here.field_le field (nonempty.below at_)
  obtain ⟨t, first, -, there, lower⟩ := here.found field
  have entry : b.entry = start := by
    cases here with
    | struct _ _ placed | union _ _ placed => exact placed.entry
  have first : f.start = first := there.offsets.1
  exact ⟨by omega, upper⟩

theorem Placed.fieldsApart {tree : Statement} {base : Nat} {node : Node}
    (placed : Placed tree base node) : FieldsApart tree node := by
  intro fork i j path later b ns f g order block kind first second nonempty
  obtain ⟨m, start, at_, here, -⟩ := placed.found block
  simp only [MemberTree.at?_append, block, Option.bind_some, MemberTree.at?_block_cons]
    at first second
  obtain ⟨x, xMember, xBelow⟩ := Option.bind_eq_some_iff.mp first
  obtain ⟨y, yMember, yBelow⟩ := Option.bind_eq_some_iff.mp second
  cases here with
  | union unionKind _ placed =>
    rw [placed.kind, unionKind] at kind
    contradiction
  | @struct d ms _ _ _ _ _ members _ =>
    obtain ⟨t, tStart, tMember, xPlaced, -⟩ := members.member xMember
    obtain ⟨u, uStart, -, yPlaced, -⟩ := members.member yMember
    have child : tree.at? (fork ++ [i]) = some t := by simp [MemberTree.at?_append, at_, tMember]
    obtain ⟨v, gStart, -, gPlaced, above⟩ := yPlaced.found yBelow
    calc f.offsetAfter ≤ Node.offsetAfter x := xPlaced.field_le xBelow (nonempty.below child)
      _ ≤ Node.start y := members.apart order xMember yMember
      _ = uStart := yPlaced.offsets.1
      _ ≤ gStart := above
      _ = g.start := gPlaced.offsets.1.symm

namespace Resolution

def outline (r : Resolution) : Statement := .block r.rootDecl (declared r.members)

def node (r : Resolution) : Node := .block r.root.block r.root.members

theorem placed (r : Resolution) (inRange : r.base ≤ wordMax) : Placed r.outline r.base r.node := by
  have placed := placed_place (.block r.rootDecl r.members) inRange
  rwa [MemberTree.map_block, place_block] at placed

end Resolution

/-- However a text is resolved, as a declaration or as a bare body, its fields lie apart and inside
the blocks around them. -/
theorem fields_apart_and_inside {σ : Type} (p : Profile) (responder : Responder σ) (text : Text)
    (base : Nat) (inRange : base ≤ wordMax) (s s' : σ) (r : Resolution)
    (resolved : Resolution.ofText p responder text base s = .ok (r, s') ∨
      Resolution.ofShell p responder (.bare (normalize text)) base s = .ok (r, s')) :
    FieldsApart r.outline r.node ∧ FieldsInside r.outline r.node := by
  have base_eq : r.base = base := by
    rcases resolved with declaration | body
    · obtain ⟨_, -, shell⟩ := Resolution.ofText_eq_ok.mp declaration
      obtain ⟨_, -, rfl, -⟩ := Resolution.ofShell_eq_ok.mp shell
      rfl
    · obtain ⟨_, -, rfl, -⟩ := Resolution.ofShell_eq_ok.mp body
      rfl
  have placed := r.placed (base_eq ▸ inRange)
  exact ⟨placed.fieldsApart, placed.fieldsInside⟩

theorem fields_apart_and_inside_nested :
    let responder := Responder.ofFunctions (fun _ => .notFound) (fun _ _ => none) (fun _ => false)
    ∃ r, 16 ≤ wordMax ∧
      Resolution.ofText Profile.x64 responder nestedText 16 () = .ok (r, ()) ∧
        FieldsApart r.outline r.node ∧ FieldsInside r.outline r.node := by
  intro responder
  have inRange : 16 ≤ wordMax := by decide
  exact ⟨_, inRange, Resolution.ofText_nestedText,
    fields_apart_and_inside Profile.x64 responder nestedText 16 inRange () () _
      (.inl Resolution.ofText_nestedText)⟩

end MemberOffsets
