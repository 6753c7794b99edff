import Mathlib.Data.List.Induction
import MemberOffsets.Proofs.Basic
import MemberOffsets.Symbol.Program

set_option autoImplicit false

namespace MemberOffsets.Pdb

open Text

theorem find?_of_forall₂ {α β : Type} {R : α → β → Prop} {p : α → Bool} {q : β → Bool}
    {as : List α} {bs : List β} (related : List.Forall₂ R as bs)
    (alike : ∀ a b, R a b → p a = q b) :
    (as.find? p = none ∧ bs.find? q = none) ∨
      ∃ a b, as.find? p = some a ∧ bs.find? q = some b ∧ R a b := by
  induction related with
  | nil => exact .inl ⟨rfl, rfl⟩
  | @cons a b as bs here _ ih =>
    rw [List.find?_cons, List.find?_cons, alike a b here]
    cases q b
    · exact ih
    · exact .inr ⟨a, b, rfl, rfl, here⟩

section Firsts

variable {α : Type} (name? : α → Option Text)

def IsFirst (as : List α) (name : Text) (i : Nat) : Prop :=
  as[i]?.bind name? = some name ∧ ∀ j, as[j]?.bind name? = some name → i ≤ j

variable {name? : α → Option Text} {as : List α} {a : α} {name : Text}

theorem mem_filterMap_iff_getElem? :
    name ∈ as.filterMap name? ↔ ∃ i : Nat, as[i]?.bind name? = some name := by
  rw [List.mem_filterMap]
  simp only [List.mem_iff_getElem?, Option.bind_eq_some_iff]
  exact ⟨fun ⟨a, ⟨i, here⟩, named⟩ => ⟨i, a, here, named⟩,
    fun ⟨i, a, here, named⟩ => ⟨a, ⟨i, here⟩, named⟩⟩

theorem IsFirst.of_concat {i : Nat} (first : IsFirst name? (as ++ [a]) name i)
    (known : name ∈ as.filterMap name?) : IsFirst name? as name i := by
  have within {j : Nat} (below : j < as.length) : (as ++ [a])[j]? = as[j]? :=
    List.getElem?_append_left below
  obtain ⟨j, there⟩ := mem_filterMap_iff_getElem?.mp known
  have below : j < as.length := by
    by_contra outside
    simp [List.getElem?_eq_none (Nat.le_of_not_lt outside)] at there
  have early : i ≤ j := first.2 j (by rw [within below, there])
  refine ⟨by rw [← within (by omega), first.1], fun k here => ?_⟩
  by_contra earlier
  exact earlier (first.2 k (by rw [within (by omega), here]))

theorem IsFirst.length_le {i : Nat} (first : IsFirst name? (as ++ [a]) name i)
    (new : name ∉ as.filterMap name?) : as.length ≤ i := by
  by_contra below
  refine new (mem_filterMap_iff_getElem?.mpr ⟨i, ?_⟩)
  rw [← first.1, List.getElem?_append_left (Nat.lt_of_not_le below)]

theorem pairwise_eraseDups (as : List α) :
    (as.filterMap name?).eraseDups.Pairwise fun name later =>
      ∀ i j, IsFirst name? as name i → IsFirst name? as later j → i < j := by
  -- One more item at the end adds a name behind all others or none.
  induction as using List.reverseRecOn with
  | nil => exact .nil
  | append_singleton as a ih =>
    have kept : (as.filterMap name?).eraseDups.Pairwise fun name later =>
        ∀ i j, IsFirst name? (as ++ [a]) name i → IsFirst name? (as ++ [a]) later j → i < j := by
      refine ih.imp_of_mem fun known known' before i j first first' => ?_
      exact before i j (first.of_concat (List.mem_eraseDups.mp known))
        (first'.of_concat (List.mem_eraseDups.mp known'))
    rw [List.filterMap_append, List.eraseDups_append, List.pairwise_append]
    refine ⟨kept, ?_, ?_⟩
    · cases named : name? a with
      | none => simp [named, List.removeAll]
      | some name =>
        rw [List.filterMap_cons_some named, List.removeAll, List.filter_cons]
        split <;> simp [List.eraseDups_cons]
    · intro name known later new i j first first'
      have unknown : later ∉ as.filterMap name? := by
        rw [List.mem_eraseDups, List.removeAll, List.mem_filter] at new
        simpa using new.2
      have known' := List.mem_eraseDups.mp known
      have inside : i < as.length := by
        have first := first.of_concat known'
        by_contra outside
        simpa [List.getElem?_eq_none (Nat.le_of_not_lt outside)] using first.1
      have := first'.length_le unknown
      omega

end Firsts

structure Ordered (items sorted : List MemberLayout) : Prop where
  perm : sorted.Perm items
  ascending : sorted.Pairwise fun m n => m.offset ≤ n.offset
  stable : ∀ offset, sorted.filter (·.offset == offset) = items.filter (·.offset == offset)

theorem ordered_mergeSort (items : List MemberLayout) :
    Ordered items (items.mergeSort fun m n => m.offset ≤ n.offset) := by
  have perm := List.mergeSort_perm items fun m n => m.offset ≤ n.offset
  have trans : ∀ l m n : MemberLayout, decide (l.offset ≤ m.offset) = true →
      decide (m.offset ≤ n.offset) = true → decide (l.offset ≤ n.offset) = true := by
    simp only [decide_eq_true_eq]
    intro l m n
    omega
  have total : ∀ m n : MemberLayout,
      (decide (m.offset ≤ n.offset) || decide (n.offset ≤ m.offset)) = true := by
    simp only [Bool.or_eq_true, decide_eq_true_eq]
    intro m n
    omega
  refine ⟨perm, ?_, fun offset => ?_⟩
  · simpa only [decide_eq_true_eq] using List.pairwise_mergeSort trans total items
  -- Items of one offset are in order already, so sorting keeps their sequence.
  · have level : (items.filter (·.offset == offset)).Pairwise
        fun m n => decide (m.offset ≤ n.offset) = true := by
      refine List.pairwise_of_forall_mem_list fun m among n among' => ?_
      have here := (List.mem_filter.mp among).2
      have here' := (List.mem_filter.mp among').2
      simp only [beq_iff_eq] at here here'
      simp [here, here']
    have kept := (List.sublist_mergeSort trans total level List.filter_sublist).filter
      (·.offset == offset)
    rw [List.filter_filter] at kept
    simp only [Bool.and_self] at kept
    exact (kept.eq_of_length (perm.filter _).length_eq.symm).symm

def completeOf? (entry : Except Fault TypeRecord) : Option CompleteType :=
  entry.toOption.bind TypeRecord.complete?

theorem completeOf?_eq_some {entry : Except Fault TypeRecord} {t : CompleteType} :
    completeOf? entry = some t ↔
      entry = .ok (.aggregate t.kind t.name t.size t.fields false) ∧ t.name.head? ≠ some '<' := by
  obtain ⟨kind, name, size, fields⟩ := t
  cases entry with
  | error fault => simp [completeOf?, Except.toOption]
  | ok record =>
    cases record with
    | aggregate kind' name' size' fields' isForward =>
      cases isForward with
      | true => simp [completeOf?, Except.toOption, TypeRecord.complete?]
      | false =>
        by_cases bracket : name'.head? = some '<' <;>
          simp [completeOf?, Except.toOption, TypeRecord.complete?, bracket] <;> grind
    | _ => simp [completeOf?, Except.toOption, TypeRecord.complete?]

namespace TypeStream

variable {s : TypeStream} {name : Text} {i : Nat} {t : CompleteType}

def CompleteAt (s : TypeStream) (i : Nat) (t : CompleteType) : Prop :=
  s.records[i]? = some (.ok (.aggregate t.kind t.name t.size t.fields false)) ∧
    t.name.head? ≠ some '<'

def NamedAt (s : TypeStream) (name : Text) (i : Nat) : Prop :=
  ∃ t, s.CompleteAt i t ∧ t.name = name

def FirstAt (s : TypeStream) (name : Text) (i : Nat) : Prop :=
  s.NamedAt name i ∧ ∀ j, s.NamedAt name j → i ≤ j

def LastAt (s : TypeStream) (i : Nat) (t : CompleteType) : Prop :=
  s.CompleteAt i t ∧ ∀ j, s.NamedAt t.name j → j ≤ i

inductive Lists (s : TypeStream) : Option Nat → List Member → Prop
  | none : Lists s none []
  | fieldList {index : Nat} {here later : List Member} {continuation : Option Nat} :
      s.record index = .ok (.fieldList here continuation) → Lists s continuation later →
        Lists s (some index) (here ++ later)
  | other {index : Nat} {r : TypeRecord} : s.record index = .ok r →
      (∀ here continuation, r ≠ .fieldList here continuation) → Lists s (some index) []

inductive ForwardTo (s : TypeStream) (name : Text) : Nat → Prop
  | aggregate {index size : Nat} {kind : Kind} {fields : Option Nat} :
      s.record index = .ok (.aggregate kind name size fields true) → ForwardTo s name index
  | modifier {index target : Nat} {isConst : Bool} :
      s.record index = .ok (.modifier target isConst) → ForwardTo s name target →
        ForwardTo s name index

structure Describes (s : TypeStream) (idx : SymbolIndex) (m : Member) (l : MemberLayout) :
    Prop where
  name : l.name = m.name
  offset : l.offset = m.offset
  size : s.sizeOf m.type = .ok l.size
  type : ∃ type, s.nameOf m.type = .ok type ∧ l.type = some type
  forward : ∀ name, s.ForwardTo name m.type →
    l.size = ((idx.find? name).map TypeLayout.size).getD 0

theorem completeTypes_eq : s.completeTypes = s.records.toList.filterMap completeOf? := rfl

theorem completeAt_iff : s.CompleteAt i t ↔ s.records.toList[i]?.bind completeOf? = some t := by
  rw [CompleteAt, Array.getElem?_toList, Option.bind_eq_some_iff]
  simp only [completeOf?_eq_some]
  grind

theorem namedAt_iff : s.NamedAt name i ↔
    s.records.toList[i]?.bind (fun entry => (completeOf? entry).map CompleteType.name) =
      some name := by
  simp only [NamedAt, completeAt_iff, Option.bind_eq_some_iff, Option.map_eq_some_iff]
  grind

theorem names_completeTypes : s.completeTypes.map CompleteType.name =
    s.records.toList.filterMap fun entry => (completeOf? entry).map CompleteType.name := by
  rw [completeTypes_eq, List.map_filterMap]

theorem firstAt_iff : s.FirstAt name i ↔
    IsFirst (fun entry => (completeOf? entry).map CompleteType.name) s.records.toList name i := by
  simp only [FirstAt, IsFirst, namedAt_iff]

theorem lastAt_of_find? (found : s.completeTypes.reverse.find? (·.name == name) = some t) :
    t.name = name ∧ ∃ i, s.LastAt i t := by
  have named : t.name = name := by simpa using List.find?_some found
  rw [completeTypes_eq, ← List.filterMap_reverse, List.find?_filterMap,
    Option.bind_eq_some_iff] at found
  obtain ⟨entry, found, complete⟩ := found
  obtain ⟨-, later, earlier, split, others⟩ := List.find?_eq_some_iff_append.mp found
  have entries : s.records.toList = earlier.reverse ++ entry :: later.reverse := by
    simpa using congrArg List.reverse split
  refine ⟨named, earlier.length, completeAt_iff.mpr (by simp [entries, complete]), ?_⟩
  intro j ⟨u, here, same⟩
  by_contra behind
  obtain ⟨entry', there, complete'⟩ := Option.bind_eq_some_iff.mp (completeAt_iff.mp here)
  obtain ⟨k, rfl⟩ : ∃ k, j = earlier.length + (k + 1) := ⟨j - earlier.length - 1, by omega⟩
  have behind : later.reverse[k]? = some entry' := by
    simpa [entries, List.getElem?_append_right] using there
  have among : entry' ∈ later := List.mem_reverse.mp (List.mem_of_getElem? behind)
  simpa [complete', same, named] using others entry' among

theorem exists_namedAt : (∃ i, s.NamedAt name i) ↔
    (s.completeTypes.reverse.find? (·.name == name)).isSome = true := by
  simp only [namedAt_iff, ← mem_filterMap_iff_getElem?, ← names_completeTypes, List.mem_map,
    List.find?_isSome, List.mem_reverse, beq_iff_eq]

variable {idx : SymbolIndex}

theorem index_eq_ok (indexed : s.index = .ok idx) :
    ∃ layouts, List.Forall₂ (fun t l => s.layout t = .ok l) s.completeTypes layouts ∧
      idx = Table.ofList layouts := by
  rw [index] at indexed
  cases ending : s.ending with
  | some fault => simp [ending] at indexed
  | none =>
    rw [ending] at indexed
    cases mapped : s.completeTypes.mapM s.layout with
    | error fault => simp [mapped, Functor.map, Except.map] at indexed
    | ok layouts =>
      rw [mapped] at indexed
      exact ⟨layouts, forall₂_of_mapM mapped, (Except.ok.inj indexed).symm⟩

theorem layout_eq_ok {l : TypeLayout} : s.layout t = .ok l ↔
    ∃ members, s.members t.fields = .ok members ∧
      ⟨t.name, t.kind, t.size, members.mergeSort fun m n => m.offset ≤ n.offset⟩ = l := by
  simp only [layout, bind_eq_ok, Except.ok.injEq]

theorem name_of_layout {l : TypeLayout} (read : s.layout t = .ok l) : l.name = t.name := by
  obtain ⟨members, -, rfl⟩ := layout_eq_ok.mp read
  rfl

theorem find?_index (indexed : s.index = .ok idx) (name : Text) :
    (s.completeTypes.reverse.find? (·.name == name) = none ∧ idx.find? name = none) ∨
      ∃ t l, s.completeTypes.reverse.find? (·.name == name) = some t ∧
        idx.find? name = some l ∧ s.layout t = .ok l := by
  obtain ⟨layouts, read, rfl⟩ := index_eq_ok indexed
  have nothing : (Table.empty : SymbolIndex).find? name = none := rfl
  rw [Table.ofList, Table.find?_insertAll, nothing, Option.or_none]
  exact find?_of_forall₂ (List.forall₂_reverse_iff.mpr read)
    fun t l here => by rw [name_of_layout here]

theorem completeSize_eq (indexed : s.index = .ok idx) (name : Text) :
    s.completeSize name = ((idx.find? name).map TypeLayout.size).getD 0 := by
  rw [completeSize]
  obtain ⟨complete, found⟩ | ⟨t, l, complete, found, read⟩ := find?_index indexed name
  · rw [complete, found]
    rfl
  · obtain ⟨members, -, rfl⟩ := layout_eq_ok.mp read
    rw [complete, found]
    rfl

theorem keys_index (indexed : s.index = .ok idx) :
    idx.keys = (s.completeTypes.map CompleteType.name).eraseDups := by
  obtain ⟨layouts, read, rfl⟩ := index_eq_ok indexed
  have names : List.Forall₂ (· = ·) (layouts.map TypeLayout.name)
      (s.completeTypes.map CompleteType.name) := by
    simp only [List.forall₂_map_left_iff, List.forall₂_map_right_iff]
    exact read.flip.imp fun _ _ => name_of_layout
  rw [List.forall₂_eq_eq_eq] at names
  rw [(Table.ofList_eq layouts).1, names]

theorem sizeAlong_forward {index : Nat} (forward : s.ForwardTo name index) {fuel size : Nat}
    (sized : s.sizeAlong fuel index = .ok size) : size = s.completeSize name := by
  induction forward generalizing fuel with
  | aggregate here =>
    cases fuel with
    | zero => simp [sizeAlong] at sized
    | succ fuel =>
      rw [sizeAlong, here] at sized
      exact (Except.ok.inj sized).symm
  | modifier here _ ih =>
    cases fuel with
    | zero => simp [sizeAlong] at sized
    | succ fuel =>
      rw [sizeAlong, here] at sized
      exact ih sized

theorem describes_of_memberLayout (indexed : s.index = .ok idx) {m : Member} {l : MemberLayout}
    (read : s.memberLayout m = .ok l) : s.Describes idx m l := by
  simp only [memberLayout, bind_eq_ok, Except.ok.injEq] at read
  obtain ⟨size, sized, type, named, rfl⟩ := read
  refine ⟨rfl, rfl, sized, ⟨type, named, rfl⟩, fun name forward => ?_⟩
  rw [← completeSize_eq indexed]
  exact sizeAlong_forward forward sized

theorem lists_of_membersAlong {fuel : Nat} {fields : Option Nat} {laid : List MemberLayout}
    (read : s.membersAlong fuel fields = .ok laid) :
    ∃ listed, s.Lists fields listed ∧
      List.Forall₂ (fun m l => s.memberLayout m = .ok l) listed laid := by
  induction fuel generalizing fields laid with
  | zero =>
    cases fields with
    | none =>
      obtain rfl := Except.ok.inj read
      exact ⟨[], .none, .nil⟩
    | some index => simp [membersAlong] at read
  | succ fuel ih =>
    cases fields with
    | none =>
      obtain rfl := Except.ok.inj read
      exact ⟨[], .none, .nil⟩
    | some index =>
      rw [membersAlong, bind_eq_ok] at read
      obtain ⟨r, here, read⟩ := read
      split at read
      · rename_i members continuation
        simp only [bind_eq_ok, Except.ok.injEq] at read
        obtain ⟨first, firstRead, later, laterRead, rfl⟩ := read
        obtain ⟨listed, lists, laid⟩ := ih laterRead
        exact ⟨members ++ listed, .fieldList here lists,
          List.rel_append (forall₂_of_mapM firstRead) laid⟩
      · rename_i other
        obtain rfl := Except.ok.inj read
        exact ⟨[], .other here other, .nil⟩

theorem members_described (indexed : s.index = .ok idx) {fields : Option Nat}
    {laid : List MemberLayout} (read : s.members fields = .ok laid) :
    ∃ listed, s.Lists fields listed ∧ List.Forall₂ (s.Describes idx) listed laid := by
  obtain ⟨listed, lists, laid⟩ := lists_of_membersAlong read
  exact ⟨listed, lists, laid.imp fun _ _ => describes_of_memberLayout indexed⟩

/-- An index holds each name of a complete type once, where the stream first has it, and under it
what the last record of that name says, with the members of its field list and of all that continue
it. -/
theorem index_complete (s : TypeStream) (idx : SymbolIndex) (indexed : s.index = .ok idx) :
    (∀ name, name ∈ idx.keys ↔ ∃ i, s.NamedAt name i) ∧ idx.keys.Nodup ∧
      (idx.keys.Pairwise fun name later =>
        ∀ i j, s.FirstAt name i → s.FirstAt later j → i < j) ∧
      ∀ l ∈ idx.items, ∃ i t, s.LastAt i t ∧ l.name = t.name ∧ l.kind = t.kind ∧
        l.size = t.size ∧ ∃ listed laid, s.Lists t.fields listed ∧
          List.Forall₂ (s.Describes idx) listed laid ∧ Ordered laid l.members := by
  refine ⟨fun name => ?_, idx.nodup, ?_, fun l among => ?_⟩
  · rw [Table.mem_keys, exists_namedAt]
    obtain ⟨complete, found⟩ | ⟨t, l, complete, found, -⟩ := find?_index indexed name <;>
      simp [complete, found]
  · rw [keys_index indexed, names_completeTypes]
    simpa only [firstAt_iff] using pairwise_eraseDups s.records.toList
  · have stored := Table.find?_of_mem among
    obtain ⟨-, found⟩ | ⟨t, l', complete, found, read⟩ := find?_index indexed l.name
    · rw [stored] at found
      contradiction
    · obtain rfl : l = l' := Option.some.inj (stored.symm.trans found)
      obtain ⟨-, i, last⟩ := lastAt_of_find? complete
      obtain ⟨members, membersRead, rfl⟩ := layout_eq_ok.mp read
      obtain ⟨listed, lists, described⟩ := members_described indexed membersRead
      exact ⟨i, t, last, rfl, rfl, rfl, listed, members, lists, described,
        ordered_mergeSort members⟩

-- The type of a member is told of behind it, twice, and the field list goes on in an earlier one.
def laterStream : TypeStream where
  first := leastIndex
  limit := leastIndex + 8
  records := #[
    .ok (.aggregate .struct ['P'] 0 none true),
    .ok (.modifier leastIndex true),
    .ok (.fieldList [⟨['y'], 4, 0x74⟩] none),
    .ok (.fieldList [⟨['p'], 4, leastIndex + 1⟩, ⟨['x'], 0, 0x74⟩] (some (leastIndex + 2))),
    .ok (.aggregate .struct ['S'] 10 (some (leastIndex + 3)) false),
    .ok (.aggregate .struct ['P'] 4 none false),
    .error .ended,
    .ok (.aggregate .union ['P'] 6 none false)]
  ending := none

theorem index_complete_later :
    ∃ idx, laterStream.index = .ok idx ∧
      (∀ name, name ∈ idx.keys ↔ ∃ i, laterStream.NamedAt name i) ∧ idx.keys.Nodup ∧
      (idx.keys.Pairwise fun name later =>
        ∀ i j, laterStream.FirstAt name i → laterStream.FirstAt later j → i < j) ∧
      ∀ l ∈ idx.items, ∃ i t, laterStream.LastAt i t ∧ l.name = t.name ∧ l.kind = t.kind ∧
        l.size = t.size ∧ ∃ listed laid, laterStream.Lists t.fields listed ∧
          List.Forall₂ (laterStream.Describes idx) listed laid ∧ Ordered laid l.members := by
  let laid : List MemberLayout := [⟨['p'], 4, 6, some "const P".toList⟩,
    ⟨['x'], 0, 4, some "I32".toList⟩, ⟨['y'], 4, 4, some "I32".toList⟩]
  let outer : TypeLayout := ⟨['S'], .struct, 10, laid.mergeSort fun m n => m.offset ≤ n.offset⟩
  have indexed : laterStream.index =
      .ok (Table.ofList [outer, ⟨['P'], .struct, 4, [].mergeSort fun m n => m.offset ≤ n.offset⟩,
        ⟨['P'], .union, 6, [].mergeSort fun m n => m.offset ≤ n.offset⟩]) := by rfl
  exact ⟨_, indexed, index_complete laterStream _ indexed⟩

end TypeStream

end MemberOffsets.Pdb
