import Mathlib.Order.Interval.Finset.Nat
import MemberOffsets.Proofs.Agenda
import MemberOffsets.Proofs.Basic
import MemberOffsets.Symbol.Program

set_option autoImplicit false

namespace MemberOffsets.Pdb

open Agenda Relation

inductive Search where
  | size (index : Nat)
  | name (index : Nat)
  | members (fields : Option Nat)
  | index
deriving DecidableEq, Repr

namespace TypeStream

def parts (s : TypeStream) : Search → Except Fault (List Search)
  | .size i => do
      match ← s.record i with
      | .enumeration _ target => .ok [.size target]
      | .modifier target _ => .ok [.size target]
      | .bitfield target => .ok [.size target]
      | _ => .ok []
  | .name i => do
      match ← s.record i with
      | .pointer target _ => .ok [.name target]
      | .modifier target _ => .ok [.name target]
      | .bitfield target => .ok [.name target]
      | .array element _ => .ok [.name element]
      | _ => .ok []
  | .members none => .ok []
  | .members (some i) => do
      match ← s.record i with
      | .fieldList members continuation =>
          .ok (members.flatMap (fun m => [.size m.type, .name m.type]) ++ [.members continuation])
      | _ => .ok []
  | .index =>
      match s.ending with
      | some fault => .error fault
      | none => .ok (s.completeTypes.map fun t => .members t.fields)

variable {s : TypeStream}

def faultOf {α : Type} : Except Fault α → Option Fault
  | .ok _ => none
  | .error fault => some fault

def GivesUp {α : Type} (result : Except Fault α) : Prop := ∃ i, result = .error (.circular i)

def Stalls (s : TypeStream) (agenda : List Search) : Prop :=
  ∃ before t later, agenda = before ++ t :: later ∧ Ends s.parts before none ∧ Loops s.parts t

/-- The result of a computation says how the work on an agenda ends, or that it does not. -/
def Follows {α : Type} (s : TypeStream) (agenda : List Search) (result : Except Fault α) : Prop :=
  GivesUp result ∧ s.Stalls agenda ∨ Ends s.parts agenda (faultOf result)

theorem Stalls.loops {t : Search} {agenda : List Search} (given : s.parts t = .ok agenda)
    (stalls : s.Stalls agenda) : Loops s.parts t := by
  obtain ⟨before, u, later, rfl, ended, loops⟩ := stalls
  exact loops.head ⟨before, later, given, ended⟩

theorem Stalls.append {agenda : List Search} (stalls : s.Stalls agenda) (later : List Search) :
    s.Stalls (agenda ++ later) := by
  obtain ⟨before, t, after, rfl, ended, loops⟩ := stalls
  exact ⟨before, t, after ++ later, by simp, ended, loops⟩

theorem stalls_single {t : Search} : s.Stalls [t] ↔ Loops s.parts t := by
  constructor
  · rintro ⟨before, u, later, whole, -, loops⟩
    cases before with
    | nil =>
      obtain ⟨rfl, -⟩ := List.cons.inj whole
      exact loops
    | cons => simp at whole
  · exact fun loops => ⟨[], t, [], rfl, .empty, loops⟩

namespace Follows

variable {α β : Type} {agenda later : List Search} {result : Except Fault α}

theorem ok (a : α) : s.Follows [] (.ok a) := .inr .empty

theorem bind (first : s.Follows agenda result) {next : α → Except Fault β}
    (second : ∀ a, s.Follows later (next a)) : s.Follows (agenda ++ later) (result >>= next) := by
  rcases first with ⟨⟨i, rfl⟩, before, t, after, rfl, ended, loops⟩ | ended
  · exact .inl ⟨⟨i, rfl⟩, before, t, after ++ later, by simp, ended, loops⟩
  · cases result with
    | error fault => exact .inr ended.append_fault
    | ok a =>
      rcases second a with ⟨givesUp, before, t, after, rfl, ended', loops⟩ | ended'
      · have earlier : Ends s.parts (agenda ++ before) none := ended.append fun _ => ended'
        exact .inl ⟨givesUp, agenda ++ before, t, after, by simp, earlier, loops⟩
      · exact .inr (ended.append fun _ => ended')

theorem map (follows : s.Follows agenda result) (f : α → β) :
    s.Follows agenda (result >>= fun a => .ok (f a)) := by
  rw [← List.append_nil agenda]
  exact follows.bind fun a => ok (f a)

theorem mapM {γ : Type} {f : γ → Except Fault α} {searches : γ → List Search}
    (each : ∀ c, s.Follows (searches c) (f c)) (cs : List γ) :
    s.Follows (cs.flatMap searches) (cs.mapM f) := by
  induction cs with
  | nil => exact ok []
  | cons c cs ih =>
    rw [List.mapM_cons, List.flatMap_cons]
    exact (each c).bind fun a => ih.map (a :: ·)

theorem of_parts {t : Search} (given : s.parts t = .ok agenda) (follows : s.Follows agenda result) :
    s.Follows [t] result := by
  rcases follows with ⟨givesUp, stalls⟩ | ended
  · exact .inl ⟨givesUp, stalls_single.mpr (stalls.loops given)⟩
  · exact .inr (.single given ended)

end Follows

def indices (s : TypeStream) : Finset Nat := Finset.Ico s.first (s.first + s.records.size)

theorem mem_indices {i : Nat} {r : TypeRecord} (found : s.record i = .ok r)
    (recorded : ∀ p, r ≠ .primitive p) : i ∈ s.indices := by
  rw [record] at found
  split at found
  · rw [primitive] at found
    split at found
    · contradiction
    · split at found
      · exact absurd (Except.ok.inj found).symm (recorded _)
      · contradiction
  · rename_i above
    split at found
    · contradiction
    · cases entry : s.records[i - s.first]? with
      | none => simp [entry] at found
      | some e =>
        obtain ⟨inside, -⟩ := Array.getElem?_eq_some_iff.mp entry
        rw [indices, Finset.mem_Ico]
        omega

theorem card_indices_lt : s.indices.card < s.pathLength := by
  rw [indices, Nat.card_Ico, pathLength]
  omega

/-- What is true of a computation that is left with so many steps: it gives up and there are as many
references in a row, or its result says how the search ends. -/
def FollowsFor {κ α : Type} (s : TypeStream) (search : κ → Search) (keys : Finset κ) (fuel : Nat)
    (k : κ) (result : Except Fault α) : Prop :=
  GivesUp result ∧ Lasts search keys s.parts fuel k ∨ Ends s.parts [search k] (faultOf result)

namespace FollowsFor

variable {κ α β : Type} {search : κ → Search} {keys : Finset κ} {fuel : Nat} {k j : κ}
  {result : Except Fault α}

theorem follows (follows : s.FollowsFor search keys fuel k result) (long : keys.card < fuel) :
    s.Follows [search k] result := by
  rcases follows with ⟨givesUp, lasts⟩ | ended
  · exact .inl ⟨givesUp, stalls_single.mpr (lasts.loops long)⟩
  · exact .inr ended

theorem of_bind {earlier : List Search} {next : α → Except Fault β} (key : k ∈ keys)
    (given : s.parts (search k) = .ok (earlier ++ [search j]))
    (before : s.Follows earlier result) (after : ∀ a, s.FollowsFor search keys fuel j (next a)) :
    s.FollowsFor search keys (fuel + 1) k (result >>= next) := by
  rcases before with ⟨⟨i, rfl⟩, stalls⟩ | ended
  · exact .inl ⟨⟨i, rfl⟩, .inl ((stalls.append _).loops given)⟩
  · cases result with
    | error fault => exact .inr (.single given ended.append_fault)
    | ok a =>
      rcases after a with ⟨givesUp, lasts⟩ | ended'
      · exact .inl ⟨givesUp, .inr ⟨key, j, ⟨earlier, [], given, ended⟩, lasts⟩⟩
      · exact .inr (.single given (ended.append fun _ => ended'))

theorem of_single (key : k ∈ keys) (given : s.parts (search k) = .ok [search j])
    (follows : s.FollowsFor search keys fuel j result) :
    s.FollowsFor search keys (fuel + 1) k result :=
  of_bind key given (.ok ()) fun _ => follows

theorem map (follows : s.FollowsFor search keys fuel k result) (f : α → β) :
    s.FollowsFor search keys fuel k (result >>= fun a => .ok (f a)) := by
  rcases follows with ⟨⟨i, rfl⟩, lasts⟩ | ended
  · exact .inl ⟨⟨i, rfl⟩, lasts⟩
  · cases result <;> exact .inr ended

end FollowsFor

theorem sizeAlong_follows (fuel i : Nat) :
    s.FollowsFor .size s.indices fuel i (s.sizeAlong fuel i) := by
  induction fuel generalizing i with
  | zero => exact .inl ⟨⟨i, rfl⟩, trivial⟩
  | succ fuel ih =>
    cases found : s.record i with
    | error fault =>
      refine .inr ?_
      rw [sizeAlong, found]
      exact .fault (by rw [parts, found]; rfl)
    | ok r =>
      cases r with
      | enumeration name target =>
        have given : s.parts (.size i) = .ok [.size target] := by rw [parts, found]; rfl
        rw [sizeAlong, found]
        exact .of_single (mem_indices found nofun) given (ih target)
      | modifier target isConst =>
        have given : s.parts (.size i) = .ok [.size target] := by rw [parts, found]; rfl
        rw [sizeAlong, found]
        exact .of_single (mem_indices found nofun) given (ih target)
      | bitfield target =>
        have given : s.parts (.size i) = .ok [.size target] := by rw [parts, found]; rfl
        rw [sizeAlong, found]
        exact .of_single (mem_indices found nofun) given (ih target)
      | primitive | aggregate | pointer | array | procedure | fieldList | other =>
        refine .inr ?_
        rw [sizeAlong, found]
        exact .step (by rw [parts, found]; rfl) .empty

theorem nameAlong_follows (fuel i : Nat) :
    s.FollowsFor .name s.indices fuel i (s.nameAlong fuel i) := by
  induction fuel generalizing i with
  | zero => exact .inl ⟨⟨i, rfl⟩, trivial⟩
  | succ fuel ih =>
    cases found : s.record i with
    | error fault =>
      refine .inr ?_
      rw [nameAlong, found]
      exact .fault (by rw [parts, found]; rfl)
    | ok r =>
      cases r with
      | pointer target width =>
        rw [nameAlong, found]
        exact .of_single (mem_indices found nofun) (by rw [parts, found]; rfl) ((ih target).map _)
      | modifier target isConst =>
        rw [nameAlong, found]
        exact .of_single (mem_indices found nofun) (by rw [parts, found]; rfl) ((ih target).map _)
      | bitfield target =>
        rw [nameAlong, found]
        exact .of_single (mem_indices found nofun) (by rw [parts, found]; rfl) (ih target)
      | array element sizes =>
        rw [nameAlong, found]
        exact .of_single (mem_indices found nofun) (by rw [parts, found]; rfl) ((ih element).map _)
      | primitive | aggregate | enumeration | procedure | fieldList | other =>
        refine .inr ?_
        rw [nameAlong, found]
        exact .step (by rw [parts, found]; rfl) .empty

theorem sizeOf_follows (i : Nat) : s.Follows [.size i] (s.sizeOf i) :=
  (sizeAlong_follows _ i).follows card_indices_lt

theorem nameOf_follows (i : Nat) : s.Follows [.name i] (s.nameOf i) :=
  (nameAlong_follows _ i).follows card_indices_lt

theorem memberLayout_follows (m : Member) :
    s.Follows [.size m.type, .name m.type] (s.memberLayout m) :=
  (sizeOf_follows m.type).bind fun _ => (nameOf_follows m.type).bind fun _ => .ok _

theorem membersAlong_follows (fuel : Nat) (fields : Option Nat) :
    s.FollowsFor .members (s.indices.map .some) fuel fields (s.membersAlong fuel fields) := by
  induction fuel generalizing fields with
  | zero =>
    cases fields with
    | none => exact .inr (.step rfl .empty)
    | some i => exact .inl ⟨⟨i, rfl⟩, trivial⟩
  | succ fuel ih =>
    cases fields with
    | none => exact .inr (.step rfl .empty)
    | some i =>
      cases found : s.record i with
      | error fault =>
        refine .inr ?_
        rw [membersAlong, found]
        exact .fault (by rw [parts, found]; rfl)
      | ok r =>
        cases r with
        | fieldList members continuation =>
          have given : s.parts (.members (some i)) =
              .ok (members.flatMap (fun m => [.size m.type, .name m.type]) ++
                [.members continuation]) := by
            rw [parts, found]
            rfl
          have key : some i ∈ s.indices.map .some :=
            Finset.mem_map_of_mem _ (mem_indices found nofun)
          have here : s.Follows _ (members.mapM s.memberLayout) :=
            .mapM memberLayout_follows members
          have later (here : List MemberLayout) :=
            (ih continuation).map fun later => here ++ later
          have whole := FollowsFor.of_bind key given here later
          rw [membersAlong, found]
          exact whole
        | primitive | aggregate | enumeration | pointer | modifier | bitfield | array | procedure
        | other =>
          refine .inr ?_
          rw [membersAlong, found]
          exact .step (by rw [parts, found]; rfl) .empty

theorem members_follows (fields : Option Nat) :
    s.Follows [.members fields] (s.members fields) := by
  refine (membersAlong_follows _ fields).follows ?_
  rw [Finset.card_map]
  exact card_indices_lt

theorem index_follows : s.Follows [.index] s.index := by
  cases ending : s.ending with
  | some fault =>
    refine .inr ?_
    rw [index, ending]
    exact .fault (by rw [parts, ending])
  | none =>
    have given : s.parts .index =
        .ok (s.completeTypes.flatMap fun t => [.members t.fields]) := by
      rw [parts, ending, List.map_eq_flatMap]
    have layouts : s.Follows _ (s.completeTypes.mapM s.layout) :=
      .mapM (fun t => (members_follows t.fields).map _) s.completeTypes
    rw [index, ending]
    exact .of_parts given (layouts.map Table.ofList)

/-- A computation decides a search: it returns what the search ends with, a search ends unless its
references go in circles, and if they do the computation gives up. -/
structure Decides {α : Type} (s : TypeStream) (t : Search) (result : Except Fault α) : Prop where
  ended : ∀ r, Ends s.parts [t] r → faultOf result = r
  ends_iff : (∃ r, Ends s.parts [t] r) ↔ ¬ Loops s.parts t
  gives_up : Loops s.parts t → GivesUp result

theorem Follows.decides {α : Type} {t : Search} {result : Except Fault α}
    (follows : s.Follows [t] result) : s.Decides t result := by
  rcases follows with ⟨givesUp, stalls⟩ | ended
  · have loops := stalls_single.mp stalls
    exact
      { ended := fun r ended => absurd loops ended.not_loops
        ends_iff := ⟨fun ⟨_, ended⟩ => ended.not_loops, fun free => absurd loops free⟩
        gives_up := fun _ => givesUp }
  · exact
      { ended := fun r ended' => ended.unique ended'
        ends_iff := ⟨fun ⟨_, ended⟩ => ended.not_loops, fun _ => ⟨_, ended⟩⟩
        gives_up := fun loops => absurd loops ended.not_loops }

/-- Sizes, names, members and the index of every stream, whatever its references: the search ends,
with what is computed here, exactly if no search comes up again within its own parts. -/
theorem search_ends_iff (s : TypeStream) :
    (∀ i, s.Decides (.size i) (s.sizeOf i)) ∧ (∀ i, s.Decides (.name i) (s.nameOf i)) ∧
      (∀ fields, s.Decides (.members fields) (s.members fields)) ∧ s.Decides .index s.index :=
  ⟨fun i => (sizeOf_follows i).decides, fun i => (nameOf_follows i).decides,
    fun fields => (members_follows fields).decides, index_follows.decides⟩

-- Struct `S` has an empty field list that goes on with itself, and a type there modifies itself.
theorem search_endless :
    let s : TypeStream :=
      { first := leastIndex, limit := leastIndex + 3, ending := none,
        records := #[.ok (.fieldList [] (some leastIndex)),
          .ok (.aggregate .struct ['S'] 4 (some leastIndex) false),
          .ok (.modifier (leastIndex + 2) true)] }
    (¬ ∃ r, Ends s.parts [.members (some leastIndex)] r) ∧
      (¬ ∃ r, Ends s.parts [.size (leastIndex + 2)] r) ∧
      (¬ ∃ r, Ends s.parts [.name (leastIndex + 2)] r) ∧ ¬ ∃ r, Ends s.parts [.index] r := by
  intro s
  have members : Loops s.parts (.members (some leastIndex)) :=
    ⟨_, .refl, .single ⟨[], [], rfl, .empty⟩⟩
  have size : Loops s.parts (.size (leastIndex + 2)) := ⟨_, .refl, .single ⟨[], [], rfl, .empty⟩⟩
  have name : Loops s.parts (.name (leastIndex + 2)) := ⟨_, .refl, .single ⟨[], [], rfl, .empty⟩⟩
  have index : Loops s.parts .index := members.head ⟨[], [], by decide, .empty⟩
  exact ⟨fun ⟨_, ended⟩ => ended.not_loops members, fun ⟨_, ended⟩ => ended.not_loops size,
    fun ⟨_, ended⟩ => ended.not_loops name, fun ⟨_, ended⟩ => ended.not_loops index⟩

end TypeStream

end MemberOffsets.Pdb
