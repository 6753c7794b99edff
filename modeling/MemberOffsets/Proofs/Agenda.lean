import Mathlib.Data.Finset.Card
import Mathlib.Logic.Relation

/-!
Work that is taken apart as it goes on. An agenda of tasks is worked off from the front: a task
gives way to its parts, and a fault ends all of the work. The work on a task never ends if a task
that comes up in it comes up again within its own parts.
-/

set_option autoImplicit false

namespace MemberOffsets.Agenda

open Relation

variable {τ ε : Type}

/-- The work on an agenda ends after finitely many steps, with a fault or with none. -/
inductive Ends (parts : τ → Except ε (List τ)) : List τ → Option ε → Prop
  | empty : Ends parts [] none
  | fault {t : τ} {later : List τ} {e : ε} : parts t = .error e → Ends parts (t :: later) (some e)
  | step {t : τ} {later ts : List τ} {r : Option ε} : parts t = .ok ts →
      Ends parts (ts ++ later) r → Ends parts (t :: later) r

/-- A part that is worked on, for all parts before it come to an end without a fault. -/
def ComesUp (parts : τ → Except ε (List τ)) (t u : τ) : Prop :=
  ∃ before later, parts t = .ok (before ++ u :: later) ∧ Ends parts before none

def Loops (parts : τ → Except ε (List τ)) (t : τ) : Prop :=
  ∃ u, ReflTransGen (ComesUp parts) t u ∧ TransGen (ComesUp parts) u u

variable {parts : τ → Except ε (List τ)} {t u : τ} {ts us : List τ} {r r' : Option ε} {e : ε}

namespace Ends

theorem append (first : Ends parts ts r) (second : r = none → Ends parts us r') :
    Ends parts (ts ++ us) (r.or r') := by
  induction first with
  | empty => exact second rfl
  | fault refused => exact .fault refused
  | step given _ ih =>
    have rest := ih second
    rw [List.append_assoc] at rest
    exact .step given rest

theorem append_fault (ended : Ends parts ts (some e)) : Ends parts (ts ++ us) (some e) := by
  have whole : Ends parts (ts ++ us) ((some e).or none) := ended.append nofun
  exact whole

theorem single (given : parts t = .ok ts) (ended : Ends parts ts r) : Ends parts [t] r :=
  .step given (by rwa [List.append_nil])

theorem unique (first : Ends parts ts r) (second : Ends parts ts r') : r = r' := by
  induction first with
  | empty =>
    cases second
    rfl
  | fault refused =>
    cases second with
    | fault refused' => rw [Except.error.inj (refused.symm.trans refused')]
    | step given => rw [refused] at given; contradiction
  | step given _ ih =>
    cases second with
    | fault refused => rw [refused] at given; contradiction
    | step given' ended =>
      obtain rfl := Except.ok.inj (given.symm.trans given')
      exact ih ended

end Ends

theorem Loops.head (comesUp : ComesUp parts t u) (loops : Loops parts u) : Loops parts t := by
  obtain ⟨v, reached, again⟩ := loops
  exact ⟨v, .head comesUp reached, again⟩

theorem Loops.next (loops : Loops parts t) : ∃ u, ComesUp parts t u ∧ Loops parts u := by
  obtain ⟨v, reached, again⟩ := loops
  rcases ReflTransGen.cases_head reached with rfl | ⟨u, comesUp, reached⟩
  · obtain ⟨u, comesUp, back⟩ := TransGen.head'_iff.mp again
    exact ⟨u, comesUp, t, back, again⟩
  · exact ⟨u, comesUp, v, reached, again⟩

-- What comes up in a task comes up on the agenda too, so the work that is left gets less.
theorem Ends.acc (ended : Ends parts us r) {before later : List τ}
    (whole : us = before ++ t :: later) (first : Ends parts before none) :
    Acc (fun u t => ComesUp parts t u) t := by
  induction ended generalizing t before later with
  | empty => simp at whole
  | fault refused =>
    cases before with
    | nil =>
      obtain ⟨rfl, rfl⟩ := List.cons.inj whole
      refine ⟨_, fun u ⟨_, _, given, _⟩ => ?_⟩
      rw [refused] at given
      contradiction
    | cons =>
      obtain ⟨rfl, -⟩ := List.cons.inj whole
      exact absurd (first.unique (.fault refused)) nofun
  | step given _ ih =>
    cases before with
    | nil =>
      obtain ⟨rfl, rfl⟩ := List.cons.inj whole
      refine ⟨_, fun u ⟨_, _, given', earlier⟩ => ?_⟩
      obtain rfl := Except.ok.inj (given.symm.trans given')
      exact ih (List.append_assoc _ _ _) earlier
    | cons =>
      obtain ⟨rfl, rfl⟩ := List.cons.inj whole
      cases first with
      | step given' earlier =>
        obtain rfl := Except.ok.inj (given.symm.trans given')
        exact ih (List.append_assoc _ _ _).symm earlier

theorem Ends.not_loops (ended : Ends parts [t] r) : ¬ Loops parts t := by
  have acc : Acc (fun u t => ComesUp parts t u) t := ended.acc (List.nil_append [t]).symm .empty
  clear ended
  induction acc with
  | intro t _ ih =>
    intro loops
    obtain ⟨u, comesUp, loops⟩ := loops.next
    exact ih u comesUp loops

section

variable {κ : Type} (task : κ → τ) (keys : Finset κ)

/-- A row of so many tasks, each with one of the keys and the next one a part that comes up in it,
or fewer and then one that loops. -/
def Lasts (parts : τ → Except ε (List τ)) : Nat → κ → Prop
  | 0, _ => True
  | n + 1, k =>
      Loops parts (task k) ∨
        k ∈ keys ∧ ∃ j, ComesUp parts (task k) (task j) ∧ Lasts parts n j

variable {task keys}

theorem Lasts.loops_of_visited {n : Nat} {k : κ} (lasts : Lasts task keys parts n k)
    {visited : Finset κ} (among : visited ⊆ keys)
    (back : ∀ j ∈ visited, TransGen (ComesUp parts) (task j) (task k))
    (long : keys.card < n + visited.card) : Loops parts (task k) := by
  classical
  induction n generalizing k visited with
  | zero =>
    have := Finset.card_le_card among
    omega
  | succ n ih =>
    obtain loops | ⟨key, j, comesUp, lasts⟩ := lasts
    · exact loops
    · by_cases met : k ∈ visited
      · exact ⟨task k, .refl, back k met⟩
      · refine Loops.head comesUp (ih lasts (Finset.insert_subset key among) ?_ ?_)
        · intro i member
          rcases Finset.mem_insert.mp member with rfl | earlier
          · exact .single comesUp
          · exact (back i earlier).tail comesUp
        · rw [Finset.card_insert_of_notMem met]
          omega

theorem Lasts.loops {n : Nat} {k : κ} (lasts : Lasts task keys parts n k)
    (long : keys.card < n) : Loops parts (task k) :=
  lasts.loops_of_visited (Finset.empty_subset keys) (by simp) (by simpa using long)

end

end MemberOffsets.Agenda
