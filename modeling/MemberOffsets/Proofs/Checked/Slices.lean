import Mathlib.Data.List.Infix
import MemberOffsets.Proofs.Text.Bytes

/-!
Work on a text by its byte offsets, with every check that stops a program. A slice has to lie
between two boundaries of characters, a difference must not be negative, and each pass of a loop
has to leave less than it found.
-/

set_option autoImplicit false

namespace MemberOffsets

open Text Utf8

inductive Trap where
  | slice (start stop : Nat)
  | index (i : Nat)
  | negative
  /-- A pass of a loop that leaves as much as it found, so that the loop might not end. -/
  | standstill
  /-- A part of a text that is to be read like the text itself, and is not shorter. -/
  | notShorter
deriving DecidableEq, Repr

abbrev Checked := Except Trap

namespace Checked

def takeBytes? (n : Nat) (text : Text) : Option Text :=
  (dropBytes? n text).map fun rest => text.take (text.length - rest.length)

def slice (text : Text) (start stop : Nat) : Checked Text :=
  match if start ≤ stop then (dropBytes? start text).bind (takeBytes? (stop - start)) else none with
  | some part => .ok part
  | none => .error (.slice start stop)

def byteAt (text : Text) (i : Nat) : Checked UInt8 :=
  match (encode text)[i]? with
  | some b => .ok b
  | none => .error (.index i)

def bytesFrom (text : Text) (start : Nat) : Checked Bytes :=
  if start ≤ utf8Length text then .ok ((encode text).drop start)
  else .error (.slice start (utf8Length text))

def sub (a b : Nat) : Checked Nat := if b ≤ a then .ok (a - b) else .error .negative

def find? (mark : Text) : Text → Option Nat
  | [] => if mark.isEmpty then some 0 else none
  | c :: r => if mark.isPrefixOf (c :: r) then some 0 else (find? mark r).map (c.utf8Size + ·)

def loop {σ α : Type} (left : σ → Nat) (pass : σ → Checked (σ ⊕ α)) (s : σ) : Checked α :=
  match pass s with
  | .error trap => .error trap
  | .ok (.inr result) => .ok result
  | .ok (.inl next) =>
      if left next < left s then loop left pass next else .error .standstill
termination_by left s

@[simp] theorem ok_bind {α β : Type} (a : α) (f : α → Checked β) : (Except.ok a >>= f) = f a := rfl

@[simp] theorem pure_eq_ok {α : Type} (a : α) : (pure a : Checked α) = .ok a := rfl

theorem eq_nil_of_utf8Length {text : Text} (zero : utf8Length text = 0) : text = [] := by
  cases text with
  | nil => rfl
  | cons c r =>
    have positive := c.utf8Size_pos
    rw [utf8Length_cons] at zero
    omega

theorem takeBytes?_eq_some {n : Nat} {text part : Text} :
    takeBytes? n text = some part ↔ ∃ after, text = part ++ after ∧ n = utf8Length part := by
  rw [takeBytes?, Option.map_eq_some_iff]
  constructor
  · rintro ⟨after, dropped, rfl⟩
    obtain ⟨front, rfl, length⟩ := append_of_dropBytes? dropped
    exact ⟨after, by simp, by simp [length]⟩
  · rintro ⟨after, rfl, rfl⟩
    exact ⟨after, dropBytes?_append part after, by simp⟩

theorem slice_eq_ok {text part : Text} {start stop : Nat} :
    slice text start stop = .ok part ↔
      ∃ before after, text = before ++ part ++ after ∧ start = utf8Length before ∧
        stop = utf8Length before + utf8Length part := by
  rw [slice]
  constructor
  · intro cut
    split at cut
    · rename_i found
      obtain rfl := Except.ok.inj cut
      split at found
      · obtain ⟨rest, dropped, taken⟩ := Option.bind_eq_some_iff.mp found
        obtain ⟨before, rfl, rfl⟩ := append_of_dropBytes? dropped
        obtain ⟨after, rfl, length⟩ := takeBytes?_eq_some.mp taken
        exact ⟨before, after, by simp, rfl, by omega⟩
      · contradiction
    · contradiction
  · rintro ⟨before, after, rfl, rfl, rfl⟩
    have taken : takeBytes? (utf8Length before + utf8Length part - utf8Length before)
        (part ++ after) = some part := takeBytes?_eq_some.mpr ⟨after, rfl, by omega⟩
    rw [if_pos (by omega), List.append_assoc, dropBytes?_append, Option.bind_some, taken]

theorem slice_end {text before rest : Text} {start : Nat} (whole : text = before ++ rest)
    (place : start = utf8Length before) : slice text start (utf8Length text) = .ok rest :=
  slice_eq_ok.mpr ⟨before, [], by simp [whole], place, by rw [whole, utf8Length_append]⟩

theorem slice_front {text front rest : Text} {stop : Nat} (whole : text = front ++ rest)
    (place : stop = utf8Length front) : slice text 0 stop = .ok front :=
  slice_eq_ok.mpr ⟨[], rest, whole, rfl, by simp [place]⟩

-- A character of two bytes has no boundary inside, and no slice ends before it starts.
example : slice "éa".toList 1 2 = .error (.slice 1 2) ∧
    slice "éa".toList 2 0 = .error (.slice 2 0) ∧
    slice "éa".toList 2 3 = .ok ['a'] ∧ slice "éa".toList 2 4 = .error (.slice 2 4) := by
  decide

theorem byteAt_eq {text : Text} {i : Nat} {b : UInt8} {rest : Bytes}
    (behind : (encode text).drop i = b :: rest) : byteAt text i = .ok b := by
  have found : (encode text)[i]? = some b := by
    rw [← List.head?_drop, behind]
    rfl
  rw [byteAt, found]

theorem bytesFrom_append (before after : Text) :
    bytesFrom (before ++ after) (utf8Length before) = .ok (encode after) := by
  rw [bytesFrom, if_pos (by simp), encode_append, List.drop_left' (length_encode before)]

theorem sub_eq_ok {a b c : Nat} : sub a b = .ok c ↔ a = c + b := by
  rw [sub]
  split
  · rw [Except.ok.injEq]
    omega
  · constructor
    · exact nofun
    · omega

theorem of_find? {mark text : Text} {n : Nat} (nonempty : mark ≠ [])
    (found : find? mark text = some n) :
    ∃ before after, text = before ++ mark ++ after ∧ ¬ mark <:+: before ∧
      n = utf8Length before := by
  have absent : ¬ mark <:+: [] := by simpa using nonempty
  induction text generalizing n with
  | nil => simp [find?, nonempty] at found
  | cons c r ih =>
    rw [find?] at found
    split at found
    · rename_i start
      obtain ⟨after, whole⟩ := List.isPrefixOf_iff_prefix.mp start
      obtain rfl := Option.some.inj found
      exact ⟨[], after, whole.symm, absent, rfl⟩
    · rename_i start
      obtain ⟨m, later, rfl⟩ := Option.map_eq_some_iff.mp found
      obtain ⟨before, after, rfl, first, rfl⟩ := ih later
      refine ⟨c :: before, after, rfl, ?_, rfl⟩
      rw [List.infix_cons_iff, not_or]
      refine ⟨fun front => start ?_, first⟩
      rw [List.isPrefixOf_iff_prefix, List.append_assoc]
      exact front.trans (List.prefix_append (c :: before) _)

theorem of_find?_none {mark text : Text} (missing : find? mark text = none) : ¬ mark <:+: text := by
  induction text with
  | nil => simpa [find?] using missing
  | cons c r ih =>
    rw [find?] at missing
    split at missing
    · contradiction
    · rename_i start
      rw [List.infix_cons_iff, not_or]
      exact ⟨fun front => start (List.isPrefixOf_iff_prefix.mpr front),
        ih (Option.map_eq_none_iff.mp missing)⟩

theorem find?_cases (c : Char) (text : Text) :
    (c ∉ text ∧ find? [c] text = none) ∨
      ∃ before after, text = before ++ c :: after ∧ c ∉ before ∧
        find? [c] text = some (utf8Length before) := by
  cases found : find? [c] text with
  | none => exact .inl ⟨(of_find?_none found).imp (List.singleton_infix_iff c text).mpr, rfl⟩
  | some n =>
    obtain ⟨before, after, rfl, first, rfl⟩ := of_find? (List.cons_ne_nil c []) found
    have absent : c ∉ before := first.imp (List.singleton_infix_iff c before).mpr
    exact .inr ⟨before, after, by simp, absent, rfl⟩

theorem find?_append {c : Char} {before : Text} (absent : c ∉ before) (s : Text) :
    find? [c] (before ++ s) = (find? [c] s).map (utf8Length before + ·) := by
  induction before with
  | nil => simp
  | cons d before ih =>
    rw [List.mem_cons, not_or] at absent
    have other : List.isPrefixOf [c] (d :: (before ++ s)) = false := by
      simpa [List.isPrefixOf] using absent.1
    rw [List.cons_append, find?, other, ih absent.2, Option.map_map, if_neg Bool.false_ne_true]
    congr 1
    funext n
    simp [Nat.add_assoc]

section

variable {σ α : Type} {left : σ → Nat} {pass : σ → Checked (σ ⊕ α)}

/-- What a pass has to do: end with the result, or leave less and go on where the invariant
holds. -/
def Advances (left : σ → Nat) (Inv : σ → Prop) (result : α) (s : σ) : Checked (σ ⊕ α) → Prop
  | .ok (.inl next) => left next < left s ∧ Inv next
  | .ok (.inr last) => last = result
  | .error _ => False

theorem Advances.of_inl {Inv : σ → Prop} {result : α} {s next : σ} {made : Checked (σ ⊕ α)}
    (goesOn : made = .ok (.inl next)) (less : left next < left s) (holds : Inv next) :
    Advances left Inv result s made := by
  rw [goesOn]
  exact ⟨less, holds⟩

theorem Advances.of_inr {Inv : σ → Prop} {result : α} {s : σ} {made : Checked (σ ⊕ α)}
    (ends : made = .ok (.inr result)) : Advances left Inv result s made := by
  rw [ends]
  rfl

theorem loop_eq_ok {Inv : σ → Prop} {result : α}
    (advances : ∀ s, Inv s → Advances left Inv result s (pass s)) {s : σ} (start : Inv s) :
    loop left pass s = .ok result := by
  induction size : left s using Nat.strong_induction_on generalizing s with
  | h n ih =>
    have advance := advances s start
    rw [loop]
    match made : pass s with
    | .error trap =>
      rw [made] at advance
      exact advance.elim
    | .ok (.inr last) =>
      rw [made] at advance
      exact congrArg Except.ok advance
    | .ok (.inl next) =>
      rw [made] at advance
      obtain ⟨less, holds⟩ := advance
      exact (if_pos less).trans (ih (left next) (by omega) holds rfl)

end

end Checked

end MemberOffsets
