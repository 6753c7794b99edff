import Mathlib.Data.List.Forall2
import Mathlib.Data.List.Nodup
import MemberOffsets.Table

set_option autoImplicit false

namespace MemberOffsets

section Except

variable {ε α β : Type}

theorem bind_eq_ok {x : Except ε α} {f : α → Except ε β} {b : β} :
    (x >>= f) = .ok b ↔ ∃ a, x = .ok a ∧ f a = .ok b := by
  cases x with
  | error e => simp [bind, Except.bind]
  | ok a => simp [bind, Except.bind]

theorem bind_eq_error {x : Except ε α} {f : α → Except ε β} {e : ε} :
    (x >>= f) = .error e ↔ x = .error e ∨ ∃ a, x = .ok a ∧ f a = .error e := by
  cases x <;> simp [bind, Except.bind]

theorem toOption_bind (x : Except ε α) (f : α → Except ε β) :
    (x >>= f).toOption = x.toOption.bind fun a => (f a).toOption := by
  cases x <;> rfl

theorem ok_of_toOption {x : Except ε α} {a : α} (value : x.toOption = some a) :
    x = .ok a := by
  cases x with
  | error => cases value
  | ok => exact congrArg Except.ok (Option.some.inj value)

theorem forall₂_of_mapM {f : α → Except ε β} {as : List α} {bs : List β}
    (mapped : as.mapM f = .ok bs) : List.Forall₂ (fun a b => f a = .ok b) as bs := by
  induction as generalizing bs with
  | nil =>
    obtain rfl : [] = bs := Except.ok.inj mapped
    exact .nil
  | cons a as ih =>
    rw [List.mapM_cons] at mapped
    obtain ⟨b, first, mapped⟩ := bind_eq_ok.mp mapped
    obtain ⟨later, rest, mapped⟩ := bind_eq_ok.mp mapped
    obtain rfl : b :: later = bs := Except.ok.inj mapped
    exact .cons first (ih rest)

end Except

namespace Table

variable {α : Type} {key : α → Text} {t : Table key} {a : α} {name : Text}

theorem mem_keys : name ∈ t.keys ↔ (t.find? name).isSome := by
  simp only [keys, find?, List.mem_map, List.find?_isSome, beq_iff_eq]

theorem find?_of_mem (member : a ∈ t.items) : t.find? (key a) = some a := by
  obtain ⟨items, nodup⟩ := t
  induction items with
  | nil => simp at member
  | cons b items ih =>
    obtain ⟨new, nodup⟩ := List.nodup_cons.mp nodup
    rcases List.mem_cons.mp member with rfl | later
    · simp [find?]
    · have other : key b ≠ key a := fun same => new (same ▸ List.mem_map_of_mem later)
      have rest : items.find? (key · == key a) = some a := ih nodup later
      simpa [find?, other] using rest

theorem find?_eq_some : t.find? name = some a ↔ a ∈ t.items ∧ key a = name := by
  constructor
  · intro found
    exact ⟨List.mem_of_find?_eq_some found, by simpa using List.find?_some found⟩
  · rintro ⟨member, rfl⟩
    exact find?_of_mem member

theorem find?_perm {u : Table key} (perm : t.items.Perm u.items) :
    t.find? name = u.find? name := by
  ext a
  rw [find?_eq_some, find?_eq_some, perm.mem_iff]

theorem put_new {items : List α} (new : key a ∉ items.map key) :
    put key a items = items ++ [a] := by
  induction items with
  | nil => rfl
  | cons b items ih =>
    simp only [List.map_cons, List.mem_cons, not_or] at new
    rw [put, if_neg (Ne.symm new.1), ih new.2, List.cons_append]

theorem insertAll_cons (a : α) (as : List α) :
    t.insertAll (a :: as) = (t.insert a).insertAll as := rfl

theorem items_insertAll {as : List α} (new : (t.keys ++ as.map key).Nodup) :
    (t.insertAll as).items = t.items ++ as := by
  induction as generalizing t with
  | nil => exact (List.append_nil _).symm
  | cons a as ih =>
    obtain ⟨-, -, apart⟩ := List.nodup_append.mp new
    have absent : key a ∉ t.keys := fun present => apart _ present _ List.mem_cons_self rfl
    have added : (t.insert a).items = t.items ++ [a] := put_new absent
    have later : ((t.insert a).keys ++ as.map key).Nodup := by
      rwa [keys_insert, if_neg absent, List.append_assoc]
    rw [insertAll_cons, ih later, added, List.append_assoc, List.singleton_append]

theorem ofList_items (t : Table key) : ofList t.items = t := by
  have same : (ofList t.items : Table key).items = t.items := items_insertAll t.nodup
  obtain ⟨items, nodup⟩ := t
  generalize ofList items = u at same
  cases u
  cases same
  rfl

-- What the table holds already is no new name, so it is left out before repetitions are.
theorem keys_insertAll (as : List α) :
    (t.insertAll as).keys = t.keys ++ ((as.map key).filter (· ∉ t.keys)).eraseDups := by
  induction as generalizing t with
  | nil => exact (List.append_nil _).symm
  | cons a as ih =>
    rw [insertAll_cons, ih, keys_insert, List.map_cons]
    split
    · rename_i present
      simp [present]
    · rename_i absent
      have rest : (as.map key).filter (· ∉ t.keys ++ [key a]) =
          ((as.map key).filter (· ∉ t.keys)).filter fun name => !name == key a := by
        rw [List.filter_filter]
        congr 1
        funext name
        simp [Bool.and_comm, Bool.beq_eq_decide_eq]
      rw [rest, List.filter_cons_of_pos (by simpa using absent), List.eraseDups_cons]
      simp

theorem find?_insertAll (as : List α) :
    (t.insertAll as).find? name = (as.reverse.find? (key · == name)).or (t.find? name) := by
  induction as generalizing t with
  | nil => rfl
  | cons a as ih =>
    rw [insertAll_cons, ih, find?_insert, List.reverse_cons, List.find?_append, Option.or_assoc]
    congr 1
    by_cases same : name = key a
    · simp [same]
    · simp [same, Ne.symm same]

-- No item of the list takes the place of another one, so each is found wherever it comes in.
theorem insertAll_perm {as as' : List α} (perm : as.Perm as') (distinct : (as.map key).Nodup) :
    (t.insertAll as).items.Perm (t.insertAll as').items := by
  have distinct' : (as'.map key).Nodup := (perm.map key).nodup distinct
  let u : Table key := ⟨as.reverse, List.map_reverse ▸ List.nodup_reverse.mpr distinct⟩
  let u' : Table key := ⟨as'.reverse, List.map_reverse ▸ List.nodup_reverse.mpr distinct'⟩
  have listed : u.items.Perm u'.items :=
    as.reverse_perm.trans (perm.trans as'.reverse_perm.symm)
  have held (name : Text) : (t.insertAll as).find? name = (t.insertAll as').find? name := by
    rw [find?_insertAll, find?_insertAll]
    exact congrArg (·.or (t.find? name)) (find?_perm listed)
  rw [List.perm_ext_iff_of_nodup ((t.insertAll as).nodup.of_map key)
    ((t.insertAll as').nodup.of_map key)]
  intro a
  have mem (v : Table key) : a ∈ v.items ↔ v.find? (key a) = some a := by simp [find?_eq_some]
  rw [mem, mem, held]

theorem ofList_eq (as : List α) :
    (ofList as : Table key).keys = (as.map key).eraseDups ∧
      ∀ name, (ofList as : Table key).find? name = (as.filter (key · == name)).getLast? := by
  have keyless : (empty : Table key).keys = [] := rfl
  have nothing (name : Text) : (empty : Table key).find? name = .none := rfl
  have all : (as.map key).filter (· ∉ (empty : Table key).keys) = as.map key :=
    List.filter_eq_self.mpr (by simp [keyless])
  refine ⟨?_, fun name => ?_⟩
  · rw [ofList, keys_insertAll, all, keyless, List.nil_append]
  · rw [ofList, find?_insertAll, nothing, Option.or_none, List.getLast?_filter]

end Table

end MemberOffsets
