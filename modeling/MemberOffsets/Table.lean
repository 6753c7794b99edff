import MemberOffsets.Text.Basic

set_option autoImplicit false

namespace MemberOffsets

variable {α : Type}

structure Table (key : α → Text) where
  items : List α
  nodup : (items.map key).Nodup

namespace Table

variable {key : α → Text}

def empty : Table key := ⟨[], List.nodup_nil⟩

def keys (t : Table key) : List Text := t.items.map key

def size (t : Table key) : Nat := t.items.length

def find? (t : Table key) (name : Text) : Option α := t.items.find? (key · == name)

def put (key : α → Text) (a : α) : List α → List α
  | [] => [a]
  | b :: bs => if key b = key a then a :: bs else b :: put key a bs

theorem map_put (a : α) (bs : List α) :
    (put key a bs).map key = if key a ∈ bs.map key then bs.map key else bs.map key ++ [key a] := by
  induction bs with
  | nil => simp [put]
  | cons b bs ih =>
      by_cases h : key b = key a
      · simp [put, h]
      · have h' : ¬key a = key b := fun e => h e.symm
        simp only [put, h, if_false, List.map_cons, ih, List.mem_cons, h', false_or]
        split <;> simp

theorem find?_put (a : α) (name : Text) (bs : List α) :
    (put key a bs).find? (key · == name) =
      if name = key a then some a else bs.find? (key · == name) := by
  induction bs with
  | nil =>
      by_cases h : name = key a
      · simp [put, h]
      · have h' : (key a == name) = false := by simpa using fun e : key a = name => h e.symm
        simp [put, h, h']
  | cons b bs ih =>
      by_cases hb : key b = key a
      · by_cases h : name = key a
        · simp [put, hb, h]
        · have h' : (key a == name) = false := by simpa using fun e : key a = name => h e.symm
          simp only [put, hb, if_true, List.find?_cons, h', h, if_false]
      · by_cases hn : key b = name
        · have : ¬name = key a := fun e => hb (hn.trans e)
          simp [put, hn, this]
        · simp [put, hb, hn, ih]

theorem nodup_put (a : α) {bs : List α} (h : (bs.map key).Nodup) :
    ((put key a bs).map key).Nodup := by
  rw [map_put]
  split
  · exact h
  · rename_i hk
    rw [List.nodup_append]
    refine ⟨h, by simp, fun x hx y hy e => hk ?_⟩
    rw [← List.mem_singleton.mp hy, ← e]
    exact hx

def insert (t : Table key) (a : α) : Table key := ⟨put key a t.items, nodup_put a t.nodup⟩

@[simp] theorem keys_insert (t : Table key) (a : α) :
    (t.insert a).keys = if key a ∈ t.keys then t.keys else t.keys ++ [key a] := map_put a t.items

@[simp] theorem find?_insert (t : Table key) (a : α) (name : Text) :
    (t.insert a).find? name = if name = key a then some a else t.find? name :=
  find?_put a name t.items

def insertAll (t : Table key) (as : List α) : Table key := as.foldl insert t

def ofList (as : List α) : Table key := empty.insertAll as

end Table

abbrev WidthTable := Table (Prod.fst : Text × Nat → Text)

def WidthTable.get? (t : WidthTable) (name : Text) : Option Nat := (t.find? name).map Prod.snd

@[simp] theorem WidthTable.get?_insert (t : WidthTable) (entry : Text × Nat) (name : Text) :
    WidthTable.get? (t.insert entry) name =
      if name = entry.1 then some entry.2 else t.get? name := by
  simp only [get?, Table.find?_insert]
  split <;> simp

end MemberOffsets
