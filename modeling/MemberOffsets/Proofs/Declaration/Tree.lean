import Mathlib.Data.List.InsertIdx
import MemberOffsets.Declaration.Statement

set_option autoImplicit false

namespace MemberOffsets.MemberTree

variable {α β γ δ σ : Type}

mutual

theorem tree_induction {P : List (MemberTree β α) → Prop} (nil : P [])
    (field : ∀ a ms, P ms → P (.field a :: ms))
    (block : ∀ b inner ms, P inner → P ms → P (.block b inner :: ms)) :
    ∀ (m : MemberTree β α) (ms : List (MemberTree β α)), P ms → P (m :: ms)
  | .field a, ms, rest => field a ms rest
  | .block b inner, ms, rest => block b inner ms (members_induction nil field block inner) rest

-- A property of lists of members needs no companion for single members: both constructors
-- are cases of the list.
@[elab_as_elim]
theorem members_induction {P : List (MemberTree β α) → Prop} (nil : P [])
    (field : ∀ a ms, P ms → P (.field a :: ms))
    (block : ∀ b inner ms, P inner → P ms → P (.block b inner :: ms)) :
    ∀ ms, P ms
  | [] => nil
  | m :: ms => tree_induction nil field block m ms (members_induction nil field block ms)

end

mutual

def blocks : MemberTree β α → List β
  | .field _ => []
  | .block b ms => b :: blocksOf ms

def blocksOf : List (MemberTree β α) → List β
  | [] => []
  | m :: ms => blocks m ++ blocksOf ms

end

mutual

def map (g : β → δ) (f : α → γ) : MemberTree β α → MemberTree δ γ
  | .field a => .field (f a)
  | .block b ms => .block (g b) (mapAll g f ms)

def mapAll (g : β → δ) (f : α → γ) : List (MemberTree β α) → List (MemberTree δ γ)
  | [] => []
  | m :: ms => map g f m :: mapAll g f ms

end

@[simp] theorem map_field (g : β → δ) (f : α → γ) (a : α) :
    map g f (.field a) = .field (f a) := by simp [map]

@[simp] theorem map_block (g : β → δ) (f : α → γ) (b : β) (ms : List (MemberTree β α)) :
    map g f (.block b ms) = .block (g b) (mapAll g f ms) := by simp [map]

@[simp] theorem mapAll_nil (g : β → δ) (f : α → γ) : mapAll g f [] = [] := by simp [mapAll]

@[simp] theorem mapAll_cons (g : β → δ) (f : α → γ) (m : MemberTree β α)
    (ms : List (MemberTree β α)) : mapAll g f (m :: ms) = map g f m :: mapAll g f ms := by
  simp [mapAll]

theorem mapAll_eq_map (g : β → δ) (f : α → γ) (ms : List (MemberTree β α)) :
    mapAll g f ms = ms.map (map g f) := by
  induction ms with
  | nil => simp
  | cons m ms ih => simp [ih]

theorem traverseAll_eq_mapAll {f : α → σ → γ × σ} {g : α → γ} {ms : List (MemberTree β α)} {s : σ}
    (still : ∀ a ∈ leavesOf ms, f a s = (g a, s)) : traverseAll f ms s = (mapAll id g ms, s) := by
  induction ms using members_induction with
  | nil => simp [traverseAll]
  | field a ms ih =>
    have here := still a List.mem_cons_self
    have rest := ih fun c among => still c (List.mem_append_right _ among)
    simp [traverseAll, traverse, here, rest]
  | block b inner ms ihInner ih =>
    have members := ihInner fun c among => still c (List.mem_append_left _ among)
    have rest := ih fun c among => still c (List.mem_append_right _ among)
    simp [traverseAll, traverse, members, rest]

theorem traverse_eq_map {f : α → σ → γ × σ} {g : α → γ} {m : MemberTree β α} {s : σ}
    (still : ∀ a ∈ leaves m, f a s = (g a, s)) : traverse f m s = (map id g m, s) := by
  cases m with
  | field a => simp [traverse, still a List.mem_cons_self]
  | block b ms => simp [traverse, traverseAll_eq_mapAll still]

theorem traverse_unit (f : α → Unit → γ × Unit) (m : MemberTree β α) :
    (traverse f m ()).1 = map id (fun a => (f a ()).1) m :=
  congrArg Prod.fst (traverse_eq_map (f := f) fun _ _ => rfl)

theorem mapAll_traverseAll (f : α → σ → γ × σ) (g : γ → α) (inverse : ∀ a s, g (f a s).1 = a)
    (ms : List (MemberTree β α)) :
    ∀ s, mapAll id g (traverseAll f ms s).1 = ms := by
  induction ms using members_induction with
  | nil => intro s; simp [traverseAll]
  | field a ms ih => intro s; simp [traverseAll, traverse, inverse, ih]
  | block b inner ms ihInner ih => intro s; simp [traverseAll, traverse, ihInner, ih]

theorem map_traverse (f : α → σ → γ × σ) (g : γ → α) (inverse : ∀ a s, g (f a s).1 = a)
    (m : MemberTree β α) (s : σ) : map id g (traverse f m s).1 = m := by
  cases m with
  | field a => simp [traverse, inverse]
  | block b ms => simp [traverse, mapAll_traverseAll f g inverse]

theorem traverseAll_mapAll (f : α → σ → γ × σ) (g : β → δ) (ms : List (MemberTree β α)) :
    ∀ s, traverseAll f (mapAll g id ms) s =
      (mapAll g id (traverseAll f ms s).1, (traverseAll f ms s).2) := by
  induction ms using members_induction with
  | nil => intro s; simp [traverseAll]
  | field a ms ih => intro s; simp [traverseAll, traverse, ih]
  | block b inner ms ihInner ih => intro s; simp [traverseAll, traverse, ihInner, ih]

theorem mem_leavesOf_traverseAll (f : α → σ → γ × σ) {ms : List (MemberTree β α)} {c : γ} :
    ∀ {s}, c ∈ leavesOf (traverseAll f ms s).1 → ∃ a ∈ leavesOf ms, ∃ t, c = (f a t).1 := by
  induction ms using members_induction with
  | nil => simp [traverseAll, leavesOf]
  | field a ms ih =>
    intro s among
    rcases List.mem_cons.mp among with rfl | later
    · exact ⟨a, List.mem_cons_self, s, rfl⟩
    · obtain ⟨b, here, t, same⟩ := ih later
      exact ⟨b, List.mem_cons_of_mem a here, t, same⟩
  | block b inner ms ihInner ih =>
    intro s among
    rcases List.mem_append.mp among with inside | later
    · obtain ⟨a, here, t, same⟩ := ihInner inside
      exact ⟨a, List.mem_append_left _ here, t, same⟩
    · obtain ⟨a, here, t, same⟩ := ih later
      exact ⟨a, List.mem_append_right _ here, t, same⟩

@[simp] theorem blocksOf_traverseAll (f : α → σ → γ × σ) (ms : List (MemberTree β α)) (s : σ) :
    blocksOf (traverseAll f ms s).1 = blocksOf ms := by
  induction ms using members_induction generalizing s with
  | nil => simp [traverseAll, blocksOf]
  | field a ms ih => simp [traverseAll, traverse, blocksOf, blocks, ih]
  | block b inner ms ihInner ih => simp [traverseAll, traverse, blocksOf, blocks, ihInner, ih]

-- Two rewritings that make the same leaf from related states, and leave related states.
theorem traverseAll_related {τ : Type} {f : α → σ → γ × σ} {g : α → τ → γ × τ} {R : σ → τ → Prop}
    (step : ∀ a s t, R s t → (g a t).1 = (f a s).1 ∧ R (f a s).2 (g a t).2)
    (ms : List (MemberTree β α)) :
    ∀ {s t}, R s t → (traverseAll g ms t).1 = (traverseAll f ms s).1 ∧
      R (traverseAll f ms s).2 (traverseAll g ms t).2 := by
  induction ms using members_induction with
  | nil => intro s t related; exact ⟨rfl, related⟩
  | field a ms ih =>
    intro s t related
    obtain ⟨leaf, next⟩ := step a s t related
    obtain ⟨rest, last⟩ := ih next
    simp only [traverseAll, traverse, leaf, rest, true_and]
    exact last
  | block b inner ms ihInner ih =>
    intro s t related
    obtain ⟨members, next⟩ := ihInner related
    obtain ⟨rest, last⟩ := ih next
    simp only [traverseAll, traverse, members, rest, true_and]
    exact last

-- What is true of every step, with the events at the leaf that it makes, is true of all events from
-- left to right.
theorem traverseAll_events {ε : Type} {f : α → σ → γ × σ} {events : γ → List ε}
    {P : σ → List ε → σ → Prop} (nil : ∀ s, P s [] s)
    (append : ∀ {s t u es es'}, P s es t → P t es' u → P s (es ++ es') u)
    (step : ∀ a s, P s (events (f a s).1) (f a s).2) (ms : List (MemberTree β α)) :
    ∀ s, P s ((leavesOf (traverseAll f ms s).1).flatMap events) (traverseAll f ms s).2 := by
  induction ms using members_induction with
  | nil => exact nil
  | field a ms ih =>
    intro s
    simpa [traverseAll, traverse, leavesOf, leaves] using append (step a s) (ih _)
  | block b inner ms ihInner ih =>
    intro s
    simpa [traverseAll, traverse, leavesOf, leaves] using append (ihInner s) (ih _)

def at? : MemberTree β α → List Nat → Option (MemberTree β α)
  | m, [] => some m
  | .field _, _ :: _ => none
  | .block _ ms, i :: path => ms[i]?.bind (at? · path)

@[simp] theorem at?_nil (m : MemberTree β α) : at? m [] = some m := by cases m <;> rfl

@[simp] theorem at?_field_cons (a : α) (i : Nat) (path : List Nat) :
    at? (.field a : MemberTree β α) (i :: path) = none := rfl

@[simp] theorem at?_block_cons (b : β) (ms : List (MemberTree β α)) (i : Nat) (path : List Nat) :
    at? (.block b ms) (i :: path) = ms[i]?.bind (at? · path) := rfl

theorem at?_append (m : MemberTree β α) (p q : List Nat) :
    at? m (p ++ q) = (at? m p).bind (at? · q) := by
  induction p generalizing m with
  | nil => simp
  | cons i p ih =>
    cases m with
    | field a => simp
    | block b ms => cases h : ms[i]? <;> simp [h, ih]

/-- The tree without the member at a path. The root stays. -/
def erase : MemberTree β α → List Nat → MemberTree β α
  | .block b ms, [i] => .block b (ms.eraseIdx i)
  | .block b ms, i :: path => .block b (ms.modify i (erase · path))
  | m, _ => m

@[simp] theorem erase_nil (m : MemberTree β α) : erase m [] = m := by cases m <;> rfl

@[simp] theorem erase_field (a : α) (path : List Nat) :
    erase (.field a : MemberTree β α) path = .field a := by cases path <;> rfl

@[simp] theorem erase_block_last (b : β) (ms : List (MemberTree β α)) (i : Nat) :
    erase (.block b ms) [i] = .block b (ms.eraseIdx i) := rfl

@[simp] theorem erase_block_cons (b : β) (ms : List (MemberTree β α)) (i j : Nat)
    (path : List Nat) :
    erase (.block b ms) (i :: j :: path) = .block b (ms.modify i (erase · (j :: path))) := rfl

theorem map_modify {f : α → γ} {h : α → α} {k : γ → γ} (commute : ∀ a, f (h a) = k (f a))
    (as : List α) (i : Nat) : (as.modify i h).map f = (as.map f).modify i k := by
  induction as generalizing i with
  | nil => simp
  | cons a as ih => cases i <;> simp [commute, ih]

theorem map_erase (g : β → δ) (f : α → γ) (m : MemberTree β α) (path : List Nat) :
    map g f (erase m path) = erase (map g f m) path := by
  induction path generalizing m with
  | nil => simp
  | cons i path ih =>
    cases m with
    | field a => simp
    | block b ms =>
      cases path with
      | nil => simp [mapAll_eq_map, List.eraseIdx_map]
      | cons j path =>
        have members := map_modify (h := (erase · (j :: path))) (k := (erase · (j :: path))) ih ms i
        simp [mapAll_eq_map, members]

end MemberOffsets.MemberTree
