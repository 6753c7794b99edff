import Mathlib.Data.List.Dedup
import Mathlib.Data.List.Induction
import MemberOffsets.Proofs.Basic
import MemberOffsets.Symbol.Index

set_option autoImplicit false

namespace MemberOffsets

inductive Query where
  | width (name : Text)
  | layout (name : Text)
deriving DecidableEq

inductive Reply where
  | width (answer : Lookup Nat)
  | layout (answer : Lookup TypeLayout)
deriving DecidableEq

namespace Query

def width? : Query → Option Text
  | width name => some name
  | layout _ => none

def reply (width : Text → Lookup Nat) (layout : Text → Lookup TypeLayout) : Query → Reply
  | .width name => .width (width name)
  | .layout name => .layout (layout name)

end Query

inductive CacheStep where
  | ask (query : Query)
  | clear
deriving DecidableEq

namespace CacheStep

def reply (width : Text → Lookup Nat) (layout : Text → Lookup TypeLayout) :
    CacheStep → Option Reply
  | ask query => some (query.reply width layout)
  | clear => none

def sinceClear (steps : List CacheStep) : List Query :=
  steps.foldl (fun queries step => match step with
    | ask query => queries ++ [query]
    | clear => []) []

theorem sinceClear_ask (steps : List CacheStep) (query : Query) :
    sinceClear (steps ++ [ask query]) = sinceClear steps ++ [query] := by
  simp [sinceClear]

theorem sinceClear_clear (steps : List CacheStep) : sinceClear (steps ++ [clear]) = [] := by
  simp [sinceClear]

def Fresh (steps : List CacheStep) : Prop := steps = [] ∨ ∃ past, steps = past ++ [clear]

theorem exists_fresh (steps : List CacheStep) :
    ∃ before, Fresh before ∧ steps = before ++ (sinceClear steps).map ask := by
  induction steps using List.reverseRecOn with
  | nil => exact ⟨[], .inl rfl, rfl⟩
  | append_singleton steps step ih =>
    cases step with
    | ask query =>
      obtain ⟨before, fresh, whole⟩ := ih
      refine ⟨before, fresh, ?_⟩
      rw [sinceClear_ask, List.map_append, ← List.append_assoc, ← whole]
      rfl
    | clear => exact ⟨steps ++ [clear], .inr ⟨steps, rfl⟩, by simp [sinceClear_clear]⟩

end CacheStep

namespace Database

variable {σ : Type}

def ask (db : Database σ) : Query → σ → Reply × σ
  | .width name, s =>
      let (answer, t) := db.width name s
      (.width answer, t)
  | .layout name, s =>
      let (answer, t) := db.layout name s
      (.layout answer, t)

def recorded (db : Database σ) : Database (σ × List Query) where
  width name s :=
    let (answer, t) := db.width name s.1
    (answer, t, s.2 ++ [.width name])
  layout name s :=
    let (answer, t) := db.layout name s.1
    (answer, t, s.2 ++ [.layout name])

def session (db : Database σ) :
    List CacheStep → σ × WidthCache → List (Option Reply) × σ × WidthCache
  | [], s => ([], s)
  | .ask query :: later, s =>
      let (reply, s) := db.cached.ask query s
      let (replies, s) := session db later s
      (some reply :: replies, s)
  | .clear :: later, s =>
      let (replies, s) := session db later (forgetWidths s)
      (none :: replies, s)

theorem session_ask (db : Database σ) (query : Query) (later : List CacheStep)
    (s : σ × WidthCache) :
    db.session (.ask query :: later) s =
      (some (db.cached.ask query s).1 :: (db.session later (db.cached.ask query s).2).1,
        (db.session later (db.cached.ask query s).2).2) := rfl

theorem session_append (db : Database σ) (before after : List CacheStep) (s : σ × WidthCache) :
    db.session (before ++ after) s =
      ((db.session before s).1 ++ (db.session after (db.session before s).2).1,
        (db.session after (db.session before s).2).2) := by
  induction before generalizing s with
  | nil => rfl
  | cons step before ih => cases step <;> simp [session, ih]

structure Pure (db : Database σ) (width : Text → Lookup Nat) (layout : Text → Lookup TypeLayout) :
    Prop where
  width : ∀ name s, (db.width name s).1 = width name
  layout : ∀ name s, (db.layout name s).1 = layout name

variable {db : Database σ} {width : Text → Lookup Nat} {layout : Text → Lookup TypeLayout}

theorem Pure.recorded (pure : db.Pure width layout) : db.recorded.Pure width layout :=
  ⟨fun name s => pure.width name s.1, fun name s => pure.layout name s.1⟩

theorem pure_ofIndex (index : SymbolIndex) :
    (ofIndex (σ := σ) index).Pure index.width index.find :=
  ⟨fun _ _ => rfl, fun _ _ => rfl⟩

end Database

def Remembers (width : Text → Lookup Nat) (names : List Text) (cache : WidthCache) : Prop :=
  ∀ name, cache.find? name = if name ∈ names then some (name, width name) else none

namespace Remembers

variable {σ : Type} {db : Database σ} {width : Text → Lookup Nat}
  {layout : Text → Lookup TypeLayout} {names : List Text} {cache : WidthCache}

theorem empty : Remembers width [] .empty := fun _ => rfl

theorem insert (remembers : Remembers width names cache) (name : Text) :
    Remembers width (names ++ [name]) (cache.insert (name, width name)) := by
  intro other
  rw [Table.find?_insert, remembers other]
  by_cases same : other = name <;> simp [same]

theorem again (remembers : Remembers width names cache) {name : Text} (known : name ∈ names) :
    Remembers width (names ++ [name]) cache := by
  intro other
  rw [remembers other]
  by_cases same : other = name <;> simp [same, known]

theorem size_eq (remembers : Remembers width names cache) : cache.size = names.dedup.length := by
  have same : cache.keys.Perm names.dedup := by
    refine (List.perm_ext_iff_of_nodup cache.nodup names.nodup_dedup).mpr fun name => ?_
    have held : name ∈ cache.keys ↔ (cache.find? name).isSome := Table.mem_keys
    rw [remembers name] at held
    rw [List.mem_dedup]
    by_cases known : name ∈ names <;> simp_all [Table.keys]
  rw [← same.length_eq, Table.keys, List.length_map, Table.size]

end Remembers

def Query.pass (names : List Text) : Query → List Query
  | width name => if name ∈ names then [] else [width name]
  | layout name => [layout name]

def passing (names : List Text) : List Query → List Query
  | [] => []
  | query :: later => query.pass names ++ passing (names ++ query.width?.toList) later

theorem count_width_passing (name : Text) (queries : List Query) (names : List Text) :
    (passing names queries).count (.width name) =
      if name ∉ names ∧ .width name ∈ queries then 1 else 0 := by
  induction queries generalizing names with
  | nil => simp [passing]
  | cons query later ih =>
    cases query with
    | layout other => simp [passing, Query.pass, Query.width?, ih]
    | width other =>
      have rest := ih (names ++ [other])
      by_cases same : other = name
      · subst same
        by_cases known : other ∈ names <;> simp [passing, Query.pass, Query.width?, rest, known]
      · have apart : name ≠ other := fun e => same e.symm
        by_cases known : other ∈ names <;>
          simp [passing, Query.pass, Query.width?, rest, known, same, apart]

theorem count_layout_passing (name : Text) (queries : List Query) (names : List Text) :
    (passing names queries).count (.layout name) = queries.count (.layout name) := by
  induction queries generalizing names with
  | nil => rfl
  | cons query later ih =>
    cases query with
    | layout other => simp [passing, Query.pass, ih, List.count_cons, Nat.add_comm]
    | width other => by_cases known : other ∈ names <;> simp [passing, Query.pass, ih, known]

namespace Remembers

variable {σ : Type} {db : Database σ} {width : Text → Lookup Nat}
  {layout : Text → Lookup TypeLayout} {names : List Text} {cache : WidthCache}

theorem cached_width (remembers : Remembers width names cache) (pure : db.Pure width layout)
    (name : Text) (s : σ) :
    db.cached.width name (s, cache) =
      if name ∈ names then (width name, s, cache)
      else (width name, (db.width name s).2, cache.insert (name, width name)) := by
  have found := remembers name
  have answer := pure.width name s
  by_cases known : name ∈ names <;> simp_all [Database.cached]

-- The step: what is said, what the cache then holds, and what the database behind it is asked.
theorem ask (remembers : Remembers width names cache) (pure : db.Pure width layout) (query : Query)
    (s : σ) :
    (db.cached.ask query (s, cache)).1 = query.reply width layout ∧
      Remembers width (names ++ query.width?.toList) (db.cached.ask query (s, cache)).2.2 := by
  cases query with
  | layout name =>
    rw [Query.width?, Option.toList_none, List.append_nil]
    exact ⟨congrArg Reply.layout (pure.layout name s), remembers⟩
  | width name =>
    simp only [Database.ask, remembers.cached_width pure]
    by_cases known : name ∈ names
    · rw [if_pos known]
      exact ⟨rfl, remembers.again known⟩
    · rw [if_neg known]
      exact ⟨rfl, remembers.insert name⟩

theorem ask_recorded (remembers : Remembers width names cache) (pure : db.Pure width layout)
    (query : Query) (s : σ × List Query) :
    (db.recorded.cached.ask query (s, cache)).2.1.2 = s.2 ++ query.pass names := by
  cases query with
  | layout name => rfl
  | width name =>
    simp only [Database.ask, remembers.cached_width pure.recorded, Query.pass]
    by_cases known : name ∈ names
    · simp [known]
    · simp [known, Database.recorded]

end Remembers

namespace Database

variable {σ : Type} {db : Database σ} {width : Text → Lookup Nat}
  {layout : Text → Lookup TypeLayout} {names : List Text} {cache : WidthCache}

theorem session_replies (pure : db.Pure width layout) (steps : List CacheStep)
    (remembers : Remembers width names cache) (s : σ) :
    (db.session steps (s, cache)).1 = steps.map (CacheStep.reply width layout) ∧
      ∃ later, Remembers width later (db.session steps (s, cache)).2.2 := by
  induction steps generalizing names cache s with
  | nil => exact ⟨rfl, names, remembers⟩
  | cons step steps ih =>
    cases step with
    | clear =>
      obtain ⟨replies, later⟩ := ih Remembers.empty s
      exact ⟨congrArg (none :: ·) replies, later⟩
    | ask query =>
      obtain ⟨reply, knows⟩ := remembers.ask pure query s
      obtain ⟨replies, later⟩ := ih knows (db.cached.ask query (s, cache)).2.1
      exact ⟨by simp only [session, reply, replies, List.map_cons, CacheStep.reply], later⟩

theorem session_queries (pure : db.Pure width layout) (queries : List Query)
    (remembers : Remembers width names cache) (s : σ × List Query) :
    (db.recorded.session (queries.map .ask) (s, cache)).2.1.2 = s.2 ++ passing names queries ∧
      Remembers width (names ++ queries.filterMap Query.width?)
        (db.recorded.session (queries.map .ask) (s, cache)).2.2 := by
  induction queries generalizing names cache s with
  | nil =>
    rw [List.filterMap_nil, List.append_nil]
    exact ⟨(List.append_nil _).symm, remembers⟩
  | cons query queries ih =>
    have knows := (remembers.ask pure.recorded query s).2
    have asked := remembers.ask_recorded pure query s
    obtain ⟨rest, holds⟩ := ih knows (db.recorded.cached.ask query (s, cache)).2.1
    have names_cons : (query :: queries).filterMap Query.width? =
        query.width?.toList ++ queries.filterMap Query.width? := by
      cases query <;> rfl
    rw [List.map_cons, session_ask, names_cons, ← List.append_assoc]
    exact ⟨by rw [rest, asked, passing, List.append_assoc], holds⟩

theorem session_fresh (db : Database σ) {before : List CacheStep} (fresh : CacheStep.Fresh before)
    (s : σ) : (db.session before (s, .empty)).2.2 = .empty := by
  rcases fresh with rfl | ⟨past, rfl⟩
  · rfl
  · rw [session_append]
    rfl

end Database

/-- Whatever is done with a cache, every reply is that of the database behind it. Its size is the
number of different names of widths since the last clearing, and since then, each of these widths
has reached the database once, and each query for a layout as often as it was made. -/
theorem cached_transparent {σ : Type} (db : Database σ) (width : Text → Lookup Nat)
    (layout : Text → Lookup TypeLayout) (pure : db.Pure width layout) (s : σ)
    (steps : List CacheStep) :
    let run (steps : List CacheStep) := db.recorded.session steps ((s, []), .empty)
    let recent := CacheStep.sinceClear steps
    (run steps).1 = steps.map (CacheStep.reply width layout) ∧
      (run steps).2.2.size = (recent.filterMap Query.width?).dedup.length ∧
      ∃ before reached, CacheStep.Fresh before ∧ steps = before ++ recent.map .ask ∧
        (run steps).2.1.2 = (run before).2.1.2 ++ reached ∧
        (∀ name, reached.count (.width name) = if .width name ∈ recent then 1 else 0) ∧
        ∀ name, reached.count (.layout name) = recent.count (.layout name) := by
  intro run recent
  obtain ⟨before, fresh, whole⟩ := CacheStep.exists_fresh steps
  have replies := (Database.session_replies pure.recorded steps Remembers.empty (s, [])).1
  have forgotten := db.recorded.session_fresh fresh (s, [])
  have split : (run steps).2 =
      (db.recorded.session (recent.map .ask) ((run before).2.1, .empty)).2 := by
    have rerun : run steps = run (before ++ recent.map .ask) := congrArg run whole
    rw [rerun, ← forgotten]
    simp only [run, Database.session_append]
  obtain ⟨reached, holds⟩ :=
    Database.session_queries pure recent Remembers.empty (run before).2.1
  rw [← split] at reached holds
  refine ⟨replies, holds.size_eq, before, passing [] recent, fresh, whole, reached, ?_, ?_⟩
  · intro name
    rw [count_width_passing]
    simp
  · exact fun name => count_layout_passing name recent []

-- An ambiguous name and one that is not there, each asked again, and the first once more before.
theorem cached_transparent_cleared :
    let index : SymbolIndex :=
      Table.ofList [.ofStruct "_KEVENT".toList 24, .ofStruct "_kevent".toList 16]
    let db : Database (Unit × Nat) := (Database.ofIndex index).counted
    let ambiguous := Query.width "Kevent".toList
    let missing := Query.width "MISSING".toList
    let recent := [ambiguous, missing, ambiguous, .layout "_KEVENT".toList, missing]
    let steps := [.ask ambiguous, .clear] ++ recent.map .ask
    let outcome := db.recorded.session steps ((((), 0), []), .empty)
    db.Pure index.width index.find ∧
      outcome.1 = steps.map (CacheStep.reply index.width index.find) ∧
      index.width "Kevent".toList = .ambiguous ["_KEVENT".toList, "_kevent".toList] ∧
      outcome.2.2.size = 2 ∧
      ∃ before reached, outcome.2.1.2 = before ++ reached ∧
        reached.count ambiguous = 1 ∧ reached.count missing = 1 := by
  intro index db ambiguous missing recent steps outcome
  have pure : db.Pure index.width index.find := ⟨fun _ _ => rfl, fun _ _ => rfl⟩
  obtain ⟨replies, size, before, reached, -, -, log, widths, -⟩ :=
    cached_transparent db index.width index.find pure ((), 0) steps
  refine ⟨pure, replies, by decide, size, _, reached, log, ?_, ?_⟩
  · exact widths "Kevent".toList
  · exact widths "MISSING".toList

structure Offered (index : SymbolIndex) (candidates : List Text) : Prop where
  nonempty : candidates ≠ []
  nodup : candidates.Nodup
  ordered : candidates.Sublist index.keys

namespace SymbolIndex

variable {index : SymbolIndex} {ls : List TypeLayout} {candidates : List Text} {query : Text}

theorem offered_names (nonempty : ls ≠ []) (ordered : ls.Sublist index.items) :
    Offered index (ls.map TypeLayout.name) where
  nonempty := by simpa using nonempty
  nodup := (ordered.map TypeLayout.name).nodup index.nodup
  ordered := ordered.map TypeLayout.name

theorem pick?_ambiguous (ambiguous : pick? ls = some (.ambiguous candidates)) :
    ls ≠ [] ∧ ls.map TypeLayout.name = candidates := by
  match ls with
  | [] | [_] => simp [pick?] at ambiguous
  | _ :: _ :: _ => simpa [pick?] using ambiguous

theorem offered_pick? (close : TypeLayout → Bool) {answer : Lookup TypeLayout}
    (picked : pick? (index.items.filter close) = some answer)
    (ambiguous : answer = .ambiguous candidates) : Offered index candidates := by
  obtain ⟨nonempty, rfl⟩ := pick?_ambiguous (ambiguous ▸ picked)
  exact offered_names nonempty List.filter_sublist

theorem find_ambiguous :
    index.find query = .ambiguous candidates → Offered index candidates := by
  fun_cases find index query with
  | case1 | case2 | case5 => rintro ⟨⟩
  | case3 _ _ _ answer picked | case4 _ _ _ _ answer picked => exact offered_pick? _ picked
  | case6 _ _ _ _ _ similar nonempty =>
    rintro ⟨⟩
    exact offered_names nonempty ((List.take_sublist _ _).trans List.filter_sublist)

theorem find_name {l : TypeLayout} (member : l ∈ index.items) : index.find l.name = .found l := by
  rw [find, Table.find?_of_mem member]

end SymbolIndex

inductive Serves (index : SymbolIndex) : {σ : Type} → Database σ → σ → Prop
  | direct {σ : Type} (s : σ) : Serves index (.ofIndex index) s
  | cached {σ : Type} (steps : List CacheStep) (s : σ) :
      Serves index (Database.ofIndex index).cached
        ((Database.ofIndex index).session steps (s, .empty)).2

namespace Serves

variable {σ : Type} {index : SymbolIndex} {db : Database σ} {s : σ}

theorem ask (serves : Serves index db s) (query : Query) :
    (db.ask query s).1 = query.reply index.width index.find ∧
      Serves index db (db.ask query s).2 := by
  cases serves with
  | direct s => cases query <;> exact ⟨rfl, .direct s⟩
  | cached steps s =>
    obtain ⟨-, names, remembers⟩ :=
      Database.session_replies (Database.pure_ofIndex index) steps Remembers.empty s
    have next : Serves index (Database.ofIndex index).cached _ :=
      .cached (steps ++ [.ask query]) s
    rw [Database.session_append] at next
    exact ⟨(remembers.ask (Database.pure_ofIndex index) query _).1, next⟩

theorem width (serves : Serves index db s) (name : Text) :
    (db.width name s).1 = index.width name :=
  Reply.width.inj (serves.ask (.width name)).1

theorem layout (serves : Serves index db s) (name : Text) :
    (db.layout name s).1 = index.find name :=
  Reply.layout.inj (serves.ask (.layout name)).1

end Serves

end MemberOffsets
