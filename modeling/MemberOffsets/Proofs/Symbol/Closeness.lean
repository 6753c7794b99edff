import MemberOffsets.Proofs.Symbol.Cache
import MemberOffsets.Proofs.Basic

set_option autoImplicit false

namespace MemberOffsets

open Text

theorem Text.includes_iff {part s : Text} : includes part s = true ↔ part <:+: s := by
  induction s with
  | nil => simp [includes]
  | cons c s ih => simp [includes, ih, List.infix_cons_iff]

/-- A stored name is the query in other case, or is so without the underscores in front of both, or
has the query as a part, case and underscores in front apart. -/
inductive Closeness where
  | letters
  | stem
  | part
deriving DecidableEq, Repr

namespace Closeness

def Fits (query : Text) : Closeness → Text → Prop
  | .letters, name => lower name = lower (trim query)
  | .stem, name => SymbolIndex.stem name = SymbolIndex.stem (trim query)
  | .part, name => SymbolIndex.stem (trim query) <:+: lower name

instance (query : Text) : (rule : Closeness) → (name : Text) → Decidable (rule.Fits query name)
  | .letters, name => inferInstanceAs (Decidable (lower name = lower (trim query)))
  | .stem, name =>
      inferInstanceAs (Decidable (SymbolIndex.stem name = SymbolIndex.stem (trim query)))
  | .part, name =>
      decidable_of_iff (includes (SymbolIndex.stem (trim query)) (lower name) = true)
        Text.includes_iff

def closer : Closeness → List Closeness
  | .letters => []
  | .stem => [.letters]
  | .part => [.letters, .stem]

/-- Of names that have the query as a part, only the first 32 are candidates. -/
def listed : Closeness → List TypeLayout → List TypeLayout
  | .part, ls => ls.take 32
  | _, ls => ls

def answer : Closeness → List TypeLayout → Lookup TypeLayout
  | .letters, [l] | .stem, [l] => .found l
  | rule, ls => .ambiguous ((rule.listed ls).map TypeLayout.name)

end Closeness

namespace SymbolIndex

def matching (index : SymbolIndex) (rule : Closeness) (query : Text) : List TypeLayout :=
  index.items.filter fun l => rule.Fits query l.name

structure Closest (index : SymbolIndex) (query : Text) (rule : Closeness) : Prop where
  nonempty : index.matching rule query ≠ []
  first : ∀ closer ∈ rule.closer, index.matching closer query = []

structure IsOnly (index : SymbolIndex) (query : Text) (rule : Closeness) (l : TypeLayout) :
    Prop where
  stored : l ∈ index.items
  fits : rule.Fits query l.name
  only : ∀ m ∈ index.items, rule.Fits query m.name → m = l

section Rules

variable {index : SymbolIndex} {query : Text} {rule : Closeness} {ls : List TypeLayout}
  {l : TypeLayout} {candidates : List Text}

theorem mem_matching :
    l ∈ index.matching rule query ↔ l ∈ index.items ∧ rule.Fits query l.name := by
  simp [matching]

theorem matching_eq_nil :
    index.matching rule query = [] ↔ ∀ m ∈ index.items, ¬ rule.Fits query m.name := by
  simp [matching]

theorem nodup_items (index : SymbolIndex) : index.items.Nodup := index.nodup.of_map _

theorem matching_eq_singleton : index.matching rule query = [l] ↔ IsOnly index query rule l := by
  constructor
  · intro single
    have member : ∀ m, m ∈ index.matching rule query ↔ m = l := by simp [single]
    obtain ⟨stored, fits⟩ := mem_matching.mp ((member l).mpr rfl)
    exact ⟨stored, fits, fun m stored fits => (member m).mp (mem_matching.mpr ⟨stored, fits⟩)⟩
  · intro single
    have nodup : (index.matching rule query).Nodup := index.nodup_items.filter _
    rw [← List.perm_singleton, List.perm_ext_iff_of_nodup nodup (List.nodup_singleton l)]
    intro m
    rw [mem_matching, List.mem_singleton]
    constructor
    · exact fun ⟨stored, fits⟩ => single.only m stored fits
    · rintro rfl
      exact ⟨single.stored, single.fits⟩

theorem fits_part {name : Text} (fits : rule.Fits query name) :
    Closeness.part.Fits query name := by
  have part (name : Text) : stem name <:+: lower name := (List.dropWhile_suffix _).isInfix
  cases rule with
  | letters =>
    have same : lower name = lower (trim query) := fits
    rw [Closeness.Fits, same]
    exact part (trim query)
  | stem =>
    have same : stem name = stem (trim query) := fits
    rw [Closeness.Fits, ← same]
    exact part name
  | part => exact fits

theorem exists_closest (nonempty : index.matching .part query ≠ []) :
    ∃ rule, Closest index query rule := by
  by_cases letters : index.matching .letters query = []
  · by_cases stem : index.matching .stem query = []
    · exact ⟨.part, nonempty, by simpa [Closeness.closer] using ⟨letters, stem⟩⟩
    · exact ⟨.stem, stem, by simpa [Closeness.closer] using letters⟩
  · exact ⟨.letters, letters, by simp [Closeness.closer]⟩

theorem pick?_answer (strict : rule ≠ .part) (nonempty : ls ≠ []) :
    pick? ls = some (rule.answer ls) := by
  cases rule with
  | part => contradiction
  | letters | stem =>
    match ls with
    | [] => contradiction
    | [_] | _ :: _ :: _ => rfl

theorem answer_eq_found : rule.answer ls = .found l ↔ rule ≠ .part ∧ ls = [l] := by
  cases rule <;> match ls with
    | [] | [_] | _ :: _ :: _ => simp [Closeness.answer]

theorem answer_eq_ambiguous (nonempty : ls ≠ []) :
    rule.answer ls = .ambiguous candidates ↔
      (rule ≠ .part → 2 ≤ ls.length) ∧ candidates = (rule.listed ls).map TypeLayout.name := by
  cases rule <;> match ls with
    | [] => contradiction
    | [_] | _ :: _ :: _ => simp [Closeness.answer, eq_comm]

theorem answer_ne_notFound : rule.answer ls ≠ .notFound := by
  cases rule <;> match ls with
    | [] | [_] | _ :: _ :: _ => simp [Closeness.answer]

theorem find?_new (new : query ∉ index.keys) : index.find? query = none := by
  rwa [Table.mem_keys, Option.not_isSome_iff_eq_none] at new

theorem find_blank (new : query ∉ index.keys) (blank : stem (trim query) = []) :
    index.find query = .notFound := by
  simp [find, find?_new new, blank]

theorem find_new (new : query ∉ index.keys) (worded : stem (trim query) ≠ []) :
    index.find query =
      ((pick? (index.matching .letters query)).or (pick? (index.matching .stem query))).getD
        (if index.matching .part query = [] then .notFound
          else Closeness.part.answer (index.matching .part query)) := by
  have letters : (index.items.filter fun l => lower l.name == lower (trim query)) =
      index.matching .letters query := List.filter_congr fun l _ => by
    rw [Bool.eq_iff_iff, beq_iff_eq, decide_eq_true_iff, Closeness.Fits]
  have stems : (index.items.filter fun l => stem l.name == stem (trim query)) =
      index.matching .stem query := List.filter_congr fun l _ => by
    rw [Bool.eq_iff_iff, beq_iff_eq, decide_eq_true_iff, Closeness.Fits]
  have parts : (index.items.filter fun l => includes (stem (trim query)) (lower l.name)) =
      index.matching .part query := List.filter_congr fun l _ => by
    rw [Bool.eq_iff_iff, includes_iff, decide_eq_true_iff, Closeness.Fits]
  simp only [find, find?_new new, List.isEmpty_iff, worded, if_false, letters, stems, parts]
  cases pick? (index.matching .letters query) with
  | some answer => rfl
  | none =>
    cases pick? (index.matching .stem query) with
    | some answer => rfl
    | none =>
      cases index.matching .part query with
      | nil => rfl
      | cons l ls => rfl

theorem find_closest (new : query ∉ index.keys) (worded : stem (trim query) ≠ [])
    (closest : Closest index query rule) :
    index.find query = rule.answer (index.matching rule query) := by
  rw [find_new new worded]
  have first := closest.first
  cases rule with
  | letters =>
    have strict : Closeness.letters ≠ .part := by decide
    rw [pick?_answer strict closest.nonempty]
    rfl
  | stem =>
    have strict : Closeness.stem ≠ .part := by decide
    rw [first .letters (by decide), pick?_answer strict closest.nonempty]
    rfl
  | part =>
    rw [first .letters (by decide), first .stem (by decide), if_neg closest.nonempty]
    rfl

theorem find_none (new : query ∉ index.keys) (worded : stem (trim query) ≠ [])
    (unfit : index.matching .part query = []) : index.find query = .notFound := by
  have others (rule : Closeness) : index.matching rule query = [] :=
    matching_eq_nil.mpr fun m stored fits => matching_eq_nil.mp unfit m stored (fits_part fits)
  rw [find_new new worded, others .letters, others .stem, if_pos unfit]
  rfl

-- Of these three, exactly one is the case, and each has an answer of its own.
theorem find_cases (new : query ∉ index.keys) :
    stem (trim query) = [] ∧ index.find query = .notFound ∨
      stem (trim query) ≠ [] ∧ index.matching .part query = [] ∧ index.find query = .notFound ∨
        stem (trim query) ≠ [] ∧ ∃ rule, Closest index query rule ∧
          index.find query = rule.answer (index.matching rule query) := by
  by_cases blank : stem (trim query) = []
  · exact .inl ⟨blank, find_blank new blank⟩
  · by_cases unfit : index.matching .part query = []
    · exact .inr (.inl ⟨blank, unfit, find_none new blank unfit⟩)
    · obtain ⟨rule, closest⟩ := exists_closest unfit
      exact .inr (.inr ⟨blank, rule, closest, find_closest new blank closest⟩)

theorem find_eq_notFound (new : query ∉ index.keys) :
    index.find query = .notFound ↔
      stem (trim query) = [] ∨ ∀ m ∈ index.items, ¬ Closeness.part.Fits query m.name := by
  rw [← matching_eq_nil]
  constructor
  · intro missing
    rcases find_cases new with ⟨blank, -⟩ | ⟨-, unfit, -⟩ | ⟨-, rule, -, answer⟩
    · exact .inl blank
    · exact .inr unfit
    · exact absurd (answer.symm.trans missing) answer_ne_notFound
  · rintro (blank | unfit)
    · exact find_blank new blank
    · by_cases blank : stem (trim query) = []
      · exact find_blank new blank
      · exact find_none new blank unfit

theorem find_eq_found (new : query ∉ index.keys) :
    index.find query = .found l ↔
      stem (trim query) ≠ [] ∧ (IsOnly index query .letters l ∨
        (∀ m ∈ index.items, ¬ Closeness.letters.Fits query m.name) ∧
          IsOnly index query .stem l) := by
  simp only [← matching_eq_nil, ← matching_eq_singleton]
  constructor
  · intro found
    rcases find_cases new with ⟨-, missing⟩ | ⟨-, -, missing⟩ | ⟨worded, rule, closest, answer⟩
    · simp [missing] at found
    · simp [missing] at found
    · rw [answer, answer_eq_found] at found
      refine ⟨worded, ?_⟩
      cases rule with
      | letters => exact .inl found.2
      | stem => exact .inr ⟨closest.first .letters (by decide), found.2⟩
      | part => exact absurd rfl found.1
  · rintro ⟨worded, single | ⟨unfit, single⟩⟩
    · have closest : Closest index query .letters := ⟨by simp [single], by simp [Closeness.closer]⟩
      rw [find_closest new worded closest, answer_eq_found]
      exact ⟨by decide, single⟩
    · have closest : Closest index query .stem :=
        ⟨by simp [single], by simpa [Closeness.closer] using unfit⟩
      rw [find_closest new worded closest, answer_eq_found]
      exact ⟨by decide, single⟩

theorem find_eq_ambiguous (new : query ∉ index.keys) :
    index.find query = .ambiguous candidates ↔
      stem (trim query) ≠ [] ∧ ∃ rule, Closest index query rule ∧
        (rule ≠ .part → 2 ≤ (index.matching rule query).length) ∧
          candidates = (rule.listed (index.matching rule query)).map TypeLayout.name := by
  constructor
  · intro ambiguous
    rcases find_cases new with ⟨-, missing⟩ | ⟨-, -, missing⟩ | ⟨worded, rule, closest, answer⟩
    · simp [missing] at ambiguous
    · simp [missing] at ambiguous
    · rw [answer, answer_eq_ambiguous closest.nonempty] at ambiguous
      exact ⟨worded, rule, closest, ambiguous⟩
  · rintro ⟨worded, rule, closest, several⟩
    rw [find_closest new worded closest, answer_eq_ambiguous closest.nonempty]
    exact several

theorem find_congr {query' : Text} (new : query ∉ index.keys) (new' : query' ∉ index.keys)
    (same : lower (trim query) = lower (trim query')) : index.find query = index.find query' := by
  have stems : stem (trim query) = stem (trim query') := by rw [stem, same, stem]
  have matches' (rule : Closeness) : index.matching rule query = index.matching rule query' := by
    apply List.filter_congr
    intro l _
    rw [decide_eq_decide]
    cases rule <;> simp only [Closeness.Fits, same, stems]
  by_cases blank : stem (trim query) = []
  · rw [find_blank new blank, find_blank new' (stems ▸ blank)]
  · rw [find_new new blank, find_new new' (stems ▸ blank)]
    simp only [matches']

/-- The same answer, but for the order of its candidates, and but for which they are where more than
32 names have the query as a part. -/
inductive Reordered (index : SymbolIndex) (query : Text) :
    Lookup TypeLayout → Lookup TypeLayout → Prop
  | found (l : TypeLayout) : Reordered index query (.found l) (.found l)
  | notFound : Reordered index query .notFound .notFound
  | ambiguous {cs cs' : List Text} :
      cs.Perm cs' → Reordered index query (.ambiguous cs) (.ambiguous cs')
  | capped {cs cs' : List Text} :
      Closest index query .part → 32 < (index.matching .part query).length →
        cs.length = 32 → cs'.length = 32 → Reordered index query (.ambiguous cs) (.ambiguous cs')

theorem listed_eq_self (few : rule = .part → ls.length ≤ 32) : rule.listed ls = ls := by
  cases rule with
  | letters | stem => rfl
  | part => exact List.take_of_length_le (few rfl)

theorem reordered_answer (closest : Closest index query rule)
    (perm : (index.matching rule query).Perm ls) :
    Reordered index query (rule.answer (index.matching rule query)) (rule.answer ls) := by
  have nonempty := closest.nonempty
  have nonempty' : ls ≠ [] := fun empty => nonempty (List.perm_nil.mp (empty ▸ perm))
  have length := perm.length_eq
  by_cases several : rule ≠ .part → 2 ≤ (index.matching rule query).length
  · rw [(answer_eq_ambiguous nonempty).mpr ⟨several, rfl⟩,
      (answer_eq_ambiguous nonempty').mpr ⟨length ▸ several, rfl⟩]
    by_cases few : rule = .part → (index.matching rule query).length ≤ 32
    · rw [listed_eq_self few, listed_eq_self (length ▸ few)]
      exact .ambiguous (perm.map TypeLayout.name)
    · obtain ⟨rfl, many⟩ := Classical.not_imp.mp few
      apply Reordered.capped closest (by omega) <;>
        simp only [Closeness.listed, List.length_map, List.length_take] <;> omega
  · obtain ⟨strict, single⟩ := Classical.not_imp.mp several
    have one : (index.matching rule query).length = 1 := by
      have := List.length_pos_iff.mpr nonempty
      omega
    obtain ⟨l, same⟩ := List.length_eq_one_iff.mp one
    rw [same] at perm ⊢
    rw [answer_eq_found.mpr ⟨strict, rfl⟩,
      answer_eq_found.mpr ⟨strict, List.singleton_perm.mp perm |>.symm⟩]
    exact .found l

theorem find_reordered {index' : SymbolIndex} (perm : index.items.Perm index'.items)
    (query : Text) : Reordered index query (index.find query) (index'.find query) := by
  by_cases stored : query ∈ index.keys
  · obtain ⟨l, member, rfl⟩ := List.mem_map.mp stored
    rw [find_name member, find_name (perm.mem_iff.mp member)]
    exact .found l
  · have new' : query ∉ index'.keys := by
      rwa [Table.keys, ← (perm.map TypeLayout.name).mem_iff]
    have matches' (rule : Closeness) :
        (index.matching rule query).Perm (index'.matching rule query) := perm.filter _
    have empty (rule : Closeness) (unfit : index.matching rule query = []) :
        index'.matching rule query = [] := List.nil_perm.mp (unfit ▸ matches' rule)
    rcases find_cases stored with
      ⟨blank, missing⟩ | ⟨worded, unfit, missing⟩ | ⟨worded, rule, closest, answer⟩
    · rw [missing, find_blank new' blank]
      exact .notFound
    · rw [missing, find_none new' worded (empty .part unfit)]
      exact .notFound
    · have nonempty : index'.matching rule query ≠ [] := fun unfit =>
        closest.nonempty (List.perm_nil.mp (unfit ▸ matches' rule))
      have closest' : Closest index' query rule :=
        ⟨nonempty, fun closer among => empty closer (closest.first closer among)⟩
      rw [answer, find_closest new' worded closest']
      exact reordered_answer closest (matches' rule)

end Rules

/-- The rules of the search, for every index and query, and what they make of a query that is
spelled in another way or of layouts that are stored in another order. -/
theorem find_exact (index : SymbolIndex) :
    (∀ l ∈ index.items, index.find l.name = .found l) ∧
      (∀ query, query ∉ index.keys →
        (stem (trim query) = [] → index.find query = .notFound) ∧
          (∀ l, index.find query = .found l ↔
            stem (trim query) ≠ [] ∧ (IsOnly index query .letters l ∨
              (∀ m ∈ index.items, ¬ Closeness.letters.Fits query m.name) ∧
                IsOnly index query .stem l)) ∧
          (index.find query = .notFound ↔
            stem (trim query) = [] ∨ ∀ m ∈ index.items, ¬ Closeness.part.Fits query m.name) ∧
          ∀ candidates, index.find query = .ambiguous candidates ↔
            stem (trim query) ≠ [] ∧ ∃ rule, Closest index query rule ∧
              (rule ≠ .part → 2 ≤ (index.matching rule query).length) ∧
                candidates = (rule.listed (index.matching rule query)).map TypeLayout.name) ∧
      (∀ query query', query ∉ index.keys → query' ∉ index.keys →
        lower (trim query) = lower (trim query') → index.find query = index.find query') ∧
      ∀ (ls ls' : List TypeLayout) (query : Text), ls.Perm ls' →
        (ls.map TypeLayout.name).Nodup →
          Reordered (index.insertAll ls) query (find (index.insertAll ls) query)
            (find (index.insertAll ls') query) := by
  refine ⟨fun l member => find_name member, ?_, ?_, ?_⟩
  · intro query new
    exact ⟨find_blank new, fun l => find_eq_found new, find_eq_notFound new,
      fun candidates => find_eq_ambiguous new⟩
  · intro query query' new new' same
    exact find_congr new new' same
  · intro ls ls' query perm distinct
    exact find_reordered (Table.insertAll_perm perm distinct) query

def twins : List TypeLayout := [.ofStruct "_KEVENT".toList 24, .ofStruct "__KEvent".toList 32]

def twinIndex : SymbolIndex := .ofList twins

theorem find_exact_twins :
    twinIndex.find "__KEvent".toList = .found (.ofStruct "__KEvent".toList 32) ∧
      twinIndex.find " _kevent".toList = .found (.ofStruct "_KEVENT".toList 24) ∧
      twinIndex.find "_kevent".toList = twinIndex.find " _kevent".toList ∧
      twinIndex.find "___".toList = .notFound ∧ twinIndex.find "KEVENTS".toList = .notFound ∧
      twinIndex.find "kevent".toList = .ambiguous ["_KEVENT".toList, "__KEvent".toList] ∧
      Reordered twinIndex "kevent".toList (twinIndex.find "kevent".toList)
        (find (.ofList twins.reverse) "kevent".toList) := by
  obtain ⟨stored, rules, spelling, -⟩ := find_exact twinIndex
  obtain ⟨-, found, -, -⟩ := rules " _kevent".toList (by decide)
  obtain ⟨blank, -, -, -⟩ := rules "___".toList (by decide)
  obtain ⟨-, -, missing, -⟩ := rules "KEVENTS".toList (by decide)
  obtain ⟨-, -, -, several⟩ := rules "kevent".toList (by decide)
  refine ⟨stored (.ofStruct "__KEvent".toList 32) (by decide), ?_,
    spelling _ _ (by decide) (by decide) (by decide), blank (by decide), ?_, ?_, ?_⟩
  · exact (found _).mpr ⟨by decide, .inl ⟨by decide, by decide, by decide⟩⟩
  · exact missing.mpr (.inr (by decide))
  · exact (several _).mpr ⟨by decide, .stem, ⟨by decide, by decide⟩, by decide, by decide⟩
  · exact (find_exact .empty).2.2.2 twins twins.reverse _ twins.reverse_perm.symm (by decide)

end SymbolIndex

end MemberOffsets
