import MemberOffsets.Proofs.Sizing.Candidates
import MemberOffsets.Proofs.Text.NumeralGrammar

set_option autoImplicit false

namespace MemberOffsets

open Text

/-- A name that the prompt does not take for a number or for no answer at all. -/
structure Typable (name : Text) : Prop where
  nonempty : name ≠ []
  trimmed : trim name = name
  unnumbered : ∀ n ≤ wordMax, ¬ IsUnsigned 10 name n

def TypedName (line : Bytes) (name : Text) : Prop :=
  ∃ before after, Utf8.decode line = .ok (before ++ name ++ after) ∧ allBlank before = true ∧
    allBlank after = true

def FirstInAnyCase (names : List Text) (name first : Text) : Prop :=
  ∃ before after, names = before ++ first :: after ∧ lower first = lower name ∧
    ∀ other ∈ before, lower other ≠ lower name

section

variable {names candidates : List Text} {name first c : Text}

theorem find?_sameIgnoringCase :
    names.find? (sameIgnoringCase · name) = some first ↔ FirstInAnyCase names name first := by
  simp only [List.find?_eq_some_iff_append, sameIgnoringCase, beq_iff_eq, FirstInAnyCase,
    Bool.not_eq_true', beq_eq_false_iff_ne]
  constructor
  · rintro ⟨same, before, after, whole, others⟩
    exact ⟨before, after, whole, same, others⟩
  · rintro ⟨before, after, whole, same, others⟩
    exact ⟨same, before, after, whole, others⟩

theorem exists_firstInAnyCase (member : name ∈ names) :
    ∃ first, FirstInAnyCase names name first := by
  have found : (names.find? (sameIgnoringCase · name)).isSome = true :=
    List.find?_isSome.mpr ⟨name, member, by simp [sameIgnoringCase]⟩
  obtain ⟨first, found⟩ := Option.isSome_iff_exists.mp found
  exact ⟨first, find?_sameIgnoringCase.mp found⟩

theorem FirstInAnyCase.mem (found : FirstInAnyCase names name first) : first ∈ names := by
  obtain ⟨before, after, rfl, -, -⟩ := found
  exact List.mem_append_right _ List.mem_cons_self

namespace Prompt

theorem pick_name (typable : Typable c) :
    pick candidates c = candidates.find? (sameIgnoringCase · c) := by
  have unread : readWord? 10 c = none := by
    rw [Option.eq_none_iff_forall_ne_some]
    intro n read
    obtain ⟨unsigned, fits⟩ := (readWord?_eq_some_iff (by decide)).mp read
    exact typable.unnumbered n fits unsigned
  simp [pick, typable.nonempty, unread]

theorem choose_name {source rest : LineSource} {line : Bytes}
    (next : source.next? = some (line, rest)) (typed : TypedName line c) (typable : Typable c)
    (query : Text) :
    fallback.choose query candidates source =
      (candidates.find? (sameIgnoringCase · c), rest) := by
  obtain ⟨before, after, decoded, blankBefore, blankAfter⟩ := typed
  have trimmed : trim (before ++ c ++ after) = c := by
    rw [trim_append_right _ blankAfter, trim_append_left blankBefore, typable.trimmed]
  have read : answer source = (some c, rest) := by
    simp only [answer, next, decoded, trimmed]
  simp [fallback, read, pick_name typable]

end Prompt

end

/-- The exact name of a candidate picks the first candidate that differs from it in case at most,
and the type gets the size of that one. So a candidate is picked by its name if and only if no other
spelling of it stands before it. -/
theorem choose_typed_iff (index : SymbolIndex) {σ : Type} {db : Database σ} {s : σ}
    (serves : Serves index db s) {query c : Text} {candidates : List Text}
    (search : index.find query = .ambiguous candidates) (member : c ∈ candidates)
    (typable : Typable c) {source rest : LineSource} {line : Bytes}
    (next : source.next? = some (line, rest)) (typed : TypedName line c) :
    ((Prompt.fallback.choose query candidates source).1 = some c ↔
      FirstInAnyCase candidates c c) ∧
    ∃ l ∈ index.items, FirstInAnyCase candidates c l.name ∧
      Prompt.fallback.choose query candidates source = (some l.name, rest) ∧
      ∀ (p : Profile) type, bareType type = query → query ≠ [] →
        (p.rules query).findSome? id = none →
          (p.width (.of db Prompt.fallback) type (s, source)).1 = .ok l.size := by
  have choice : Prompt.fallback.choose query candidates source =
      (candidates.find? (sameIgnoringCase · c), rest) :=
    Prompt.choose_name next typed typable query
  refine ⟨by rw [choice, find?_sameIgnoringCase], ?_⟩
  obtain ⟨first, found⟩ := exists_firstInAnyCase member
  have offered := SymbolIndex.find_ambiguous search
  obtain ⟨l, among, rfl⟩ := List.mem_map.mp (offered.ordered.subset found.mem)
  have chosen : Prompt.fallback.choose query candidates source = (some l.name, rest) := by
    rw [choice, find?_sameIgnoringCase.mpr found]
  refine ⟨l, among, found, chosen, ?_⟩
  rintro p type rfl nonempty unknown
  have unsized : p.sizing? (bareType type) = none :=
    Option.map_eq_none_iff.mp ((p.sizing?_eq_rules _).trans unknown)
  have ambiguous : (db.width (bareType type) s).1 = .ambiguous candidates := by
    rw [serves.width, SymbolIndex.width, search]
    rfl
  -- The candidate is looked up by the very name of its layout.
  have later : Serves index db (db.width (bareType type) s).2 := (serves.ask (.width _)).2
  have sized : (db.width l.name (db.width (bareType type) s).2).1 = .found l.size := by
    rw [later.width, SymbolIndex.width, SymbolIndex.find_name among]
    rfl
  exact p.width_of_choice nonempty unsized ambiguous (by rw [chosen]) sized

def casedIndex : SymbolIndex :=
  Table.ofList [.ofStruct "_LIST_ENTRY".toList 16, .ofStruct "_list_entry".toList 8]

def casedProfile : Profile := { Profile.x64 with widths := .ofList [("ULONG".toList, 4)] }

theorem typable_of_letter {c : Char} {r : Text} (letter : digit? 10 c = none) (sign : c ≠ '+')
    (trimmed : trim (c :: r) = c :: r) : Typable (c :: r) where
  nonempty := List.cons_ne_nil c r
  trimmed := trimmed
  unnumbered n _ unsigned := by
    rcases unsigned.mem List.mem_cons_self with plus | digit
    · exact sign plus
    · exact not_isDigit (by decide) letter digit

-- The name of the first one, with blanks around it.
theorem choose_typed_first :
    let candidates := casedIndex.keys
    let name := "_LIST_ENTRY".toList
    let line := Utf8.encode (' ' :: name ++ ['\r'])
    let source := LineSource.ofBytes (line ++ LineSource.newline :: line)
    casedIndex.find "list_entry".toList = .ambiguous candidates ∧ name ∈ candidates ∧
      Typable name ∧ source.next? = some (line, ⟨line, []⟩) ∧ TypedName line name ∧
      FirstInAnyCase candidates name name ∧
      (Prompt.fallback.choose "list_entry".toList candidates source).1 = some name ∧
      (casedProfile.width (.of (.ofIndex casedIndex) Prompt.fallback) "list_entry".toList
        ((), source)).1 = .ok 16 := by
  intro candidates name line source
  have search : casedIndex.find "list_entry".toList = .ambiguous candidates := by decide +kernel
  have typable : Typable name := typable_of_letter (by decide) (by decide) (by decide)
  have typed : TypedName line name := ⟨[' '], ['\r'], by decide +kernel, rfl, rfl⟩
  have next : source.next? = some (line, ⟨line, []⟩) := by decide +kernel
  have first : FirstInAnyCase candidates name name :=
    ⟨[], ["_list_entry".toList], rfl, rfl, by simp⟩
  obtain ⟨chosen, l, among, -, answer, resolve⟩ := choose_typed_iff casedIndex (.direct ()) search
    (by decide) typable next typed
  have picked := chosen.mpr first
  have sized := resolve casedProfile "list_entry".toList (by decide +kernel) (by decide) (by decide)
  have named : l.name = name := by
    rw [answer] at picked
    exact Option.some.inj picked
  have size : l.size = 16 := by
    have both : ∀ l ∈ casedIndex.items, l.name = name → l.size = 16 := by decide
    exact both l among named
  exact ⟨search, by decide, typable, next, typed, first, picked, size ▸ sized⟩

theorem choose_typed_other_case :
    let candidates := casedIndex.keys
    let name := "_list_entry".toList
    let line := Utf8.encode name
    let source := LineSource.ofBytes (line ++ [LineSource.newline])
    casedIndex.find "_List_Entry".toList = .ambiguous candidates ∧ name ∈ candidates ∧
      Typable name ∧ TypedName line name ∧ source.next? = some (line, ⟨[], []⟩) ∧
      casedIndex.find name = .found (.ofStruct name 8) ∧
      (Prompt.fallback.choose "_List_Entry".toList candidates source).1 =
        some "_LIST_ENTRY".toList ∧
      (casedProfile.width (.of (.ofIndex casedIndex) Prompt.fallback) "_List_Entry".toList
        ((), source)).1 = .ok 16 := by
  intro candidates name line source
  have typed : TypedName line name := ⟨[], [], by decide +kernel, rfl, rfl⟩
  exact ⟨by decide +kernel, by decide, typable_of_letter (by decide) (by decide) (by decide), typed,
    by decide +kernel, by decide +kernel, by decide +kernel, by decide +kernel⟩

end MemberOffsets
