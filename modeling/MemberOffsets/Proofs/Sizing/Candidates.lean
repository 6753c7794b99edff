import MemberOffsets.Console.Prompt
import MemberOffsets.Proofs.Sizing.Order
import MemberOffsets.Proofs.Symbol.Cache
import MemberOffsets.Proofs.Text.Numerals

set_option autoImplicit false

namespace MemberOffsets

open Text

def TypedNumber (line : Bytes) (n : Nat) : Prop :=
  ∃ before s after, Utf8.decode line = .ok (before ++ s ++ after) ∧ allBlank before = true ∧
    allBlank after = true ∧ Spells s n

namespace Prompt

variable {source rest : LineSource} {line : Bytes} {candidates : List Text} {c name : Text}
  {k : Nat}

theorem pick_number {s : Text} (number : readWord? 10 s = some (k + 1))
    (place : candidates[k]? = some c) : pick candidates s = some c := by
  have nonempty : s.isEmpty = false := by
    cases s with
    | nil => cases number
    | cons => rfl
  simp [pick, nonempty, number, place]

theorem choose_number (next : source.next? = some (line, rest)) (typed : TypedNumber line (k + 1))
    (fits : k + 1 ≤ wordMax) (place : candidates[k]? = some c) :
    fallback.choose name candidates source = (some c, rest) := by
  obtain ⟨before, s, after, decoded, blankBefore, blankAfter, spells⟩ := typed
  have trimmed := spells.trim blankBefore blankAfter
  have read : answer source = (some s, rest) := by
    simp only [answer, next, decoded, trimmed]
  simp [fallback, read, pick_number (spells.readWord? fits) place]

end Prompt

theorem Profile.width_of_choice {σ τ : Type} (p : Profile) {db : Database σ} {fallback : Fallback τ}
    {type c : Text} {s : σ} {t : τ} {candidates : List Text} {width : Nat}
    (nonempty : bareType type ≠ []) (unknown : p.sizing? (bareType type) = none)
    (ambiguous : (db.width (bareType type) s).1 = .ambiguous candidates)
    (chosen : (fallback.choose (bareType type) candidates t).1 = some c)
    (found : (db.width c (db.width (bareType type) s).2).1 = .found width) :
    (p.width (.of db fallback) type (s, t)).1 = .ok width := by
  have asks : p.sizing type = p.askWidth (bareType type) := by
    simp [sizing, nonempty, unknown]
  simp [Profile.width, asks, askWidth, Inquiry.run, Responder.of, ambiguous, chosen, found,
    Except.map]

/-- Every candidate that an index offers is the name of one of its layouts and finds it; and a type
whose name has brought up the candidates gets the size of the one that is picked. -/
theorem candidates_resolve (index : SymbolIndex) {σ : Type} {db : Database σ} {s : σ}
    (serves : Serves index db s) (query : Text) (candidates : List Text)
    (ambiguous : (db.width query s).1 = .ambiguous candidates ∨
      (db.layout query s).1 = .ambiguous candidates) :
    Offered index candidates ∧
      ∀ k c, candidates[k]? = some c → ∃ l ∈ index.items, l.name = c ∧
        (∀ later, Serves index db later →
          (db.width c later).1 = .found l.size ∧ (db.layout c later).1 = .found l) ∧
        ∀ (p : Profile) type, bareType type = query → query ≠ [] →
          (p.rules query).findSome? id = none →
          (∀ {τ : Type} (fallback : Fallback τ) t,
            (fallback.choose query candidates t).1 = some c →
              (p.width (.of db fallback) type (s, t)).1 = .ok l.size) ∧
          ∀ source line rest, source.next? = some (line, rest) → TypedNumber line (k + 1) →
            k + 1 ≤ wordMax →
              (p.width (.of db Prompt.fallback) type (s, source)).1 = .ok l.size := by
  have search : index.find query = .ambiguous candidates := by
    rw [serves.width, serves.layout, SymbolIndex.width] at ambiguous
    cases found : index.find query <;> simp_all [Lookup.map]
  have offered := SymbolIndex.find_ambiguous search
  refine ⟨offered, fun k c place => ?_⟩
  obtain ⟨l, member, rfl⟩ :=
    List.mem_map.mp (offered.ordered.subset (List.mem_of_getElem? place))
  -- A candidate is looked up by the very name of its layout, before any looser match is tried.
  have again {later : σ} (serves : Serves index db later) :
      (db.width l.name later).1 = .found l.size ∧ (db.layout l.name later).1 = .found l := by
    have found := SymbolIndex.find_name member
    rw [serves.width, serves.layout, SymbolIndex.width, found]
    exact ⟨rfl, rfl⟩
  refine ⟨l, member, rfl, fun later => again, ?_⟩
  rintro p type rfl nonempty unknown
  have unsized : p.sizing? (bareType type) = none :=
    Option.map_eq_none_iff.mp ((p.sizing?_eq_rules _).trans unknown)
  have first : (db.width (bareType type) s).1 = .ambiguous candidates := by
    rw [serves.width, SymbolIndex.width, search]
    rfl
  have picked {τ : Type} (fallback : Fallback τ) (t : τ)
      (choice : (fallback.choose (bareType type) candidates t).1 = some l.name) :
      (p.width (.of db fallback) type (s, t)).1 = .ok l.size :=
    p.width_of_choice nonempty unsized first choice (again (serves.ask (.width _)).2).1
  refine ⟨picked, fun source line rest next typed fits => picked Prompt.fallback source ?_⟩
  rw [Prompt.choose_number next typed fits place]

-- The second of three candidates, whose name ends in a blank, picked by its number; the index is
-- behind a cache that has been filled, cleared and filled again.
theorem candidates_resolve_typed :
    let index : SymbolIndex :=
      Table.ofList [.ofStruct "_kprocess".toList 24, .ofStruct "__KProcess ".toList 40,
        .ofUnion "_KPROCESS_64".toList 16]
    let steps : List CacheStep := [.ask (.width "process".toList), .clear,
      .ask (.layout "process".toList), .ask (.width "process".toList)]
    let db := (Database.ofIndex (σ := Unit) index).cached
    let s := ((Database.ofIndex index).session steps ((), .empty)).2
    let profile : Profile := { Profile.x64 with widths := .ofList [("ULONG".toList, 4)] }
    let candidates := index.keys
    let source := LineSource.ofBytes [0x20, 0x2B, 0x30, 0x32, 0x0D, 0x0A, 0x79]
    (db.width "process".toList s).1 = .ambiguous candidates ∧ Offered index candidates ∧
      TypedNumber [0x20, 0x2B, 0x30, 0x32, 0x0D] 2 ∧
      (profile.width (.of db Prompt.fallback) "const process".toList (s, source)).1 = .ok 40 := by
  intro index steps db s profile candidates source
  have serves : Serves index db s := .cached steps ()
  have ambiguous : (db.width "process".toList s).1 = .ambiguous candidates := by decide +kernel
  have bare : bareType "const process".toList = "process".toList := by decide +kernel
  have next : source.next? = some ([0x20, 0x2B, 0x30, 0x32, 0x0D], ⟨[0x79], []⟩) := by
    decide +kernel
  have typed : TypedNumber [0x20, 0x2B, 0x30, 0x32, 0x0D] 2 :=
    ⟨[' '], "+02".toList, ['\r'], rfl, rfl, rfl, ['+'], 1, rfl, .inr rfl⟩
  obtain ⟨offered, resolve⟩ := candidates_resolve index serves _ _ (.inl ambiguous)
  obtain ⟨l, -, name, found, resolve⟩ := resolve 1 "__KProcess ".toList rfl
  have size : l.size = 40 := by
    have answer := (found s serves).1
    have known : (db.width "__KProcess ".toList s).1 = .found 40 := by decide +kernel
    exact Lookup.found.inj (answer.symm.trans known)
  have picked := (resolve profile _ bare (by decide) (by decide)).2
    source _ _ next typed (by decide)
  exact ⟨ambiguous, offered, typed, size ▸ picked⟩

end MemberOffsets
