import MemberOffsets.Config
import MemberOffsets.Proofs.Sizing.Qualifiers

set_option autoImplicit false

namespace MemberOffsets

open Text

theorem lastWidth?_congr {name name' : Text} (same : canonicalName name = canonicalName name')
    (entries : List (Text × Nat)) : lastWidth? entries name = lastWidth? entries name' := by
  rw [lastWidth?, lastWidth?, same]

theorem exists_lastWidth? {entries : List (Text × Nat)} {name : Text}
    (listed : name ∈ entries.map Prod.fst) : ∃ width, lastWidth? entries name = some width := by
  obtain ⟨e, among, rfl⟩ := List.mem_map.mp listed
  have held : e ∈ entries.filter fun f => canonicalName f.1 == canonicalName e.1 := by
    simpa using among
  obtain ⟨f, last⟩ := Option.isSome_iff_exists.mp
    (List.getLast?_isSome.mpr (List.ne_nil_of_mem held))
  exact ⟨f.2, by rw [lastWidth?, last]; rfl⟩

-- If no two of the entries have one canonical name, their order does not matter.
theorem lastWidth?_of_perm {entries : List (Text × Nat)} {a b : Text} {m n : Nat}
    (perm : entries.Perm [(a, m), (b, n)]) (apart : canonicalName a ≠ canonicalName b) :
    lastWidth? entries a = some m ∧ lastWidth? entries b = some n := by
  have first := perm.filter fun e => canonicalName e.1 == canonicalName a
  have second := perm.filter fun e => canonicalName e.1 == canonicalName b
  simp only [List.filter_cons, List.filter_nil, beq_self_eq_true, beq_iff_eq, apart, apart.symm,
    if_true, if_false] at first second
  rw [lastWidth?, lastWidth?, List.perm_singleton.mp first, List.perm_singleton.mp second]
  exact ⟨rfl, rfl⟩

namespace Profile

theorem askWidth_congr {p q : Profile} (pointer : p.pointerBytes = q.pointerBytes) (name : Text) :
    p.askWidth name = q.askWidth name := by
  simp only [askWidth, askPointer, pointer]

theorem sizing_congr {p q : Profile} {type : Text} (pointer : p.pointerBytes = q.pointerBytes)
    (override : p.override? (bareType type) = q.override? (bareType type))
    (width : p.widthOf? (bareType type) = q.widthOf? (bareType type)) :
    p.sizing type = q.sizing type := by
  simp only [sizing, sizing?, pointer, override, width, askWidth_congr pointer]

end Profile

namespace Config

variable (c : Config)

theorem perm_orderedOverrides : c.orderedOverrides.Perm c.widthOverrides.items :=
  List.mergeSort_perm _ _

theorem allBlank_of_problem? {c : Config} {fileExists : Text → Bool}
    (accepted : c.problem? fileExists = none) {name : Text}
    (listed : name ∈ c.widthOverrides.keys) : allBlank name = false := by
  have among : name ∈ c.orderedOverrides.map Prod.fst :=
    (c.perm_orderedOverrides.map Prod.fst).mem_iff.mpr listed
  rw [problem?] at accepted
  split at accepted
  · contradiction
  · split at accepted
    · contradiction
    · have kept := Option.map_eq_none_iff.mp accepted
      simpa using List.find?_eq_none.mp kept name among

def plain : Config := { c with widthOverrides := .empty }

theorem profile_eq_changed :
    c.profile = c.plain.profile.changed [.widths c.orderedOverrides] := by
  have unset : c.plain.orderedOverrides = [] := List.mergeSort_nil
  rw [profile, profile, unset]
  rfl

theorem override?_profile (name : Text) :
    c.profile.override? name = lastWidth? c.orderedOverrides name := by
  have empty : c.plain.orderedOverrides = [] := List.mergeSort_nil
  have unset : c.plain.profile.override? name = .none := by
    rw [profile, empty]
    rfl
  rw [profile_eq_changed, Profile.override?_changed, unset, Option.or_none]
  simp [Profile.Change.entries]

variable {c}

theorem sizing?_of_lastWidth? {name : Text} {width : Nat} (starless : name.getLast? ≠ some '*')
    (last : lastWidth? c.orderedOverrides name = some width) :
    (c.profile.sizing? name).map Sizing.width = some width := by
  rw [Profile.sizing?, if_neg starless, override?_profile, last]
  rfl

-- Nothing that is configured for other names is looked at.
theorem sizing_of_unset {type : Text}
    (unset : lastWidth? c.orderedOverrides (bareType type) = none) :
    c.profile.sizing type = c.plain.profile.sizing type := by
  have entries : [Profile.Change.widths c.orderedOverrides].flatMap Profile.Change.entries =
      c.orderedOverrides := by simp [Profile.Change.entries]
  rw [profile_eq_changed]
  apply Profile.sizing_congr
  · rw [Profile.pointerBytes, Profile.pointer_changed, Profile.pointerBytes]
  · rw [Profile.override?_changed, entries, unset, Option.none_or]
  · rw [Profile.widthOf?_changed _ _ _ (by rw [entries, unset])]
    simp [Profile.Change.mode?]

end Config

def configured (a b : Text) (m n : Nat) : Config :=
  { widthOverrides := .ofList [(a, m), (b, n)] }

section

variable {a b : Text} (m n : Nat) (apart : canonicalName a ≠ canonicalName b)
include apart

theorem items_configured : (configured a b m n).widthOverrides.items = [(a, m), (b, n)] := by
  have other : a ≠ b := fun same => apart (congrArg canonicalName same)
  exact Table.items_insertAll (by simp [Table.empty, Table.keys, other])

theorem perm_configured : (configured a b m n).orderedOverrides.Perm [(a, m), (b, n)] := by
  have perm := (configured a b m n).perm_orderedOverrides
  rwa [items_configured m n apart] at perm

theorem problem?_configured (dark : allBlank a = false) (dark' : allBlank b = false)
    (fileExists : Text → Bool) : (configured a b m n).problem? fileExists = none := by
  have perm := perm_configured m n apart
  have names : ((configured a b m n).orderedOverrides.map Prod.fst).find? allBlank = none := by
    rw [List.find?_eq_none]
    intro name among
    rw [(perm.map Prod.fst).mem_iff] at among
    simp only [List.map_cons, List.map_nil, List.mem_cons, List.not_mem_nil, or_false] at among
    rcases among with rfl | rfl
    · simp [dark]
    · simp [dark']
  have bits : (PointerWidth.ofBits? (configured a b m n).bits).isNone = false := rfl
  have database : (configured a b m n).symbolDatabase.filter (!fileExists ·) = none := rfl
  rw [Config.problem?, bits, database, names]
  rfl

end

/-- The width configured for a name is found under it in every accepted configuration if and only if
the name is a bare one, its spacing aside. Any other is sized by what is configured for its bare
name, and without that as if nothing had been configured. -/
theorem override_honoured_iff (name : Text) (starless : (bareType name).getLast? ≠ some '*') :
    ((∀ (c : Config) (fileExists : Text → Bool), c.problem? fileExists = none →
        name ∈ c.widthOverrides.keys →
          ∃ width, lastWidth? c.orderedOverrides name = some width ∧
            ∀ {σ : Type} (responder : Responder σ) (s : σ),
              c.profile.width responder name s = (.ok width, s)) ↔
      bareType name = collapse name) ∧
    ∀ c : Config, allBlank name = false →
      (∀ width, lastWidth? c.orderedOverrides (bareType name) = some width →
        ∀ {σ : Type} (responder : Responder σ) (s : σ),
          c.profile.width responder name s = (.ok width, s)) ∧
      (lastWidth? c.orderedOverrides (bareType name) = none →
        c.profile.sizing name = c.plain.profile.sizing name) := by
  have sized (c : Config) (dark : allBlank name = false) (width : Nat)
      (last : lastWidth? c.orderedOverrides (bareType name) = some width) {σ : Type}
      (responder : Responder σ) (s : σ) : c.profile.width responder name s = (.ok width, s) :=
    Profile.width_of_sizing? (bareType_ne_nil dark) (Config.sizing?_of_lastWidth? starless last)
      responder s
  refine ⟨⟨?_, ?_⟩, fun c dark => ⟨sized c dark, Config.sizing_of_unset⟩⟩
  · intro honoured
    cases dark : allBlank name with
    | true =>
      have same : words name = words [] := words_eq_nil dark
      rw [bareType_congr same, collapse_congr same]
      decide +kernel
    | false =>
      by_contra other
      rw [bareType_eq_collapse_iff] at other
      have apart : canonicalName name ≠ canonicalName (bareType name) := Ne.symm other
      have dark' : allBlank (bareType name) = false := by
        rw [Bool.eq_false_iff, ne_eq, ← squash_eq_nil]
        exact squash_ne_nil_of_bareType dark
      obtain ⟨first, second⟩ := lastWidth?_of_perm (perm_configured 1 2 apart) apart
      have listed : name ∈ (configured name (bareType name) 1 2).widthOverrides.keys := by
        rw [Table.keys, items_configured 1 2 apart]
        simp
      obtain ⟨width, last, widths⟩ := honoured _ (fun _ => false)
        (problem?_configured 1 2 apart dark dark' _) listed
      let responder := Responder.ofFunctions (fun _ => .notFound) (fun _ _ => none) fun _ => false
      have found := (sized _ dark 2 second responder ()).symm.trans (widths responder ())
      have two : 2 = width := Except.ok.inj (Prod.mk.inj found).1
      have one : 1 = width := Option.some.inj (first.symm.trans last)
      omega
  · intro bare c fileExists accepted listed
    have dark := Config.allBlank_of_problem? accepted listed
    have same := (bareType_eq_collapse_iff name).mp bare
    have among := (c.perm_orderedOverrides.map Prod.fst).mem_iff.mpr listed
    obtain ⟨width, last⟩ := exists_lastWidth? among
    refine ⟨width, last, fun responder s => ?_⟩
    rw [lastWidth?_congr same.symm] at last
    exact sized c dark width last responder s

-- Two spellings of one name: the one that comes last in ascending order counts for both.
theorem override_honoured_respelled :
    let name := "UNSIGNED \t int".toList
    let entries := [(name, 5), ("unsigned int".toList, 3)]
    let c := { widthOverrides := .ofList entries : Config }
    let responder := Responder.ofFunctions (fun _ => .notFound) (fun _ _ => none) (fun _ => false)
    (bareType name).getLast? ≠ some '*' ∧ c.problem? (fun _ => false) = none ∧
      name ∈ c.widthOverrides.keys ∧ allBlank name = false ∧
      lastWidth? c.orderedOverrides name = some 3 ∧
      c.profile.width responder name () = (.ok 3, ()) := by
  intro name entries c responder
  have starless : (bareType name).getLast? ≠ some '*' := by decide +kernel
  have listed : name ∈ c.widthOverrides.keys := by decide +kernel
  have dark : allBlank name = false := by decide +kernel
  have bare : bareType name = collapse name := by decide +kernel
  have items : c.widthOverrides.items = entries := by decide +kernel
  have ordered : c.orderedOverrides = entries := by
    rw [Config.orderedOverrides, items]
    exact List.mergeSort_of_pairwise (by decide +kernel)
  have last : lastWidth? c.orderedOverrides name = some 3 := by
    rw [ordered]
    decide +kernel
  have accepted : c.problem? (fun _ => false) = none := by
    rw [Config.problem?, ordered]
    decide +kernel
  obtain ⟨width, found, widths⟩ :=
    (override_honoured_iff name starless).1.mpr bare c _ accepted listed
  obtain rfl : 3 = width := Option.some.inj (last.symm.trans found)
  exact ⟨starless, accepted, listed, dark, last, widths responder ()⟩

-- The width is configured for the name with its keyword, and the bare name reads like a pointer.
theorem override_ignored :
    let name := "struct PFOO".toList
    let c := ({} : Config).withOverride name 24
    let responder := Responder.ofFunctions (fun _ => .notFound) (fun _ _ => none) (fun _ => false)
    (bareType name).getLast? ≠ some '*' ∧ c.problem? (fun _ => false) = none ∧
      name ∈ c.widthOverrides.keys ∧ lastWidth? c.orderedOverrides name = some 24 ∧
      c.profile.width responder name () = (.ok 8, ()) := by
  intro name c responder
  refine ⟨?_, ?_, ?_, ?_, ?_⟩
  · decide +kernel
  · decide +kernel
  · decide +kernel
  · decide +kernel
  · exact Profile.width_of_sizing? (by decide +kernel) (by decide +kernel) responder ()

end MemberOffsets
