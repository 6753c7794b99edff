import MemberOffsets.Proofs.Basic
import MemberOffsets.Sizing.Width

set_option autoImplicit false

namespace MemberOffsets

open Text

def lastWidth? (entries : List (Text × Nat)) (name : Text) : Option Nat :=
  (entries.filter fun e => canonicalName e.1 == canonicalName name).getLast?.map Prod.snd

theorem lastWidth?_append (es fs : List (Text × Nat)) (name : Text) :
    lastWidth? (es ++ fs) name = (lastWidth? fs name).or (lastWidth? es name) := by
  simp [lastWidth?, Option.map_or]

def canonicalEntry (e : Text × Nat) : Text × Nat := (canonicalName e.1, e.2)

theorem map_fst_canonicalEntry (entries : List (Text × Nat)) :
    (entries.map canonicalEntry).map Prod.fst = entries.map fun e => canonicalName e.1 := by
  rw [List.map_map]
  rfl

theorem get?_insertAll_canonical (table : WidthTable) (entries : List (Text × Nat)) (name : Text) :
    WidthTable.get? (table.insertAll (entries.map canonicalEntry)) (canonicalName name) =
      (lastWidth? entries name).or (table.get? (canonicalName name)) := by
  rw [WidthTable.get?, Table.find?_insertAll, Option.map_or, ← List.getLast?_filter,
    List.filter_map, List.getLast?_map, Option.map_map]
  rfl

namespace Profile

inductive Change where
  | unicode (on : Bool)
  | width (name : Text) (width : Nat)
  | widths (entries : List (Text × Nat))
deriving DecidableEq, Repr

namespace Change

def apply (p : Profile) : Change → Profile
  | unicode on => p.withUnicode on
  | width name w => p.withWidth name w
  | widths entries => p.withWidths entries

def entries : Change → List (Text × Nat)
  | unicode _ => []
  | width name w => [(name, w)]
  | widths entries => entries

def mode? : Change → Option Bool
  | unicode on => some on
  | width _ _ | widths _ => none

end Change

def changed (p : Profile) (changes : List Change) : Profile := changes.foldl Change.apply p

theorem changed_cons (p : Profile) (c : Change) (changes : List Change) :
    p.changed (c :: changes) = (c.apply p).changed changes := rfl

def textWidth (unicode : Bool) : Nat := if unicode then 2 else 1

theorem withWidths_eq (p : Profile) (entries : List (Text × Nat)) :
    p.withWidths entries =
      { p with
        widths := p.widths.insertAll (entries.map canonicalEntry)
        overrides := p.overrides.insertAll (entries.map canonicalEntry) } := by
  induction entries generalizing p with
  | nil => rfl
  | cons e entries ih => exact ih (p.withWidth e.1 e.2)

theorem get?_insertAll_constant (table : WidthTable) (names : List Text) (width : Nat)
    (name : Text) :
    WidthTable.get? (table.insertAll (names.map (·, width))) name =
      if name ∈ names then some width else table.get? name := by
  induction names generalizing table with
  | nil => rfl
  | cons n names ih =>
    rw [List.map_cons, Table.insertAll_cons, ih, WidthTable.get?_insert]
    by_cases same : name = n <;> simp [same]

namespace Change

variable (c : Change) (p : Profile) (name : Text)

theorem override?_apply :
    (c.apply p).override? name = (lastWidth? c.entries name).or (p.override? name) := by
  cases c with
  | unicode on => rfl
  | width n w => exact get?_insertAll_canonical p.overrides [(n, w)] name
  | widths entries =>
    rw [apply, withWidths_eq]
    exact get?_insertAll_canonical p.overrides entries name

theorem widthOf?_apply :
    (c.apply p).widthOf? name =
      (lastWidth? c.entries name).or
        (if canonicalName name ∈ textAliases then (c.mode?.map textWidth).or (p.widthOf? name)
          else p.widthOf? name) := by
  have unchanged : (if canonicalName name ∈ textAliases then p.widthOf? name else p.widthOf? name) =
      p.widthOf? name := ite_self _
  cases c with
  | unicode on =>
    exact get?_insertAll_constant p.widths textAliases (textWidth on) (canonicalName name)
  | width n w =>
    simp only [mode?, Option.map_none, Option.none_or, unchanged]
    exact get?_insertAll_canonical p.widths [(n, w)] name
  | widths entries =>
    simp only [mode?, Option.map_none, Option.none_or, unchanged]
    rw [apply, withWidths_eq]
    exact get?_insertAll_canonical p.widths entries name

end Change

section

variable (p : Profile) (changes : List Change) (name : Text)

theorem pointer_changed : (p.changed changes).pointer = p.pointer := by
  induction changes generalizing p with
  | nil => rfl
  | cons c changes ih =>
    rw [changed_cons, ih]
    cases c with
    | unicode | width => rfl
    | widths entries => rw [Change.apply, withWidths_eq]

theorem override?_changed :
    (p.changed changes).override? name =
      (lastWidth? (changes.flatMap Change.entries) name).or (p.override? name) := by
  induction changes generalizing p with
  | nil => rfl
  | cons c changes ih =>
    rw [changed_cons, ih, c.override?_apply, List.flatMap_cons, lastWidth?_append, Option.or_assoc]

theorem widthOf?_changed (unset : lastWidth? (changes.flatMap Change.entries) name = none) :
    (p.changed changes).widthOf? name =
      if canonicalName name ∈ textAliases then
        ((changes.filterMap Change.mode?).getLast?.map textWidth).or (p.widthOf? name)
      else p.widthOf? name := by
  induction changes generalizing p with
  | nil => simp [changed]
  | cons c changes ih =>
    rw [List.flatMap_cons, lastWidth?_append, Option.or_eq_none_iff] at unset
    rw [changed_cons, ih _ unset.1, c.widthOf?_apply, unset.2, Option.none_or]
    split
    · cases mode : c.mode? with
      | none => simp [mode]
      | some on =>
        rw [List.filterMap_cons_some mode, List.getLast?_cons]
        cases (changes.filterMap Change.mode?).getLast? <;> simp
    · rfl

end

theorem keys_insertAll_congr {t u : WidthTable} (same : t.keys = u.keys)
    (entries : List (Text × Nat)) : (t.insertAll entries).keys = (u.insertAll entries).keys := by
  rw [Table.keys_insertAll, Table.keys_insertAll, same]

theorem keys_apply (c : Change) {p : Profile} (aliases : textAliases ⊆ p.widths.keys) :
    (c.apply p).widths.keys = (p.widths.insertAll (c.entries.map canonicalEntry)).keys := by
  cases c with
  | unicode on =>
    have listed : (textAliases.map (·, textWidth on)).map Prod.fst = textAliases := by
      simp [Function.comp_def]
    have known : textAliases.filter (· ∉ p.widths.keys) = [] := by
      rw [List.filter_eq_nil_iff]
      simpa using fun name member => aliases member
    have added := Table.keys_insertAll (t := p.widths) (textAliases.map (·, textWidth on))
    rwa [listed, known, List.eraseDups_nil, List.append_nil] at added
  | width n w => rfl
  | widths entries => rw [Change.apply, withWidths_eq]; rfl

theorem keys_changed {p : Profile} (changes : List Change)
    (aliases : textAliases ⊆ p.widths.keys) :
    (p.changed changes).widths.keys =
      (p.widths.insertAll ((changes.flatMap Change.entries).map canonicalEntry)).keys := by
  induction changes generalizing p with
  | nil => rfl
  | cons c changes ih =>
    have first := keys_apply c aliases
    have kept : p.widths.keys ⊆ (c.apply p).widths.keys := by
      rw [first, Table.keys_insertAll]
      exact List.subset_append_left _ _
    rw [changed_cons, ih (List.Subset.trans aliases kept), keys_insertAll_congr first,
      List.flatMap_cons, List.map_append, Table.insertAll, Table.insertAll, Table.insertAll,
      List.foldl_append]

theorem mem_builtIn_of_textAlias (pointer : PointerWidth) {name : Text}
    (text : name ∈ textAliases) : (name, textWidth true) ∈ (BuiltIn.table pointer).items := by
  have rows : ∀ row ∈ ["TCHAR", "TBYTE"], (row, 2, 2) ∈ BuiltIn.windowsTypes := by decide +kernel
  obtain ⟨row, listed, rfl⟩ : ∃ row ∈ ["TCHAR", "TBYTE"], row.toList = name := List.mem_map.mp text
  have among := List.mem_append_left BuiltIn.cTypes (rows row listed)
  exact List.mem_map.mpr ⟨_, among, by cases pointer <;> rfl⟩

theorem textAliases_subset_builtIn (pointer : PointerWidth) :
    textAliases ⊆ (new pointer).widths.keys := fun _ text =>
  List.mem_map.mpr ⟨_, mem_builtIn_of_textAlias pointer text, rfl⟩

theorem textWidth_builtIn (pointer : PointerWidth) {name : Text} (text : name ∈ textAliases) :
    (BuiltIn.table pointer).get? name = some (textWidth true) :=
  congrArg (Option.map Prod.snd) (Table.find?_of_mem (mem_builtIn_of_textAlias pointer text))

theorem grown_changed {p : Profile} (changes : List Change)
    (aliases : textAliases ⊆ p.widths.keys) :
    let names := (changes.flatMap Change.entries).map fun e => canonicalName e.1
    let fresh := (names.filter (· ∉ p.widths.keys)).eraseDups
    (p.changed changes).widths.keys = p.widths.keys ++ fresh ∧
      (p.changed changes).widths.size = p.widths.size + fresh.length := by
  intro names fresh
  have keys := keys_changed changes aliases
  rw [Table.keys_insertAll, map_fst_canonicalEntry] at keys
  have length (t : WidthTable) : t.keys.length = t.size := List.length_map _
  have sizes := congrArg List.length keys
  rw [List.length_append, length, length] at sizes
  exact ⟨keys, sizes⟩

theorem textAliases_subset_changed (pointer : PointerWidth) (changes : List Change) :
    textAliases ⊆ ((new pointer).changed changes).widths.keys := by
  have listed := textAliases_subset_builtIn pointer
  rw [keys_changed changes listed, Table.keys_insertAll]
  exact List.Subset.trans listed (List.subset_append_left _ _)

def widthAfter? (pointer : PointerWidth) (changes : List Change) (name : Text) : Option Nat :=
  (lastWidth? (changes.flatMap Change.entries) name).or <|
    if isPointerAlias name then some pointer.bytes
    else if textAliases.contains (canonicalName name) then
      some (textWidth ((changes.filterMap Change.mode?).getLast?.getD true))
    else (BuiltIn.table pointer).get? (canonicalName name)

theorem sizing?_changed (pointer : PointerWidth) (changes : List Change) {name : Text}
    (starless : name.getLast? ≠ some '*') :
    (((new pointer).changed changes).sizing? name).map Sizing.width =
      widthAfter? pointer changes name := by
  have unset : (new pointer).override? name = none := rfl
  have builtIn : (new pointer).widthOf? name =
      (BuiltIn.table pointer).get? (canonicalName name) := rfl
  have pointed : ((new pointer).changed changes).pointerBytes = pointer.bytes := by
    rw [pointerBytes, pointer_changed, new]
  rw [sizing?, if_neg starless, override?_changed, unset, Option.or_none, widthAfter?]
  cases given : lastWidth? (changes.flatMap Change.entries) name with
  | some width => rfl
  | none =>
    by_cases convention : isPointerAlias name = true
    · simp [convention, pointed]
    · simp only [convention, if_false, Bool.false_eq_true]
      rw [widthOf?_changed _ _ _ given, builtIn]
      simp only [List.contains_iff_mem]
      split
      · rename_i text
        rw [textWidth_builtIn pointer text]
        cases (changes.filterMap Change.mode?).getLast? <;> rfl
      · cases (BuiltIn.table pointer).get? (canonicalName name) <;> rfl

section

variable {σ : Type} {p : Profile} {type : Text}

theorem width_of_sizing? {width : Nat} (named : bareType type ≠ [])
    (sized : (p.sizing? (bareType type)).map Sizing.width = some width) (responder : Responder σ)
    (s : σ) : p.width responder type s = (.ok width, s) := by
  obtain ⟨found, known, rfl⟩ := Option.map_eq_some_iff.mp sized
  have done : p.sizing type = .done (.ok found) := by simp [sizing, named, known]
  rw [Profile.width, done]
  rfl

theorem sizing_of_unknown (named : bareType type ≠ [])
    (unknown : p.sizing? (bareType type) = none) : p.sizing type = p.askWidth (bareType type) := by
  simp [sizing, named, unknown]

end

theorem knows_eq_false {p : Profile} {name : Text} (starless : name.getLast? ≠ some '*')
    (unknown : p.sizing? name = none) : p.knows name = false := by
  rw [sizing?, if_neg starless] at unknown
  cases given : p.override? name with
  | some width => simp [given] at unknown
  | none =>
    simp only [given] at unknown
    split at unknown
    · contradiction
    · rw [knows, Option.map_eq_none_iff.mp unknown]
      rfl

/-- A name has the last width that was given to it explicitly, whatever changes of the mode there
were. Without one, names of the pointer convention are pointers, text aliases follow the last mode,
and the others have their built-in width or are unknown. Further changes keep all names of the table
where they are and append the new names of their entries, each once. -/
theorem width_changed (pointer : PointerWidth) (changes : List Change) :
    let p := (new pointer).changed changes
    (∀ type, bareType type ≠ [] → (bareType type).getLast? ≠ some '*' →
      (∀ width, widthAfter? pointer changes (bareType type) = some width →
        ∀ {σ : Type} (responder : Responder σ) (s : σ),
          p.width responder type s = (.ok width, s)) ∧
      (widthAfter? pointer changes (bareType type) = none →
        p.knows (bareType type) = false ∧ p.sizing type = p.askWidth (bareType type))) ∧
    ∀ later : List Change,
      let names := (later.flatMap Change.entries).map fun e => canonicalName e.1
      let fresh := (names.filter (· ∉ p.widths.keys)).eraseDups
      (p.changed later).widths.keys = p.widths.keys ++ fresh ∧
        (p.changed later).widths.size = p.widths.size + fresh.length := by
  intro p
  constructor
  · intro type named starless
    have sized := sizing?_changed pointer changes starless
    constructor
    · intro width after σ responder s
      exact width_of_sizing? named (sized.trans after) responder s
    · intro after
      have unknown : p.sizing? (bareType type) = none :=
        Option.map_eq_none_iff.mp (sized.trans after)
      exact ⟨knows_eq_false starless unknown, sizing_of_unknown named unknown⟩
  · intro later
    exact grown_changed later (textAliases_subset_changed pointer changes)

-- Explicit widths under two spellings of one name, with changes of the mode before, between and
-- after; and a change that brings no new name.
theorem width_changed_respelled :
    let changes : List Change := [.unicode true, .widths [("list  Entry".toList, 8)],
      .unicode false, .width "List\tentry".toList 12, .unicode false]
    let later : List Change := [.width "large_integer".toList 16]
    let p := (new .bits32).changed changes
    let responder := Responder.ofFunctions (fun _ => .notFound) (fun _ _ => none) (fun _ => false)
    let type := "const list entry".toList
    (bareType type ≠ [] ∧ (bareType type).getLast? ≠ some '*' ∧
        widthAfter? .bits32 changes (bareType type) = some 12 ∧
        p.width responder type () = (.ok 12, ())) ∧
      p.width responder "LPFOO".toList () = (.ok 4, ()) ∧
      p.width responder "TByte".toList () = (.ok 1, ()) ∧
      p.width responder "char".toList () = (.ok 1, ()) ∧
      (p.changed later).widths.size = p.widths.size := by
  intro changes later p responder type
  obtain ⟨sized, grown⟩ := width_changed .bits32 changes
  have named : bareType type ≠ [] := by decide +kernel
  have starless : (bareType type).getLast? ≠ some '*' := by decide +kernel
  have after : widthAfter? .bits32 changes (bareType type) = some 12 := by decide +kernel
  have entry := (sized type named starless).1 12 after responder ()
  have pointer := (sized "LPFOO".toList (by decide +kernel) (by decide +kernel)).1 4
    (by decide +kernel) responder ()
  have text := (sized "TByte".toList (by decide +kernel) (by decide +kernel)).1 1
    (by decide +kernel) responder ()
  have builtIn := (sized "char".toList (by decide +kernel) (by decide +kernel)).1 1
    (by decide +kernel) responder ()
  have fresh : ((later.flatMap Change.entries).map fun e => canonicalName e.1).filter
      (· ∉ p.widths.keys) = [] := by decide +kernel
  have size := (grown later).2
  rw [fresh, List.eraseDups_nil, List.length_nil, Nat.add_zero] at size
  exact ⟨⟨named, starless, after, entry⟩, pointer, text, builtIn, size⟩

end Profile

end MemberOffsets
