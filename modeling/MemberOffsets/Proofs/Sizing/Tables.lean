import Mathlib.Data.List.Induction
import MemberOffsets.Proofs.Sizing.Overrides

set_option autoImplicit false

namespace MemberOffsets

open Text

theorem WidthTable.mem_items_iff {t : WidthTable} {name : Text} {width : Nat} :
    (name, width) ∈ t.items ↔ t.get? name = some width := by
  rw [WidthTable.get?, Option.map_eq_some_iff]
  constructor
  · intro listed
    exact ⟨(name, width), Table.find?_of_mem listed, rfl⟩
  · rintro ⟨row, found, rfl⟩
    obtain ⟨listed, rfl⟩ := Table.find?_eq_some.mp found
    exact listed

namespace Profile

def modeBehind? (changes : List Change) (name : Text) : Option Bool :=
  (changes.reverse.takeWhile fun c => (lastWidth? c.entries name).isNone).findSome? Change.mode?

theorem modeBehind?_concat (changes : List Change) (c : Change) (name : Text) :
    modeBehind? (changes ++ [c]) name =
      if (lastWidth? c.entries name).isNone then c.mode?.or (modeBehind? changes name)
      else none := by
  rw [modeBehind?, List.reverse_append, List.reverse_singleton, List.singleton_append,
    List.takeWhile_cons]
  split
  · rw [List.findSome?_cons, modeBehind?]
    cases c.mode? <;> rfl
  · rfl

def tabledWidth (changes : List Change) (name : Text) (width : Nat) : Nat :=
  if textAliases.contains (canonicalName name) then
    ((modeBehind? changes name).map textWidth).getD width
  else width

theorem tabledWidth_eq (changes : List Change) (name : Text) (width : Nat) :
    tabledWidth changes name width =
      if canonicalName name ∈ textAliases then
        ((modeBehind? changes name).map textWidth).getD width
      else width := by
  simp only [tabledWidth, List.contains_iff_mem]

theorem changed_concat (p : Profile) (changes : List Change) (c : Change) :
    p.changed (changes ++ [c]) = c.apply (p.changed changes) := List.foldl_concat ..

theorem widthOf?_of_override? (pointer : PointerWidth) (changes : List Change) {name : Text}
    {width : Nat} (given : ((new pointer).changed changes).override? name = some width) :
    ((new pointer).changed changes).widthOf? name = some (tabledWidth changes name width) := by
  induction changes using List.reverseRecOn with
  | nil => contradiction
  | append_singleton changes c ih =>
    rw [changed_concat, c.override?_apply] at given
    rw [changed_concat, c.widthOf?_apply, tabledWidth_eq, modeBehind?_concat]
    cases last : lastWidth? c.entries name with
    | some given' =>
      rw [last, Option.some_or, Option.some.injEq] at given
      simp [given]
    | none =>
      rw [last, Option.none_or] at given
      rw [ih given, tabledWidth_eq, Option.none_or, Option.isNone_none, if_pos rfl]
      split
      · cases c.mode? <;> simp
      · rfl

theorem tabledWidth_eq_iff {changes : List Change} {name : Text} {width : Nat} :
    tabledWidth changes name width = width ↔
      (canonicalName name ∈ textAliases →
        ∀ on, modeBehind? changes name = some on → textWidth on = width) := by
  rw [tabledWidth_eq]
  split
  · rename_i text
    cases modeBehind? changes name <;> simp [text]
  · simp_all

end Profile

theorem Config.widthOf?_of_override? {c : Config} {name : Text} {width : Nat}
    (given : c.profile.override? name = some width) : c.profile.widthOf? name = some width := by
  let changes : List Profile.Change := [.unicode c.unicode, .widths c.orderedOverrides]
  have built : c.profile = (Profile.new c.pointer).changed changes := rfl
  have last : (lastWidth? c.orderedOverrides name).isNone = false := by
    rw [c.override?_profile] at given
    rw [given, Option.isNone_some]
  -- All widths of a configuration are given behind its mode.
  have behind : Profile.modeBehind? changes name = none := by
    rw [show changes = [.unicode c.unicode] ++ [.widths c.orderedOverrides] from rfl,
      Profile.modeBehind?_concat, Profile.Change.entries, last]
    rfl
  rw [built] at given ⊢
  rw [Profile.widthOf?_of_override? c.pointer changes given,
    Profile.tabledWidth_eq_iff.mpr fun _ on mode => by rw [behind] at mode; contradiction]

/-- A name that was given a width is in the table of all names, with one row. The row has that width
unless the name is a text alias and a change of the mode behind it has set another one. In the
profile of a configuration it always has it. -/
theorem tables_agree_iff (pointer : PointerWidth) (changes : List Profile.Change) :
    (let p := (Profile.new pointer).changed changes
      ∀ name width, p.override? name = some width →
        p.knows name = true ∧
        (∀ listed, (canonicalName name, listed) ∈ p.widths.items ↔
          listed = Profile.tabledWidth changes name width) ∧
        ((p.widthOf? name = some width ∧
            ∀ listed, (canonicalName name, listed) ∈ p.widths.items ↔ listed = width) ↔
          (canonicalName name ∈ Profile.textAliases → ∀ on,
            Profile.modeBehind? changes name = some on → Profile.textWidth on = width))) ∧
    ∀ c : Config, ∀ name width, c.profile.override? name = some width →
      c.profile.widthOf? name = some width := by
  refine ⟨?_, fun c name width => Config.widthOf?_of_override?⟩
  intro p name width given
  have tabled := Profile.widthOf?_of_override? pointer changes given
  have rows (listed : Nat) : (canonicalName name, listed) ∈ p.widths.items ↔
      listed = Profile.tabledWidth changes name width := by
    rw [WidthTable.mem_items_iff, show p.widths.get? (canonicalName name) = _ from tabled,
      Option.some.injEq, eq_comm]
  refine ⟨by rw [Profile.knows, tabled, Option.isSome_some], rows, ?_⟩
  rw [← Profile.tabledWidth_eq_iff, tabled, Option.some.injEq]
  constructor
  · exact fun agree => agree.1
  · intro same
    simp only [rows, same, implies_true, and_self]

-- One alias is set again to the width that it was given, the other one to another width.
theorem tables_agree_iff_respelled :
    let changes : List Profile.Change := [.widths [("tchar".toList, 9), ("tByte".toList, 2)],
      .unicode true, .width " TCHAR\t".toList 1, .unicode false]
    let p := (Profile.new .bits32).changed changes
    (p.override? "tchar".toList = some 1 ∧ p.widthOf? "tchar".toList = some 1) ∧
      p.override? "TBYTE".toList = some 2 ∧ p.knows "TBYTE".toList = true ∧
        ("TBYTE".toList, 1) ∈ p.widths.items := by
  intro changes p
  obtain ⟨agree, -⟩ := tables_agree_iff .bits32 changes
  have first : p.override? "tchar".toList = some 1 := by decide +kernel
  have second : p.override? "TBYTE".toList = some 2 := by decide +kernel
  obtain ⟨-, -, same⟩ := agree _ _ first
  obtain ⟨known, rows, -⟩ := agree _ _ second
  have behind : Profile.modeBehind? changes "tchar".toList = some false := by decide +kernel
  have row : ("TBYTE".toList, 1) ∈ p.widths.items := (rows 1).mpr (by decide +kernel)
  refine ⟨⟨first, (same.mpr fun _ on mode => ?_).1⟩, second, known, row⟩
  rw [behind, Option.some.injEq] at mode
  subst mode
  rfl

-- The caller has set the alias to four bytes, and the table lists it with two.
theorem tables_disagree :
    let p := (Profile.new .bits64).changed [.width "TCHAR".toList 4, .unicode true]
    p.override? "TCHAR".toList = some 4 ∧ p.widthOf? "TCHAR".toList = some 2 ∧
      ("TCHAR".toList, 2) ∈ p.widths.items ∧ ("TCHAR".toList, 4) ∉ p.widths.items := by
  intro p
  have listed : p.widthOf? "TCHAR".toList = some 2 := by decide +kernel
  have row := WidthTable.mem_items_iff.mpr listed
  refine ⟨by decide +kernel, listed, row, fun other => ?_⟩
  rw [WidthTable.mem_items_iff, show p.widths.get? "TCHAR".toList = some 2 from listed] at other
  exact absurd (Option.some.inj other) (by decide)

end MemberOffsets
