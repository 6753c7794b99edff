import MemberOffsets.Proofs.Basic
import MemberOffsets.Proofs.Json.Decoding
import MemberOffsets.Symbol.Json

set_option autoImplicit false

namespace MemberOffsets

open Text

def MemberLayout.InWords (m : MemberLayout) : Prop := m.offset ≤ wordMax ∧ m.size ≤ wordMax

def TypeLayout.InWords (l : TypeLayout) : Prop := l.size ≤ wordMax ∧ ∀ m ∈ l.members, m.InWords

instance (m : MemberLayout) : Decidable m.InWords := inferInstanceAs (Decidable (_ ∧ _))

instance (l : TypeLayout) : Decidable l.InWords := inferInstanceAs (Decidable (_ ∧ _))

theorem Kind.decode_toJson (k : Kind) : Kind.decode k.toJson.document = .ok k := by
  simp only [toJson, Json.document, decode, JsonDoc.keyText_of]
  cases k <;> rfl

open JsonDoc in
theorem MemberLayout.decode_toJson {m : MemberLayout} (fits : m.InWords) :
    decode m.toJson.document = .ok m := by
  obtain ⟨name, offset, size, type⟩ := m
  obtain ⟨offsetFits, sizeFits⟩ := fits
  have named : Draft.step ⟨none, none, none, none⟩ "name".toList (Json.string name).document =
      .ok ⟨some name, none, none, none⟩ := by
    rw [Draft.step, if_pos rfl, asString_document]
    rfl
  have placed : Draft.step ⟨some name, none, none, none⟩ "offset".toList
      (Json.number offset).document = .ok ⟨some name, some offset, none, none⟩ := by
    rw [Draft.step, if_neg (by decide), if_pos rfl, asWord_document offsetFits]
    rfl
  have sized : Draft.step ⟨some name, some offset, none, none⟩ "size".toList
      (Json.number size).document = .ok ⟨some name, some offset, some size, none⟩ := by
    rw [Draft.step, if_neg (by decide), if_neg (by decide), if_pos rfl, asWord_document sizeFits]
    rfl
  rw [decode, toJson]
  refine shape.decode_document ⟨some name, some offset, some size, type.map some⟩ ?_ ?_
  · refine (foldlM_cons_ok _ named).trans ((foldlM_cons_ok _ placed).trans ?_)
    refine (foldlM_cons_ok _ sized).trans ?_
    cases type with
    | none => rfl
    | some type =>
      refine foldlM_cons_ok [] ?_
      change Draft.step _ "type_name".toList (Json.string type).document = _
      rw [Draft.step, if_neg (by decide), if_neg (by decide), if_neg (by decide), if_pos rfl]
      rw [asOption, asString_document]
      · rfl
      · rintro ⟨⟩
  · cases type <;> rfl

open JsonDoc in
theorem TypeLayout.decode_toJson {l : TypeLayout} (fits : l.InWords) :
    decode l.toJson.document = .ok l := by
  obtain ⟨name, kind, size, members⟩ := l
  obtain ⟨sizeFits, membersFit⟩ := fits
  have read : asList MemberLayout.decode (Json.array (members.map MemberLayout.toJson)).document =
      .ok members :=
    asList_document fun m member => MemberLayout.decode_toJson (membersFit m member)
  have named : Draft.step ⟨none, none, none, none⟩ "name".toList (Json.string name).document =
      .ok ⟨some name, none, none, none⟩ := by
    rw [Draft.step, if_pos rfl, asString_document]
    rfl
  have kinded : Draft.step ⟨some name, none, none, none⟩ "kind".toList kind.toJson.document =
      .ok ⟨some name, some kind, none, none⟩ := by
    rw [Draft.step, if_neg (by decide), if_pos rfl, Kind.decode_toJson]
    rfl
  have sized : Draft.step ⟨some name, some kind, none, none⟩ "size".toList
      (Json.number size).document = .ok ⟨some name, some kind, some size, none⟩ := by
    rw [Draft.step, if_neg (by decide), if_neg (by decide), if_pos rfl, asWord_document sizeFits]
    rfl
  have filled : Draft.step ⟨some name, some kind, some size, none⟩ "members".toList
      (Json.array (members.map MemberLayout.toJson)).document =
        .ok ⟨some name, some kind, some size, some members⟩ := by
    rw [Draft.step, if_neg (by decide), if_neg (by decide), if_neg (by decide), if_pos rfl, read]
    rfl
  rw [decode, toJson]
  refine shape.decode_document ⟨some name, some kind, some size, some members⟩ ?_ rfl
  refine (foldlM_cons_ok _ named).trans ((foldlM_cons_ok _ kinded).trans ?_)
  exact (foldlM_cons_ok _ sized).trans (foldlM_cons_ok _ filled)

theorem decodeText_layouts {layouts : List TypeLayout} (fits : ∀ l ∈ layouts, l.InWords) :
    JsonDoc.decodeText (JsonDoc.asList TypeLayout.decode)
      (Json.array (layouts.map TypeLayout.toJson)).pretty = .ok layouts := by
  rw [JsonDoc.decodeText_pretty]
  exact JsonDoc.asList_document fun l member => TypeLayout.decode_toJson (fits l member)

theorem SymbolIndex.ofJson_eq {text : Text} {layouts : List TypeLayout}
    (read : JsonDoc.decodeText (JsonDoc.asList TypeLayout.decode) text = .ok layouts) :
    ofJson text = .ok (Table.ofList layouts) := by
  rw [ofJson, read]
  rfl

/-- A written index is read back as it was. A list that can be read has each of its names in the
index where it comes first, with the layout that comes last of that name. -/
theorem index_json :
    (∀ index : SymbolIndex, (∀ l ∈ index.items, l.InWords) →
      SymbolIndex.ofJson index.json = .ok index) ∧
    ∀ text layouts, JsonDoc.decodeText (JsonDoc.asList TypeLayout.decode) text = .ok layouts →
      ∃ index, SymbolIndex.ofJson text = .ok index ∧
        index.keys = (layouts.map TypeLayout.name).eraseDups ∧
        ∀ name, index.find? name = (layouts.filter (·.name == name)).getLast? := by
  constructor
  · intro index fits
    have read := SymbolIndex.ofJson_eq (decodeText_layouts fits)
    rwa [index.ofList_items] at read
  · exact fun text layouts read => ⟨_, SymbolIndex.ofJson_eq read, Table.ofList_eq layouts⟩

-- Control characters, the largest word, a member without a type; and a list that leaves out what it
-- may, has a field of its own, and names one layout twice.
theorem index_json_control :
    let member : MemberLayout := ⟨"\x1fé".toList, wordMax, 0, none⟩
    let layout : TypeLayout :=
      ⟨"_\"\\\n\x01".toList, .union, wordMax, [member, ⟨[], 8, 4, some "\t".toList⟩]⟩
    let index : SymbolIndex := Table.ofList [layout, .ofStruct "B".toList 0]
    let text := "[\x7b\"name\": \"A\", \"size\": 4\x7d,
      \x7b\"size\": 8, \"name\": \"B\", \"id\": []\x7d,
      \x7b\"name\": \"A\", \"kind\": \"union\", \"size\": 16\x7d]".toList
    SymbolIndex.ofJson index.json = .ok index ∧
      ∃ other, SymbolIndex.ofJson text = .ok other ∧ other.keys = ["A".toList, "B".toList] ∧
        other.find? "A".toList = some (.ofUnion "A".toList 16) := by
  intro member layout index text
  obtain ⟨written, read⟩ := index_json
  have layouts : JsonDoc.decodeText (JsonDoc.asList TypeLayout.decode) text =
      .ok [.ofStruct "A".toList 4, .ofStruct "B".toList 8, .ofUnion "A".toList 16] :=
    ok_of_toOption (by decide +kernel)
  obtain ⟨other, found, keys, contents⟩ := read text _ layouts
  refine ⟨written index (by decide), other, found, keys, ?_⟩
  exact contents "A".toList

end MemberOffsets
