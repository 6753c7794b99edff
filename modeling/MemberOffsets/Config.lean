import MemberOffsets.Abi.Profile
import MemberOffsets.Json.Decoding
import MemberOffsets.Json.Value

set_option autoImplicit false

namespace MemberOffsets

open Text

structure Config where
  bits : Nat := 64
  baseOffset : Nat := 0
  unicode : Bool := true
  symbolDatabase : Option Text := none
  interactive : Bool := false
  widthOverrides : WidthTable := .empty
  quiet : Bool := false

inductive ConfigProblem where
  | bits (bits : Nat)
  | missingDatabase (path : Text)
  | unnamedOverride (name : Text)
deriving DecidableEq, Repr

def ConfigProblem.message : ConfigProblem → Text
  | .bits n => "bits must be 32 or 64, got ".toList ++ decimal n
  | .missingDatabase path => "Symbol database does not exist: ".toList ++ quoted path
  | .unnamedOverride name => "Width override with an empty type name: ".toList ++ quoted name

namespace Config

def withOverride (c : Config) (name : Text) (width : Nat) : Config :=
  { c with widthOverrides := c.widthOverrides.insert (name, width) }

def orderedOverrides (c : Config) : List (Text × Nat) :=
  c.widthOverrides.items.mergeSort fun a b => Text.notAfter a.1 b.1

def problem? (fileExists : Text → Bool) (c : Config) : Option ConfigProblem :=
  if (PointerWidth.ofBits? c.bits).isNone then some (.bits c.bits)
  else
    match c.symbolDatabase.filter (!fileExists ·) with
    | some path => some (.missingDatabase path)
    | none => ((c.orderedOverrides.map Prod.fst).find? allBlank).map .unnamedOverride

def pointer (c : Config) : PointerWidth := (PointerWidth.ofBits? c.bits).getD .bits64

def profile (c : Config) : Profile :=
  ((Profile.new c.pointer).withUnicode c.unicode).withWidths c.orderedOverrides

def toJson (c : Config) : Json :=
  .object [("bits".toList, .number c.bits), ("base_offset".toList, .number c.baseOffset),
    ("unicode".toList, .bool c.unicode), ("symbol_database".toList, .ofOption c.symbolDatabase),
    ("interactive".toList, .bool c.interactive),
    ("width_overrides".toList,
      .object (c.orderedOverrides.map fun (name, width) => (name, .number width))),
    ("quiet".toList, .bool c.quiet)]

def json (c : Config) : Text := c.toJson.pretty

structure Draft where
  bits : Option Nat := none
  baseOffset : Option Nat := none
  unicode : Option Bool := none
  symbolDatabase : Option (Option Text) := none
  interactive : Option Bool := none
  widthOverrides : Option WidthTable := none
  quiet : Option Bool := none

/-- Widths by name; of two with the same name the later one counts. -/
def decodeWidths : JsonDoc → Except JsonError WidthTable
  | .object entries ending => do
      let step (widths : WidthTable) (name : Text) (doc : JsonDoc) :
          Except JsonError WidthTable := do
        return widths.insert (name, ← doc.asWord)
      let widths ← JsonDoc.foldEntries step .empty entries
      JsonDoc.ended widths ending
  | doc => doc.refuse "a map".toList

open JsonDoc RecordShape in
def Draft.step (d : Draft) (key : Text) (doc : JsonDoc) : Except JsonError Draft :=
  if key = "bits".toList then return { d with bits := ← fill key d.bits (asHalfWord doc) }
  else if key = "base_offset".toList then
    return { d with baseOffset := ← fill key d.baseOffset (asWord doc) }
  else if key = "unicode".toList then return { d with unicode := ← fill key d.unicode (asBool doc) }
  else if key = "symbol_database".toList then
    let asPath := asOption (asText "path string".toList)
    return { d with symbolDatabase := ← fill key d.symbolDatabase (asPath doc) }
  else if key = "interactive".toList then
    return { d with interactive := ← fill key d.interactive (asBool doc) }
  else if key = "width_overrides".toList then
    return { d with widthOverrides := ← fill key d.widthOverrides (decodeWidths doc) }
  else if key = "quiet".toList then return { d with quiet := ← fill key d.quiet (asBool doc) }
  else do
    skip doc
    return d

def Draft.config (d : Draft) : Config :=
  let c : Config := {}
  { bits := d.bits.getD c.bits
    baseOffset := d.baseOffset.getD c.baseOffset
    unicode := d.unicode.getD c.unicode
    symbolDatabase := d.symbolDatabase.getD c.symbolDatabase
    interactive := d.interactive.getD c.interactive
    widthOverrides := d.widthOverrides.getD c.widthOverrides
    quiet := d.quiet.getD c.quiet }

def shape : JsonDoc.RecordShape Draft Config where
  label := "struct Config".toList
  fields := ["bits".toList, "base_offset".toList, "unicode".toList, "symbol_database".toList,
    "interactive".toList, "width_overrides".toList, "quiet".toList]
  start := {}
  step := Draft.step
  finish d := .ok d.config

def ofJson (text : Text) : Except JsonError Config := JsonDoc.decodeText shape.decode text

end Config

end MemberOffsets
