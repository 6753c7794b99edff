import MemberOffsets.Text.Basic

set_option autoImplicit false

namespace MemberOffsets

def powerOfTen (n : Nat) : Nat := Nat.pow 10 n

def roundHalfEven (num den : Nat) : Nat :=
  let q := num / den
  let r := num % den
  if 2 * r < den then q else if den < 2 * r then q + 1 else q + q % 2

/-- A number that is not negative and not infinite. -/
structure Binary64 where
  mantissa : Nat
  exponent : Int
deriving DecidableEq, Repr

namespace Binary64

def mantissaBits : Nat := 53

def mantissaLimit : Nat := 1 <<< mantissaBits

def minExponent : Int := -1074

def maxExponent : Int := 971

def zero : Binary64 := ⟨0, minExponent⟩

def ratio (x : Binary64) : Nat × Nat := (x.mantissa <<< x.exponent.toNat, 1 <<< (-x.exponent).toNat)

def ofRatio? (num den : Nat) : Option Binary64 :=
  if num = 0 then some zero
  else
    let low : Int := (num.log2 : Int) - den.log2 - mantissaBits
    let fits (e : Int) : Bool := num <<< (-e).toNat < mantissaLimit * (den <<< e.toNat)
    let e := max (if fits low then low else low + 1) minExponent
    let m := roundHalfEven (num <<< (-e).toNat) (den <<< e.toNat)
    let x : Binary64 := if m = mantissaLimit then ⟨m / 2, e + 1⟩ else ⟨m, e⟩
    if x.exponent ≤ maxExponent then some x else none

def ofNat? (n : Nat) : Option Binary64 := ofRatio? n 1

def mul? (x y : Binary64) : Option Binary64 :=
  let (a, b) := x.ratio
  let (c, d) := y.ratio
  ofRatio? (a * c) (b * d)

def div? (x y : Binary64) : Option Binary64 :=
  let (a, b) := x.ratio
  let (c, d) := y.ratio
  ofRatio? (a * d) (b * c)

def add? (x y : Binary64) : Option Binary64 :=
  let (a, b) := x.ratio
  let (c, d) := y.ratio
  ofRatio? (a * d + c * b) (b * d)

structure Decimal where
  digits : Nat
  exponent : Int
deriving DecidableEq, Repr

def Decimal.ratio (d : Decimal) : Nat × Nat :=
  (d.digits * powerOfTen d.exponent.toNat, powerOfTen (-d.exponent).toNat)

/-- Quarters of the last place: the bounds of what rounds to the number, which count if the mantissa
is even. -/
def bounds (x : Binary64) : Nat × Nat :=
  let below := if 2 * x.mantissa = mantissaLimit ∧ minExponent < x.exponent then 1 else 2
  (4 * x.mantissa - below, 4 * x.mantissa + 2)

def readsBack (x : Binary64) (d : Decimal) : Bool :=
  let (num, den) := d.ratio
  let (low, high) := x.bounds
  let e := x.exponent - 2
  let value := num <<< (-e).toNat
  let unit := den <<< e.toNat
  if x.mantissa % 2 = 0 then low * unit ≤ value && value ≤ high * unit
  else low * unit < value && value < high * unit

/-- The exponent of the first decimal digit. No fraction is below `10 ^ (-324)`. -/
def decade (x : Binary64) : Int :=
  let (num, den) := x.ratio
  if den ≤ num then ((Text.decimal (num / den)).length : Int) - 1
  else -(((List.range 325).find? fun j => decide (den ≤ num * powerOfTen j)).getD 325 : Nat)

def withDigits? (x : Binary64) (n : Nat) : Option Decimal :=
  let (num, den) := x.ratio
  let k := x.decade + 1 - n
  let value := num * powerOfTen (-k).toNat
  let unit := den * powerOfTen k.toNat
  let below : Decimal := ⟨value / unit, k⟩
  let above : Decimal := ⟨value / unit + 1, k⟩
  let nearerBelow := roundHalfEven value unit = value / unit
  ((if nearerBelow then [below, above] else [above, below]).find? x.readsBack)

/-- Seventeen digits always read back. -/
def shortest (x : Binary64) : Decimal :=
  ((List.range 17).findSome? fun i => x.withDigits? (i + 1)).getD ⟨0, 0⟩

def signed (n : Int) : Text :=
  if n < 0 then '-' :: Text.decimal n.natAbs else Text.decimal n.natAbs

/-- Positional for exponents of ten from -5 to 15, always with a point; scientific else. -/
def text (x : Binary64) : Text :=
  if x.mantissa = 0 then "0.0".toList
  else
    let d := x.shortest
    let digits := ((Text.decimal d.digits).reverse.dropWhile (· == '0')).reverse
    let point := x.shortest.exponent + (Text.decimal d.digits).length
    if digits.length ≤ point ∧ point ≤ 16 then
      digits ++ List.replicate (point.toNat - digits.length) '0' ++ ".0".toList
    else if 0 < point ∧ point ≤ 16 then digits.take point.toNat ++ '.' :: digits.drop point.toNat
    else if -5 < point ∧ point ≤ 0 then "0.".toList ++ List.replicate (-point).toNat '0' ++ digits
    else
      let fraction := if digits.length = 1 then [] else '.' :: digits.drop 1
      digits.take 1 ++ fraction ++ 'e' :: signed (point - 1)

end Binary64

open Text

structure TimeSpan where
  seconds : Nat
  nanos : Nat
deriving DecidableEq, Repr

namespace TimeSpan

def million : Nat := 1000000

def billion : Nat := 1000000000

def ofParts (seconds nanos : Nat) : TimeSpan := ⟨seconds + nanos / billion, nanos % billion⟩

/-- The span in seconds as the sum of two binary fractions, each the nearest one. -/
def asBinary (t : TimeSpan) : Binary64 :=
  let whole := (Binary64.ofNat? t.seconds).getD .zero
  let part := (Binary64.ofRatio? t.nanos billion).getD .zero
  (whole.add? part).getD .zero

def twoDecimals (x : Binary64) : Text :=
  let (num, den) := x.ratio
  let hundredths := roundHalfEven (100 * num) den
  decimal (hundredths / 100) ++ '.' :: padded 2 (decimal (hundredths % 100))

def text (t : TimeSpan) : Text :=
  if t.seconds = 0 ∧ t.nanos < million then decimal (t.nanos / 1000) ++ "µs".toList
  else if t.seconds = 0 then decimal (t.nanos / million) ++ "ms".toList
  else twoDecimals t.asBinary ++ ['s']

end TimeSpan

end MemberOffsets
