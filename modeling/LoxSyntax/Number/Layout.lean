import LoxSyntax.Number.Shortest

/-! # Number layouts

The same digits are written in three ways: in the listing of a token, in the text of a tree and in
JSON. Each way is one `NumberLayout`, and `NumberLayout.write` is their common rule. The choice of
the digits themselves is `Decimal.shortest`.
-/

namespace LoxSyntax

structure NumberLayout where
  /-- The exponents of the leading digit that are written positionally; `none` is all of them. -/
  positional : Option (Int × Int)
  /-- An integral number in positional form keeps `.0`. -/
  keepsFraction : Bool
  /-- A scientific exponent that is not negative carries a `+`. -/
  signsExponent : Bool
  tie : Tie
  /-- The text of the numbers that are not finite, given the sign; NaN has none. -/
  nan : String
  infinity : Bool → String

namespace NumberLayout

/-- A number in the listing of a token: positional from `1e-4` up to below `1e16`, `.0` kept. -/
def listing : NumberLayout where
  positional := some (-4, 15)
  keepsFraction := true
  signsExponent := false
  tie := .away
  nan := "NaN"
  infinity isNegative := if isNegative then "-inf" else "inf"

/-- A number in the text of a tree: always positional, an integral one without a point. -/
def tree : NumberLayout where
  positional := none
  keepsFraction := false
  signsExponent := false
  tie := .away
  nan := "NaN"
  infinity isNegative := if isNegative then "-inf" else "inf"

/-- A number in JSON: positional from `1e-5` up to below `1e16`, `.0` kept. JSON has no number
that is not finite, so `null` stands for those. -/
def json : NumberLayout where
  positional := some (-5, 15)
  keepsFraction := true
  signsExponent := true
  tie := .even
  nan := "null"
  infinity _ := "null"

/-- Digits with a point: zeros fill the places between the digits and the point. -/
def writePositional (layout : NumberLayout) (digits : List Char) (exponent : Int) : List Char :=
  if 0 ≤ exponent then
    digits ++ List.replicate exponent.toNat '0' ++ (if layout.keepsFraction then ['.', '0'] else [])
  else
    let places := (-exponent).toNat
    let padded := List.replicate (places + 1 - digits.length) '0' ++ digits
    padded.take (padded.length - places) ++ '.' :: padded.drop (padded.length - places)

/-- One digit before the point, none after it if there is no more, and the exponent of the first. -/
def writeScientific (layout : NumberLayout) (digits : List Char) (leading : Int) : List Char :=
  let mantissa := match digits with
    | first :: next :: more => first :: '.' :: next :: more
    | few => few
  let sign := if leading < 0 then ['-'] else if layout.signsExponent then ['+'] else []
  mantissa ++ 'e' :: sign ++ Nat.toDigits 10 leading.natAbs

def writeDecimal (layout : NumberLayout) (decimal : Decimal) : List Char :=
  let digits := Nat.toDigits 10 decimal.digits
  let leading := decimal.exponent + digits.length - 1
  let isPositional := match layout.positional with
    | none => true
    | some (least, greatest) => least ≤ leading && leading ≤ greatest
  if isPositional then layout.writePositional digits decimal.exponent
  else layout.writeScientific digits leading

/-- The text of a double: its sign, zeros included, before the shortest digits that read back. -/
def write (layout : NumberLayout) (x : Binary64) : String :=
  if x.isNaN then layout.nan
  else if !x.isFinite then layout.infinity x.isNegative
  else
    let decimal := if x.magnitude = 0 then ⟨0, 0⟩ else Decimal.shortest layout.tie x.abs
    String.ofList ((if x.isNegative then ['-'] else []) ++ layout.writeDecimal decimal)

end NumberLayout
end LoxSyntax
