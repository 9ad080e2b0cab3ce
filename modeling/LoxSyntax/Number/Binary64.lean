/-! # Binary64 values

A number is the 64 bits of an IEEE double. This file reads the fields of such a word, gives the
exact magnitude `significand * 2 ^ exponent` of a finite one, and rounds an exact quotient of
naturals to the nearest double, a tie going to the even neighbour. Nothing here rests on machine
arithmetic: every result is a quotient or a power of naturals.
-/

namespace LoxSyntax

/-- A double, known by its bits alone, so that zeros of either sign and all NaNs are told apart. -/
structure Binary64 where
  bits : UInt64
deriving DecidableEq

namespace Binary64

/-- The sign bit, which zeros and NaNs carry too. -/
def isNegative (x : Binary64) : Bool := Nat.pow 2 63 ≤ x.bits.toNat

/-- The word without its sign bit. Doubles of one sign are ordered as these are. -/
def magnitude (x : Binary64) : Nat := x.bits.toNat % Nat.pow 2 63

/-- The magnitude of the infinities; everything above it is a NaN. -/
def infinite : Nat := 0x7FF0000000000000

def isNaN (x : Binary64) : Bool := infinite < x.magnitude

def isFinite (x : Binary64) : Bool := x.magnitude < infinite

/-- The stored exponent, 0 for zero and the subnormals. -/
def biasedExponent (x : Binary64) : Nat := x.magnitude / Nat.pow 2 52

/-- The integer significand of a finite double: the stored fraction, below a leading bit unless
the double is subnormal. -/
def significand (x : Binary64) : Nat :=
  if x.biasedExponent = 0 then x.magnitude % Nat.pow 2 52
  else Nat.pow 2 52 + x.magnitude % Nat.pow 2 52

/-- The power of two that the significand is counted in. -/
def exponent (x : Binary64) : Int := (max 1 x.biasedExponent : Nat) - 1075

def ofMagnitude (isNegative : Bool) (magnitude : Nat) : Binary64 :=
  ⟨UInt64.ofNat (if isNegative then Nat.pow 2 63 + magnitude else magnitude)⟩

def abs (x : Binary64) : Binary64 := ofMagnitude false x.magnitude

/-- The integer nearest to `num / den`, the even one of two that are equally near. -/
def roundHalfEven (num den : Nat) : Nat :=
  let below := num / den
  let twice := 2 * (num % den)
  if twice < den then below else if den < twice then below + 1 else below + below % 2

/-- The greatest `e` with `2 ^ e ≤ num / den`, for positive `num` and `den`. -/
def floorLog2 (num den : Nat) : Int :=
  let guess : Int := (num.log2 : Int) - den.log2
  let reaches := den * Nat.pow 2 guess.toNat ≤ num * Nat.pow 2 (-guess).toNat
  if reaches then guess else guess - 1

/-- The magnitude nearest to `num / den`. The quotient is counted in units of `2 ^ unit`, the unit
being chosen so that 53 bits remain, or fewer at the subnormal end. A count of `2 ^ 53` carries
into the exponent by the addition alone, and everything from the first unreachable magnitude on
is infinite. -/
def roundMagnitude (num den : Nat) : Nat :=
  if num = 0 then 0
  else
    let unit := max (floorLog2 num den - 52) (-1074)
    let count := roundHalfEven (num * Nat.pow 2 (-unit).toNat) (den * Nat.pow 2 unit.toNat)
    min infinite ((unit + 1074).toNat * Nat.pow 2 52 + count)

/-- The double nearest to `digits * 10 ^ exponent`, with the given sign. -/
def ofDecimal (isNegative : Bool) (digits : Nat) (exponent : Int) : Binary64 :=
  ofMagnitude isNegative
    (roundMagnitude (digits * Nat.pow 10 exponent.toNat) (Nat.pow 10 (-exponent).toNat))

end Binary64
end LoxSyntax
