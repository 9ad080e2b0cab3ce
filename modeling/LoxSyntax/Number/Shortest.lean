import LoxSyntax.Number.Binary64

/-! # Shortest decimals

Among all decimals that round to a finite double, this file picks one with the fewest digits, and
of those the nearest to the double. It walks the decimal grids `10 ^ g` from coarse to fine and
asks, on each, whether a neighbour of the double reads back as that double; the reading is
`Binary64.ofDecimal` itself. The layout of the digits is left to `LoxSyntax.Number.Layout`.
-/

namespace LoxSyntax

/-- The number `digits * 10 ^ exponent`. -/
structure Decimal where
  digits : Nat
  exponent : Int
deriving DecidableEq

/-- Which of two equally near neighbours on a decimal grid is taken. -/
inductive Tie where
  | away | even
deriving DecidableEq

namespace Decimal

def exact (x : Binary64) : Decimal :=
  if 0 ≤ x.exponent then ⟨x.significand * Nat.pow 2 x.exponent.toNat, 0⟩
  else ⟨x.significand * Nat.pow 5 (-x.exponent).toNat, x.exponent⟩

/-- The decimal rounds to the double of clear sign. -/
def ReadsBack (x : Binary64) (decimal : Decimal) : Prop :=
  Binary64.ofDecimal false decimal.digits decimal.exponent = x

instance (x : Binary64) (decimal : Decimal) : Decidable (ReadsBack x decimal) :=
  inferInstanceAs (Decidable (_ = _))

/-- The neighbour of the double on the grid of `10 ^ grid` that reads back: the nearer of the two
if both do, the tie rule deciding between equally near ones. -/
def onGrid? (tie : Tie) (x : Binary64) (grid : Int) : Option Decimal :=
  let num := x.significand * Nat.pow 2 x.exponent.toNat * Nat.pow 10 (-grid).toNat
  let den := Nat.pow 2 (-x.exponent).toNat * Nat.pow 10 grid.toNat
  let below := num / den
  let twice := 2 * (num % den)
  let upward := den < twice || (twice == den && (tie == .away || below % 2 == 1))
  let lower : Decimal := ⟨below, grid⟩
  let upper : Decimal := ⟨below + 1, grid⟩
  if ReadsBack x lower ∧ ¬(upward ∧ ReadsBack x upper) then some lower
  else if ReadsBack x upper then some upper
  else none

/-- The first hit on the grids `grid`, `grid - 1`, … of which `count` are tried. -/
def firstOnGrids? (tie : Tie) (x : Binary64) : Nat → Int → Option Decimal
  | 0, _ => none
  | count + 1, grid => (onGrid? tie x grid).or (firstOnGrids? tie x count (grid - 1))

/-- A power of ten that is at least the double: its exponent follows from the binary one, as
`30103 / 100000` is a little more than the decimal logarithm of two. -/
def coarsestGrid (x : Binary64) : Int :=
  (x.significand.log2 + x.exponent + 1) * 30103 / 100000 + 1

/-- The shortest decimal of a nonzero finite double of clear sign. The coarsest grid is at most two
above that of the leading digit, and seventeen digits tell all doubles apart, so nineteen grids
suffice. The exact value stands behind them, so that what is returned reads back in any case. -/
def shortest (tie : Tie) (x : Binary64) : Decimal :=
  (firstOnGrids? tie x 19 (coarsestGrid x)).getD (exact x)

end Decimal
end LoxSyntax
