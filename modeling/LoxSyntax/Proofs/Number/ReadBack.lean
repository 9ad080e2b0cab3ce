import LoxSyntax.Proofs.Json.Number
import LoxSyntax.Proofs.Scan.WellFormed
import Mathlib.Algebra.Order.Field.Power
import Mathlib.Data.Rat.Floor
import Mathlib.Data.Int.Log
import Mathlib.Tactic.GCongr
import Mathlib.Tactic.Positivity

/-! # Numbers read back

The text of a number in a tree is a numeral for that very number, so two numbers that are written
alike are the same. What has to be shown for this is that the digits of `Decimal.shortest` read
back: those that are found on a grid do so by the way they are found, and the exact value behind the
grids because rounding leaves a double as it is (`Binary64.roundMagnitude_of_exact`).
-/

namespace LoxSyntax

namespace Binary64

/-- A power whose exponent may be negative, as a quotient of two whose exponents are not. -/
theorem zpow_eq_div {base : ℚ} (nonzero : base ≠ 0) (exponent : Int) :
    base ^ exponent = base ^ exponent.toNat / base ^ (-exponent).toNat := by
  rw [eq_div_iff (pow_ne_zero _ nonzero), ← zpow_natCast, ← zpow_natCast, ← zpow_add₀ nonzero]
  congr 1
  omega

private theorem floorLog2_eq_log {num den : Nat} (positive : 0 < num) (divisor : 0 < den) :
    floorLog2 num den = Int.log 2 (num / den : ℚ) := by
  have numPositive : (0 : ℚ) < num := Nat.cast_pos.mpr positive
  have denPositive : (0 : ℚ) < den := Nat.cast_pos.mpr divisor
  have quotient : (0 : ℚ) < num / den := div_pos numPositive denPositive
  have numLow : (2 : ℚ) ^ num.log2 ≤ num := by exact_mod_cast Nat.log2_self_le positive.ne'
  have numHigh : (num : ℚ) < 2 ^ (num.log2 + 1) := by exact_mod_cast Nat.lt_log2_self
  have denLow : (2 : ℚ) ^ den.log2 ≤ den := by exact_mod_cast Nat.log2_self_le divisor.ne'
  have denHigh : (den : ℚ) < 2 ^ (den.log2 + 1) := by exact_mod_cast Nat.lt_log2_self
  simp only [floorLog2]
  generalize guessed : (num.log2 : Int) - den.log2 = guess
  have below : guess - 1 ≤ Int.log 2 (num / den : ℚ) := by
    rw [← Int.zpow_le_iff_le_log one_lt_two quotient, ← guessed, sub_sub, ← Nat.cast_succ,
      Nat.cast_two, zpow_sub₀ two_ne_zero, zpow_natCast, zpow_natCast]
    gcongr
  have above : Int.log 2 (num / den : ℚ) < guess + 1 := by
    rw [← Int.lt_zpow_iff_log_lt one_lt_two quotient, ← guessed, sub_add_eq_add_sub,
      ← Nat.cast_succ, Nat.cast_two, zpow_sub₀ two_ne_zero, zpow_natCast, zpow_natCast]
    gcongr
  have reaches : den * Nat.pow 2 guess.toNat ≤ num * Nat.pow 2 (-guess).toNat ↔
      guess ≤ Int.log 2 (num / den : ℚ) := by
    rw [← Int.zpow_le_iff_le_log one_lt_two quotient, Nat.cast_two, zpow_eq_div two_ne_zero,
      div_le_div_iff₀ (by positivity) denPositive, mul_comm]
    exact_mod_cast Iff.rfl
  split
  · next reached =>
    have bound := reaches.mp reached
    omega
  · next missed =>
    have bound := mt reaches.mpr missed
    omega

private theorem roundHalfEven_mul (count : Nat) {den : Nat} (divisor : 0 < den) :
    roundHalfEven (count * den) den = count := by
  simp [roundHalfEven, Nat.mul_div_cancel _ divisor, divisor]

variable {x : Binary64}

/-- The exact magnitude of a finite double. -/
def value (x : Binary64) : ℚ := x.significand * 2 ^ x.exponent

theorem magnitude_ofMagnitude {magnitude : Nat} (bound : magnitude ≤ infinite) :
    (ofMagnitude false magnitude).magnitude = magnitude := by
  have below : magnitude < Nat.pow 2 63 := Nat.lt_of_le_of_lt bound (by decide)
  rw [Binary64.magnitude, toNat_bits_ofMagnitude bound, Nat.mod_eq_of_lt below]

theorem significand_lt (x : Binary64) : x.significand < 2 ^ 53 := by
  have fraction : x.magnitude % Nat.pow 2 52 < Nat.pow 2 52 := Nat.mod_lt _ (by decide)
  simp only [significand, Nat.pow_eq] at fraction ⊢
  split <;> omega

private theorem le_exponent (x : Binary64) : -1074 ≤ x.exponent := by
  simp only [exponent]
  omega

/-- A double is normal, or it is counted in the smallest unit. -/
theorem le_significand_or (x : Binary64) : 2 ^ 52 ≤ x.significand ∨ x.exponent = -1074 := by
  simp only [significand, exponent, Nat.pow_eq]
  split <;> omega

/-- The fields of a double make up its magnitude. -/
theorem magnitude_eq (x : Binary64) :
    (x.exponent + 1074).toNat * Nat.pow 2 52 + x.significand = x.magnitude := by
  have divided : Nat.pow 2 52 * x.biasedExponent + x.magnitude % Nat.pow 2 52 = x.magnitude :=
    Nat.div_add_mod ..
  by_cases subnormal : x.biasedExponent = 0
  · rw [exponent, significand, if_pos subnormal]
    simp only [Nat.pow_eq] at divided ⊢
    omega
  · rw [exponent, significand, if_neg subnormal]
    simp only [Nat.pow_eq] at divided ⊢
    omega

/-- A quotient that is the magnitude of a double is rounded in the unit of the double. -/
theorem unit_eq {num den : Nat} (positive : 0 < num) (divisor : 0 < den)
    (exact : (num / den : ℚ) = x.value) :
    max (floorLog2 num den - 52) (-1074) = x.exponent := by
  have least := x.le_exponent
  have quotient : 0 < x.value := by
    rw [← exact]
    exact div_pos (Nat.cast_pos.mpr positive) (Nat.cast_pos.mpr divisor)
  have below : Int.log 2 x.value < 53 + x.exponent := by
    have bound : (x.significand : ℚ) < 2 ^ 53 := by exact_mod_cast x.significand_lt
    rw [← Int.lt_zpow_iff_log_lt one_lt_two quotient, Nat.cast_two, zpow_add₀ two_ne_zero, value]
    gcongr
    exact_mod_cast bound
  rw [floorLog2_eq_log positive divisor, exact]
  rcases x.le_significand_or with normal | subnormal
  · have above : 52 + x.exponent ≤ Int.log 2 x.value := by
      have bound : (2 ^ 52 : ℚ) ≤ x.significand := by exact_mod_cast normal
      rw [← Int.zpow_le_iff_le_log one_lt_two quotient, Nat.cast_two, zpow_add₀ two_ne_zero, value]
      gcongr
      exact_mod_cast bound
    omega
  · omega

/-- Rounding leaves the magnitude of a finite double as it is. -/
theorem roundMagnitude_of_exact {num den : Nat} (positive : 0 < num) (divisor : 0 < den)
    (finite : x.isFinite = true) (exact : (num / den : ℚ) = x.value) :
    roundMagnitude num den = x.magnitude := by
  have whole : num * Nat.pow 2 (-x.exponent).toNat =
      x.significand * (den * Nat.pow 2 x.exponent.toNat) := by
    have divisor' : (den : ℚ) ≠ 0 := Nat.cast_ne_zero.mpr divisor.ne'
    rw [value, zpow_eq_div two_ne_zero, ← mul_div_assoc,
      div_eq_div_iff divisor' (by positivity)] at exact
    have cast : num * 2 ^ (-x.exponent).toNat = x.significand * 2 ^ x.exponent.toNat * den := by
      exact_mod_cast exact
    rw [Nat.pow_eq, Nat.pow_eq, cast, Nat.mul_right_comm, Nat.mul_assoc]
  have bound : x.magnitude < infinite := of_decide_eq_true finite
  have unit : 0 < den * Nat.pow 2 x.exponent.toNat := Nat.mul_pos divisor (Nat.pow_pos two_pos)
  simp only [roundMagnitude, if_neg positive.ne', unit_eq positive divisor exact, whole,
    roundHalfEven_mul _ unit, magnitude_eq]
  exact Nat.min_eq_right bound.le

/-- A decimal that is the magnitude of a finite double rounds to the double of clear sign. -/
theorem ofDecimal_of_exact {digits : Nat} {exponent : Int} (positive : 0 < digits)
    (finite : x.isFinite = true) (exact : (digits * 10 ^ exponent : ℚ) = x.value) :
    ofDecimal false digits exponent = x.abs := by
  have num : 0 < digits * Nat.pow 10 exponent.toNat :=
    Nat.mul_pos positive (Nat.pow_pos (by decide))
  have den : 0 < Nat.pow 10 (-exponent).toNat := Nat.pow_pos (by decide)
  rw [zpow_eq_div (by norm_num), ← mul_div_assoc] at exact
  rw [ofDecimal, abs, roundMagnitude_of_exact num den finite]
  rw [← exact, Nat.pow_eq, Nat.pow_eq]
  push_cast
  rfl

end Binary64

namespace Decimal

variable {x : Binary64} {tie : Tie}

/-- The exact decimal of a double has the value of the double. -/
theorem exact_value (x : Binary64) :
    ((exact x).digits * 10 ^ (exact x).exponent : ℚ) = x.value := by
  unfold exact
  split
  · next nonnegative =>
    have whole : (2 : ℚ) ^ x.exponent = 2 ^ x.exponent.toNat := by
      rw [← zpow_natCast, Int.toNat_of_nonneg nonnegative]
    rw [Nat.pow_eq, zpow_zero, mul_one, Binary64.value, whole]
    push_cast
    rfl
  · next negative =>
    have cancels : (5 : ℚ) ^ (-x.exponent).toNat * 5 ^ x.exponent = 1 := by
      rw [← zpow_natCast, Int.toNat_of_nonneg (by omega), ← zpow_add₀ (by norm_num),
        neg_add_cancel, zpow_zero]
    have ten : (10 : ℚ) ^ x.exponent = 5 ^ x.exponent * 2 ^ x.exponent := by
      rw [← mul_zpow]
      norm_num
    rw [Nat.pow_eq, Binary64.value, ten]
    push_cast
    rw [mul_assoc, ← mul_assoc (5 ^ _), cancels, one_mul]

/-- What is returned reads back in any case. -/
theorem shortest_readsBack (clear : x.abs = x) (finite : x.isFinite = true)
    (nonzero : x.magnitude ≠ 0) : ReadsBack x (shortest tie x) := by
  unfold shortest
  cases found : firstOnGrids? tie x 19 (coarsestGrid x) with
  | none =>
    have positive := Nat.pos_of_ne_zero (exact_digits_ne_zero nonzero)
    exact (Binary64.ofDecimal_of_exact positive finite (exact_value x)).trans clear
  | some decimal => exact firstOnGrids?_readsBack found

end Decimal

namespace Binary64

variable {whole decimals : List Char}

theorem ofNumeral?_digits (digits : Digits whole) :
    ofNumeral? whole = some (ofDecimal false (Nat.ofDigitChars 10 whole 0) 0) := by
  have taken : whole.takeWhile Char.isDigit = whole := by
    rw [← List.append_nil whole, List.takeWhile_append_of_pos digits.2]
    rfl
  have left : whole.dropWhile Char.isDigit = [] := by
    rw [← List.append_nil whole, List.dropWhile_append_of_pos digits.2]
    rfl
  simp [ofNumeral?, taken, left, digits.1, ofDigits]

theorem ofNumeral?_fraction (digits : Digits whole) (fraction : Digits decimals) :
    ofNumeral? (whole ++ '.' :: decimals) =
      some (ofDecimal false (Nat.ofDigitChars 10 (whole ++ decimals) 0)
        (-(decimals.length : Int))) := by
  have allDigits : decimals.all Char.isDigit = true := List.all_eq_true.mpr fraction.2
  simp [ofNumeral?, Numeral.takeWhile_point digits, Numeral.dropWhile_point digits, digits.1,
    fraction.1, allDigits, ofDigits]

end Binary64

private theorem digits_toDigits (n : Nat) : Digits (Nat.toDigits 10 n) :=
  ⟨Nat.toDigits_ne_nil, fun _ => isDigit_of_mem_toDigits⟩

private theorem digits_append_zeros {text : List Char} (digits : Digits text) (count : Nat) :
    Digits (text ++ List.replicate count '0') := by
  refine ⟨by simp [digits.1], fun c member => ?_⟩
  rcases List.mem_append.mp member with member | zero
  · exact digits.2 c member
  · rw [List.eq_of_mem_replicate zero]
    rfl

/-- Digits with zeros in front divide into some before a point and so many behind it. -/
theorem digits_padded (n : Nat) {places : Nat} (some : 0 < places) :
    ∃ whole decimals, (padded places (Nat.toDigits 10 n)).take
        ((padded places (Nat.toDigits 10 n)).length - places) = whole ∧
      (padded places (Nat.toDigits 10 n)).drop
        ((padded places (Nat.toDigits 10 n)).length - places) = decimals ∧
      Digits whole ∧ Digits decimals ∧ decimals.length = places ∧
      Nat.ofDigitChars 10 (whole ++ decimals) 0 = n := by
  have long : places < (padded places (Nat.toDigits 10 n)).length := by
    simp only [padded, List.length_append, List.length_replicate]
    omega
  have all : ∀ c ∈ padded places (Nat.toDigits 10 n), c.isDigit = true := by
    intro c member
    rcases List.mem_append.mp member with zero | digit
    · rw [List.eq_of_mem_replicate zero]
      rfl
    · exact isDigit_of_mem_toDigits digit
  have value : Nat.ofDigitChars 10 (padded places (Nat.toDigits 10 n)) 0 = n := by
    rw [padded, Nat.ofDigitChars_append, Nat.ofDigitChars_replicate_zero, Nat.mul_zero]
    exact Nat.ofDigitChars_toDigits (by decide) (by decide)
  generalize padded places (Nat.toDigits 10 n) = text at long all value
  refine ⟨_, _, rfl, rfl, ⟨?_, ?_⟩, ⟨?_, ?_⟩, ?_, ?_⟩
  · simp only [ne_eq, List.take_eq_nil_iff, not_or]
    exact ⟨by omega, List.ne_nil_of_length_pos (by omega)⟩
  · exact fun c member => all c (List.mem_of_mem_take member)
  · simp only [ne_eq, List.drop_eq_nil_iff]
    omega
  · exact fun c member => all c (List.mem_of_mem_drop member)
  · rw [List.length_drop]
    omega
  · rw [List.take_append_drop, value]

namespace NumberLayout

/-- The text of a decimal in a tree is a numeral that stands for it. -/
theorem ofNumeral?_writePositional (n : Nat) (exponent : Int) :
    Numeral (tree.writePositional (Nat.toDigits 10 n) exponent) ∧
      Binary64.ofNumeral? (tree.writePositional (Nat.toDigits 10 n) exponent) =
        some (.ofDecimal false n exponent) := by
  unfold writePositional
  split
  · next nonnegative =>
    have digits := digits_append_zeros (digits_toDigits n) exponent.toNat
    have text : Nat.toDigits 10 n ++ List.replicate exponent.toNat '0' ++
        (if tree.keepsFraction then ['.', '0'] else []) =
        Nat.toDigits 10 n ++ List.replicate exponent.toNat '0' := List.append_nil _
    have value : Nat.ofDigitChars 10 (Nat.toDigits 10 n) 0 = n :=
      Nat.ofDigitChars_toDigits (by decide) (by decide)
    have moved : (-exponent).toNat = 0 := by omega
    rw [text]
    refine ⟨.whole digits, ?_⟩
    rw [Binary64.ofNumeral?_digits digits, Nat.ofDigitChars_append, value,
      Nat.ofDigitChars_replicate_zero]
    simp [Binary64.ofDecimal, moved, Nat.mul_comm]
  · next negative =>
    obtain ⟨whole, decimals, taken, dropped, digits, fraction, length, value⟩ :=
      digits_padded n (show 0 < (-exponent).toNat by omega)
    rw [padded] at taken dropped
    simp only [taken, dropped]
    refine ⟨.fraction digits fraction, ?_⟩
    have places : -(((-exponent).toNat : Nat) : Int) = exponent := by omega
    rw [Binary64.ofNumeral?_fraction digits fraction, value, length, places]

/-- The text of a finite double of clear sign is a numeral that stands for it. -/
theorem ofNumeral?_write {x : Binary64} (clear : x.abs = x) (finite : x.isFinite = true) :
    Numeral (tree.write x).toList ∧ Binary64.ofNumeral? (tree.write x).toList = some x := by
  have notNaN : x.isNaN = false :=
    decide_eq_false (Nat.not_lt_of_gt (of_decide_eq_true finite))
  have notNegative : x.isNegative = false := by
    rw [← clear]
    exact Binary64.isNegative_ofMagnitude (of_decide_eq_true finite).le
  simp only [write, notNaN, finite, notNegative, Bool.not_true, Bool.false_eq_true, if_false,
    List.nil_append, String.toList_ofList, clear]
  have readsBack : Decimal.ReadsBack x
      (if x.magnitude = 0 then ⟨0, 0⟩ else Decimal.shortest tree.tie x) := by
    split
    · next zero =>
      rw [Decimal.ReadsBack, ← clear, Binary64.abs, zero]
      rfl
    · next nonzero => exact Decimal.shortest_readsBack clear finite nonzero
  have text := ofNumeral?_writePositional
    (if x.magnitude = 0 then ⟨0, 0⟩ else Decimal.shortest tree.tie x : Decimal).digits
    (if x.magnitude = 0 then ⟨0, 0⟩ else Decimal.shortest tree.tie x : Decimal).exponent
  rw [readsBack] at text
  exact text

/-- A number that a numeral stands for is written as a numeral for it, or as `inf` if it is too
large for a finite double. -/
theorem write_cases {x : Binary64} {text : List Char}
    (decoded : Binary64.ofNumeral? text = some x) :
    (Numeral (tree.write x).toList ∧ Binary64.ofNumeral? (tree.write x).toList = some x) ∨
      (x = .ofMagnitude false Binary64.infinite ∧ (tree.write x).toList = "inf".toList) := by
  obtain ⟨magnitude, bound, rfl⟩ := Binary64.exists_magnitude_of_ofNumeral? decoded
  rcases Nat.lt_or_eq_of_le bound with finite | rfl
  · left
    have same := Binary64.magnitude_ofMagnitude bound
    apply ofNumeral?_write
    · rw [Binary64.abs, same]
    · rw [Binary64.isFinite, same]
      exact decide_eq_true finite
  · right
    exact ⟨rfl, by decide⟩

/-- Two numbers that numerals stand for are the same if they are written alike. -/
theorem write_injective {x y : Binary64} {text other : List Char}
    (decoded : Binary64.ofNumeral? text = some x) (rival : Binary64.ofNumeral? other = some y)
    (same : tree.write x = tree.write y) : x = y := by
  have notNumeral : ¬ Numeral "inf".toList := fun numeral => absurd numeral.head (by decide)
  rcases write_cases decoded with ⟨numeral, back⟩ | ⟨rfl, word⟩
  · rcases write_cases rival with ⟨_, backRival⟩ | ⟨rfl, word⟩
    · rw [same] at back
      exact Option.some.inj (back.symm.trans backRival)
    · rw [same, word] at numeral
      exact absurd numeral notNumeral
  · rcases write_cases rival with ⟨numeral, _⟩ | ⟨rfl, _⟩
    · rw [← same, word] at numeral
      exact absurd numeral notNumeral
    · rfl

end NumberLayout
end LoxSyntax
