import LoxSyntax.Number.Layout

/-! # JSON numbers

The grammar of number literals in JSON, and that the layout of doubles for JSON keeps to it: the
digits before the point begin with no idle zero, and there are digits behind a point and in an
exponent. For the first, the digits of a double that is not zero are no zero either.
-/

namespace LoxSyntax

namespace Json

/-- The digits before the point: without an idle zero in front. -/
inductive IsWhole : List Char → Prop where
  | zero : IsWhole ['0']
  | positive {first : Char} {others : List Char} (digit : first.isDigit = true)
      (notZero : first ≠ '0') (digits : ∀ c ∈ others, c.isDigit = true) : IsWhole (first :: others)

/-- The point and the digits behind it, or nothing. -/
inductive IsFraction : List Char → Prop where
  | absent : IsFraction []
  | digits {digits : List Char} (some : digits ≠ []) (all : ∀ c ∈ digits, c.isDigit = true) :
      IsFraction ('.' :: digits)

/-- The mark of an exponent with its sign and its digits, or nothing. -/
inductive IsExponent : List Char → Prop where
  | absent : IsExponent []
  | signed {mark : Char} {sign digits : List Char} (marks : mark ∈ ['e', 'E'])
      (signs : sign ∈ [[], ['+'], ['-']]) (some : digits ≠ [])
      (all : ∀ c ∈ digits, c.isDigit = true) : IsExponent (mark :: sign ++ digits)

/-- A number literal without its sign. -/
inductive IsUnsigned : List Char → Prop where
  | parts {whole fraction exponent : List Char} (isWhole : IsWhole whole)
      (isFraction : IsFraction fraction) (isExponent : IsExponent exponent) :
      IsUnsigned (whole ++ fraction ++ exponent)

/-- A number literal. -/
inductive IsNumber : List Char → Prop where
  | unsigned {text : List Char} (number : IsUnsigned text) : IsNumber text
  | negative {text : List Char} (number : IsUnsigned text) : IsNumber ('-' :: text)

end Json

theorem isDigit_of_mem_toDigits {n : Nat} {c : Char} (member : c ∈ Nat.toDigits 10 n) :
    c.isDigit = true :=
  Nat.isDigit_of_mem_toDigits (by decide) (by decide) member

/-- The digits of a number that is not zero begin with one that is not zero. -/
theorem exists_toDigits_eq_cons {n : Nat} (positive : n ≠ 0) : ∃ first others,
    Nat.toDigits 10 n = first :: others ∧ first ≠ '0' ∧ first.isDigit = true ∧
      ∀ c ∈ others, c.isDigit = true := by
  have head : ∃ first others, Nat.toDigits 10 n = first :: others ∧ first ≠ '0' := by
    induction n using Nat.strongRecOn with
    | ind n ih =>
      by_cases small : n < 10
      · exact ⟨n.digitChar, [], Nat.toDigits_of_lt_base small, by simpa using positive⟩
      · have large := Nat.le_of_not_lt small
        obtain ⟨first, others, shape, notZero⟩ := ih (n / 10) (by omega) (by omega)
        refine ⟨first, others ++ [(n % 10).digitChar], ?_, notZero⟩
        rw [Nat.toDigits_of_base_le (by decide) large, shape, List.cons_append]
  obtain ⟨first, others, shape, notZero⟩ := head
  have all (c : Char) (member : c ∈ first :: others) : c.isDigit = true := by
    rw [← shape] at member
    exact isDigit_of_mem_toDigits member
  exact ⟨first, others, shape, notZero, List.forall_mem_cons.mp all⟩

private theorem isWhole_of_toDigits_append {n : Nat} (positive : n ≠ 0) {more : List Char}
    (digits : ∀ c ∈ more, c.isDigit = true) : Json.IsWhole (Nat.toDigits 10 n ++ more) := by
  obtain ⟨first, others, shape, notZero, digit, all⟩ := exists_toDigits_eq_cons positive
  rw [shape, List.cons_append]
  refine .positive digit notZero ?_
  intro c member
  rcases List.mem_append.mp member with member | member
  · exact all c member
  · exact digits c member

theorem isWhole_toDigits (n : Nat) : Json.IsWhole (Nat.toDigits 10 n) := by
  by_cases zero : n = 0
  · subst zero
    exact .zero
  · have noMore : ∀ c ∈ ([] : List Char), c.isDigit = true := by simp
    have whole := isWhole_of_toDigits_append zero noMore
    rwa [List.append_nil] at whole

theorem isWhole_singleton {c : Char} (digit : c.isDigit = true) : Json.IsWhole [c] := by
  by_cases zero : c = '0'
  · subst zero
    exact .zero
  · exact .positive digit zero (by simp)

/-- The digits with zeros in front, so that there are more of them than places behind a point. -/
def padded (places : Nat) (digits : List Char) : List Char :=
  List.replicate (places + 1 - digits.length) '0' ++ digits

/-- With zeros in front there is a digit before a point that has so many digits behind it, and at
most one of these zeros. -/
theorem isWhole_take_padded (n : Nat) {places : Nat} (some : 0 < places) :
    Json.IsWhole ((padded places (Nat.toDigits 10 n)).take
      ((padded places (Nat.toDigits 10 n)).length - places)) := by
  by_cases short : (Nat.toDigits 10 n).length ≤ places
  · have zeros : places + 1 - (Nat.toDigits 10 n).length =
        places - (Nat.toDigits 10 n).length + 1 := by omega
    have one : (padded places (Nat.toDigits 10 n)).length - places = 1 := by
      simp only [padded, List.length_append, List.length_replicate]
      omega
    rw [one, padded, zeros, List.replicate_succ]
    exact .zero
  · have long := Nat.lt_of_not_le short
    have none : places + 1 - (Nat.toDigits 10 n).length = 0 := by omega
    have positive : n ≠ 0 := by
      rintro rfl
      rw [Nat.toDigits_zero, List.length_singleton] at long
      omega
    obtain ⟨first, others, shape, notZero, digit, all⟩ := exists_toDigits_eq_cons positive
    rw [shape] at long
    rw [padded, none, List.replicate_zero, List.nil_append, shape]
    obtain ⟨before, count⟩ : ∃ before, (first :: others).length - places = before + 1 :=
      Nat.exists_eq_add_one.mpr (by omega)
    rw [count, List.take_succ_cons]
    refine .positive digit notZero ?_
    intro c member
    exact all c (List.mem_of_mem_take member)

private theorem isFraction_drop_padded (n : Nat) {places : Nat} (some : 0 < places) :
    Json.IsFraction ('.' :: (padded places (Nat.toDigits 10 n)).drop
      ((padded places (Nat.toDigits 10 n)).length - places)) := by
  refine .digits ?_ ?_
  · rw [Ne, List.drop_eq_nil_iff, padded, List.length_append, List.length_replicate]
    omega
  · intro c member
    rcases List.mem_append.mp (List.mem_of_mem_drop member) with zero | digit
    · rw [List.eq_of_mem_replicate zero]
      rfl
    · exact isDigit_of_mem_toDigits digit

/-- The digit 0 alone stands for the number 0, and so it must not be moved to the left. -/
structure Decimal.Proper (decimal : Decimal) : Prop where
  unmoved : decimal.digits = 0 → decimal.exponent ≤ 0

namespace NumberLayout

private theorem isUnsigned_writePositional {decimal : Decimal} (proper : decimal.Proper) :
    Json.IsUnsigned (json.writePositional (Nat.toDigits 10 decimal.digits) decimal.exponent) := by
  obtain ⟨n, exponent⟩ := decimal
  obtain ⟨unmoved⟩ := proper
  dsimp only at unmoved ⊢
  unfold writePositional
  split
  · next nonnegative =>
    have whole : Json.IsWhole (Nat.toDigits 10 n ++ List.replicate exponent.toNat '0') := by
      by_cases zero : n = 0
      · have unit : exponent.toNat = 0 := by
          have bound := unmoved zero
          omega
        rw [zero, unit]
        exact .zero
      · refine isWhole_of_toDigits_append zero ?_
        intro c member
        rw [List.eq_of_mem_replicate member]
        rfl
    have fraction : Json.IsFraction ['.', '0'] := .digits (by simp) (by simp)
    have number := Json.IsUnsigned.parts whole fraction .absent
    rwa [List.append_nil] at number
  · next negative =>
    have some : 0 < (-exponent).toNat := by omega
    have whole := isWhole_take_padded n some
    have number := Json.IsUnsigned.parts whole (isFraction_drop_padded n some) .absent
    rwa [List.append_nil] at number

private theorem isUnsigned_writeScientific (n : Nat) (leading : Int) :
    Json.IsUnsigned (json.writeScientific (Nat.toDigits 10 n) leading) := by
  have digits {c : Char} (member : c ∈ Nat.toDigits 10 n) := isDigit_of_mem_toDigits member
  have exponent (sign : List Char) (signs : sign ∈ [[], ['+'], ['-']]) :
      Json.IsExponent ('e' :: sign ++ Nat.toDigits 10 leading.natAbs) :=
    .signed (by decide) signs Nat.toDigits_ne_nil fun _ => isDigit_of_mem_toDigits
  have signs : (if leading < 0 then ['-'] else if json.signsExponent then ['+'] else []) ∈
      [[], ['+'], ['-']] := by
    split <;> decide
  unfold writeScientific
  cases shape : Nat.toDigits 10 n with
  | nil => exact absurd shape Nat.toDigits_ne_nil
  | cons first others =>
    rw [shape] at digits
    have whole := isWhole_singleton (digits List.mem_cons_self)
    cases others with
    | nil =>
      have number := Json.IsUnsigned.parts whole .absent (exponent _ signs)
      simpa using number
    | cons next more =>
      have fraction : Json.IsFraction ('.' :: next :: more) :=
        .digits (by simp) fun c member => digits (List.mem_cons_of_mem _ member)
      have number := Json.IsUnsigned.parts whole fraction (exponent _ signs)
      simpa using number

theorem isUnsigned_writeDecimal {decimal : Decimal} (proper : decimal.Proper) :
    Json.IsUnsigned (json.writeDecimal decimal) := by
  have either (isPositional : Bool) (leading : Int) : Json.IsUnsigned
      (if isPositional then json.writePositional (Nat.toDigits 10 decimal.digits) decimal.exponent
      else json.writeScientific (Nat.toDigits 10 decimal.digits) leading) := by
    cases isPositional with
    | true => exact isUnsigned_writePositional proper
    | false => exact isUnsigned_writeScientific decimal.digits leading
  exact either _ _

end NumberLayout

namespace Binary64

variable {x : Binary64}

private theorem magnitude_abs (x : Binary64) : x.abs.magnitude = x.magnitude := by
  have small : x.magnitude < Nat.pow 2 63 := Nat.mod_lt _ (by decide)
  have fits : x.magnitude < 2 ^ 64 := Nat.lt_trans small (by decide)
  have bits : x.abs.bits.toNat = x.magnitude := Nat.mod_eq_of_lt fits
  rw [magnitude, bits, Nat.mod_eq_of_lt small]

private theorem significand_ne_zero (nonzero : x.magnitude ≠ 0) : x.significand ≠ 0 := by
  unfold significand
  split
  · next subnormal =>
    have small : x.magnitude < Nat.pow 2 52 := by
      rcases (Nat.div_eq_zero_iff).mp subnormal with none | small
      · exact absurd none (by decide)
      · exact small
    rwa [Nat.mod_eq_of_lt small]
  · exact Nat.ne_of_gt (Nat.add_pos_left (by decide) _)

end Binary64

namespace Decimal

variable {x : Binary64} {tie : Tie} {decimal : Decimal}

private theorem ReadsBack.digits_ne_zero (reads : ReadsBack x decimal) (nonzero : x.magnitude ≠ 0) :
    decimal.digits ≠ 0 := by
  intro zero
  apply nonzero
  rw [ReadsBack, Binary64.ofDecimal, zero, Nat.zero_mul] at reads
  rw [← reads]
  rfl

private theorem onGrid?_readsBack {grid : Int} (found : onGrid? tie x grid = some decimal) :
    ReadsBack x decimal := by
  simp only [onGrid?] at found
  split at found
  · next reads =>
    cases found
    exact reads.1
  · split at found
    · next reads =>
      cases found
      exact reads
    · cases found

theorem firstOnGrids?_readsBack {count : Nat} {grid : Int}
    (found : firstOnGrids? tie x count grid = some decimal) : ReadsBack x decimal := by
  induction count generalizing grid with
  | zero => cases found
  | succ count ih =>
    rw [firstOnGrids?] at found
    rcases Option.or_eq_some_iff.mp found with here | ⟨_, later⟩
    · exact onGrid?_readsBack here
    · exact ih later

theorem exact_digits_ne_zero (nonzero : x.magnitude ≠ 0) : (exact x).digits ≠ 0 := by
  have significand := Binary64.significand_ne_zero nonzero
  unfold exact
  split
  · exact Nat.mul_ne_zero significand (Nat.ne_of_gt (Nat.pow_pos (by decide)))
  · exact Nat.mul_ne_zero significand (Nat.ne_of_gt (Nat.pow_pos (by decide)))

private theorem shortest_digits_ne_zero (nonzero : x.magnitude ≠ 0) :
    (shortest tie x).digits ≠ 0 := by
  unfold shortest
  cases found : firstOnGrids? tie x 19 (coarsestGrid x) with
  | none => exact exact_digits_ne_zero nonzero
  | some decimal => exact (firstOnGrids?_readsBack found).digits_ne_zero nonzero

end Decimal

/-- A finite double is written to JSON as a number. -/
theorem NumberLayout.isNumber_write {x : Binary64} (finite : x.isFinite = true) :
    Json.IsNumber (json.write x).toList := by
  have notNaN : x.isNaN = false :=
    decide_eq_false (Nat.not_lt_of_gt (of_decide_eq_true finite))
  have proper : Decimal.Proper
      (if x.magnitude = 0 then ⟨0, 0⟩ else Decimal.shortest json.tie x.abs) := by
    split
    · exact ⟨fun _ => Int.le_refl 0⟩
    · next nonzero =>
      rw [← Binary64.magnitude_abs] at nonzero
      exact ⟨fun zero => absurd zero (Decimal.shortest_digits_ne_zero nonzero)⟩
  have number := isUnsigned_writeDecimal proper
  simp only [write, notNaN, finite, Bool.not_true, Bool.false_eq_true, if_false,
    String.toList_ofList]
  split
  · exact .negative number
  · exact .unsigned number

/-- An integer is written as a number. -/
theorem isNumber_toString (value : Int) : Json.IsNumber (toString value).toList := by
  have unsigned (n : Nat) : Json.IsUnsigned (Nat.toDigits 10 n) := by
    have number := Json.IsUnsigned.parts (isWhole_toDigits n) .absent .absent
    rwa [List.append_nil, List.append_nil] at number
  rw [Int.toString_eq_repr, Int.repr_eq_if]
  split
  · rw [Nat.toList_repr]
    exact .unsigned (unsigned _)
  · rw [String.toList_append, Nat.toList_repr]
    exact .negative (unsigned _)

end LoxSyntax
