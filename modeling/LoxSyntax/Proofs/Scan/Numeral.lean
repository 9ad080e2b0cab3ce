import LoxSyntax.Scan.Piece

/-! # Numerals at the front of a text

A numeral is digits, and a point with digits behind it if there is one. The digits that a number is
cut from are a numeral, it is the longest at the front of the text, and every numeral has a value;
so no number is bad.
-/

namespace LoxSyntax

theorem length_le_takeWhile {α : Type} {p : α → Bool} {front chars : List α}
    (inside : ∀ value ∈ front, p value = true) (leads : front <+: chars) :
    front.length ≤ (chars.takeWhile p).length := by
  obtain ⟨rest, rfl⟩ := leads
  rw [List.takeWhile_append_of_pos inside, List.length_append]
  exact Nat.le_add_right _ _

/-- One or more ASCII digits. -/
def Digits (text : List Char) : Prop := text ≠ [] ∧ ∀ c ∈ text, c.isDigit = true

/-- Digits, and a point with digits behind it if there is one. -/
inductive Numeral : List Char → Prop where
  | whole {digits : List Char} (whole : Digits digits) : Numeral digits
  | fraction {digits decimals : List Char} (whole : Digits digits) (fraction : Digits decimals) :
      Numeral (digits ++ '.' :: decimals)

namespace Numeral

variable {text chars rest : List Char}

theorem ne_nil (numeral : Numeral text) : text ≠ [] := by
  cases numeral with
  | whole whole => exact whole.1
  | fraction => simp

/-- A numeral begins with a digit. -/
theorem head {c : Char} {others : List Char} (numeral : Numeral (c :: others)) :
    c.isDigit = true := by
  generalize shown : c :: others = text at numeral
  cases numeral with
  | whole whole => exact whole.2 c (shown ▸ List.mem_cons_self)
  | @fraction digits decimals whole fraction =>
    match digits, whole with
    | digit :: digits, whole =>
      obtain rfl : c = digit := (List.cons.inj shown).1
      exact whole.2 c List.mem_cons_self

private theorem digits_takeWhile (nonempty : chars.takeWhile Char.isDigit ≠ []) :
    Digits (chars.takeWhile Char.isDigit) :=
  ⟨nonempty, List.all_eq_true.mp List.all_takeWhile⟩

/-- A point ends the digits before it. -/
theorem takeWhile_point {digits : List Char} (whole : Digits digits) :
    (digits ++ '.' :: rest).takeWhile Char.isDigit = digits := by
  rw [List.takeWhile_append_of_pos whole.2, List.takeWhile_cons_of_neg (by decide), List.append_nil]

theorem dropWhile_point {digits : List Char} (whole : Digits digits) :
    (digits ++ '.' :: rest).dropWhile Char.isDigit = '.' :: rest := by
  rw [List.dropWhile_append_of_pos whole.2, List.dropWhile_cons_of_neg (by decide)]

/-- Every numeral has a value. -/
theorem decodes (numeral : Numeral text) : ∃ value, Binary64.ofNumeral? text = some value := by
  cases numeral with
  | whole whole =>
    have taken : text.takeWhile Char.isDigit = text := by
      rw [← List.append_nil text, List.takeWhile_append_of_pos whole.2]
      rfl
    have left : text.dropWhile Char.isDigit = [] := by
      rw [← List.append_nil text, List.dropWhile_append_of_pos whole.2]
      rfl
    simp [Binary64.ofNumeral?, taken, left, whole.1]
  | @fraction digits decimals whole fraction =>
    have allDigits : decimals.all Char.isDigit = true := List.all_eq_true.mpr fraction.2
    simp [Binary64.ofNumeral?, takeWhile_point whole, dropWhile_point whole, whole.1, fraction.1,
      allDigits]

private theorem length_takeWhile_le (chars : List Char) :
    (chars.takeWhile Char.isDigit).length ≤ (Piece.spanNumeral chars).1.length := by
  simp only [Piece.spanNumeral]
  split
  · split
    · simp
    · exact Nat.le_refl _
  · exact Nat.le_refl _

/-- What is taken as a number off a text that begins with a digit is one. -/
theorem spanNumeral {first : Char} (digit : first.isDigit = true) :
    Numeral (Piece.spanNumeral (first :: chars)).1 := by
  have whole : Digits ((first :: chars).takeWhile Char.isDigit) :=
    digits_takeWhile (by simp [digit])
  simp only [Piece.spanNumeral]
  split
  · next decimal rest shown =>
    split
    · next decimalDigit =>
      have fraction : Digits ((decimal :: rest).takeWhile Char.isDigit) :=
        digits_takeWhile (by simp [decimalDigit])
      rw [List.takeWhile_cons_of_pos decimalDigit] at fraction
      exact .fraction whole fraction
    · exact .whole whole
  · exact .whole whole

/-- No longer number stands at the front. -/
theorem length_le_spanNumeral (numeral : Numeral text) (leads : text <+: chars) :
    text.length ≤ (Piece.spanNumeral chars).1.length := by
  cases numeral with
  | whole whole =>
    exact Nat.le_trans (length_le_takeWhile whole.2 leads) (length_takeWhile_le chars)
  | @fraction digits decimals whole fraction =>
    obtain ⟨rest, rfl⟩ := leads
    match decimals, fraction with
    | decimal :: decimals, fraction =>
      obtain ⟨decimalDigit, others⟩ := List.forall_mem_cons.mp fraction.2
      have split : digits ++ '.' :: decimal :: decimals ++ rest =
          digits ++ '.' :: decimal :: (decimals ++ rest) := by simp
      rw [split]
      simp only [Piece.spanNumeral, takeWhile_point whole, dropWhile_point whole, decimalDigit,
        if_true, List.takeWhile_append_of_pos others, List.length_append, List.length_cons]
      omega

end Numeral
end LoxSyntax
