import LoxSyntax.Number.Binary64

/-! # Numerals

A numeral is `digit+ ( . digit+ )?` over the ASCII digits. This file decides which texts are
numerals and gives each its double. It knows no sign, no exponent part and no digit separator.
-/

namespace LoxSyntax

namespace Binary64

def ofDigits (whole fraction : List Char) : Binary64 :=
  ofDecimal false (Nat.ofDigitChars 10 (whole ++ fraction) 0) (-(fraction.length : Int))

/-- The double nearest to the number that a numeral spells; `none` for a text that is no numeral. -/
def ofNumeral? (text : List Char) : Option Binary64 :=
  let whole := text.takeWhile Char.isDigit
  match text.dropWhile Char.isDigit with
  | [] => if whole.isEmpty then none else some (ofDigits whole [])
  | '.' :: fraction =>
    if whole.isEmpty || fraction.isEmpty || !fraction.all Char.isDigit then none
    else some (ofDigits whole fraction)
  | _ => none

end Binary64
end LoxSyntax
