import LoxSyntax.Parse.Rule

/-! # The expression grammar

An operand is a unary operator with its operand, a literal, or an expression in parentheses; the
binary levels stand above it. Every opening parenthesis and unary operator opens a nesting, and
only so many may be open at once: `Rule.operand` recurses on the number that may still be opened.
-/

namespace LoxSyntax

/-- How many groupings and unary operators may be open around a token. -/
def maxNesting : Nat := 200

namespace Rule

/-- Reads the operand of a unary operator that has been consumed. -/
def underOperator (inner : Option Rule) (operator : Token) (tokens : List Token) : Reading :=
  match inner with
  | none => .failAt .tooMuchNesting tokens
  | some rule =>
    match rule.run tokens with
    | (.ok right, rest) => (.ok (.unary operator right), rest)
    | (.error fault, rest) => (.error fault, rest)

/-- Reads the rest of a grouping whose opening parenthesis has been consumed. -/
def underParen (inner : Option Rule) (tokens : List Token) : Reading :=
  match inner with
  | none => .failAt .tooMuchNesting tokens
  | some rule =>
    match rule.ladder.run tokens with
    | (.ok expr, rest) =>
      match rest with
      | close :: after =>
        if close.kind = .rightParen then (.ok (.grouping expr), after)
        else .failAt .expectedCloseParen rest
      | [] => .failAt .expectedCloseParen rest
    | (.error fault, rest) => (.error fault, rest)

/-- The value of a token that is a literal by itself: `none` if it is no literal, `some none` if a
number or a string is missing its value. -/
def literal? (token : Token) : Option (Option Value) :=
  match token.kind with
  | .keyword .falseWord => some (some (.bool false))
  | .keyword .trueWord => some (some (.bool true))
  | .keyword .nilWord => some (some .nil)
  | .number => some (token.literal.map Literal.value)
  | .string => some (token.literal.map Literal.value)
  | _ => none

/-- Reads an operand, with the rule for the operands that are nested in it if it may nest. -/
def runOperand (inner : Option Rule) (tokens : List Token) : Reading :=
  match tokens with
  | [] => .failAt .expectedExpression []
  | token :: rest =>
    if token.kind.isUnaryOperator then underOperator inner token rest
    else if token.kind = .leftParen then underParen inner rest
    else
      match literal? token with
      | some (some value) => (.ok (.literal value), rest)
      | some none => (.error (.atToken token .literalWithoutValue), rest)
      | none => .failAt .expectedExpression (token :: rest)

theorem underOperator_suffix (inner : Option Rule) (operator : Token) (tokens : List Token) :
    (underOperator inner operator tokens).2 <:+ tokens := by
  unfold underOperator
  cases inner with
  | none => exact List.suffix_refl _
  | some rule =>
    have passed := rule.suffix tokens
    simp only
    split <;> simp_all

theorem underParen_suffix (inner : Option Rule) (tokens : List Token) :
    (underParen inner tokens).2 <:+ tokens := by
  unfold underParen
  cases inner with
  | none => exact List.suffix_refl _
  | some rule =>
    have passed := rule.ladder.suffix tokens
    simp only
    split
    · next expr rest reading =>
      rw [reading] at passed
      split
      · next close after =>
        split
        · exact (List.suffix_cons close after).trans passed
        · exact passed
      · exact passed
    · next fault rest reading =>
      rw [reading] at passed
      exact passed

theorem runOperand_suffix (inner : Option Rule) (tokens : List Token) :
    (runOperand inner tokens).2 <:+ tokens := by
  unfold runOperand
  cases tokens with
  | nil => exact List.suffix_refl _
  | cons token rest =>
    have behind := List.suffix_cons token rest
    simp only
    split
    · exact (underOperator_suffix inner token rest).trans behind
    split
    · exact (underParen_suffix inner rest).trans behind
    split
    · exact behind
    · exact behind
    · exact List.suffix_refl _

/-- An operand around which `allowance` more nestings may be opened. -/
def operand : (allowance : Nat) → Rule
  | 0 => ⟨runOperand none, runOperand_suffix none⟩
  | allowance + 1 =>
    ⟨runOperand (some (operand allowance)), runOperand_suffix (some (operand allowance))⟩

/-- An expression in which `allowance` nestings may be open at once. -/
def expression (allowance : Nat) : Rule := (operand allowance).ladder

end Rule
end LoxSyntax
