import LoxSyntax.Diagnostic.Fault
import LoxSyntax.Parse.Level

/-! # Rules

A rule reads an expression from the front of a token list, or finds a fault, and leaves the tokens
that it did not consume. It carries the proof that these are a suffix of the list, which is why a
rule can be repeated without end: `Rule.chain` builds a left-associative level from the rule of its
operands. A list is read as if the end of the input followed it.
-/

namespace LoxSyntax

/-- What came of reading an expression, and the tokens that were not consumed. -/
abbrev Reading := Except Fault Expr × List Token

/-- A way to read an expression from the front of a token list. -/
structure Rule where
  run : List Token → Reading
  suffix : ∀ tokens, (run tokens).2 <:+ tokens

def nextToken : List Token → Token
  | [] => .eof 1
  | token :: _ => token

/-- The fault of not finding what must come next. Nothing is consumed. -/
def Reading.failAt (reason : SyntaxReason) (tokens : List Token) : Reading :=
  (.error (.atToken (nextToken tokens) reason), tokens)

namespace Rule

/-- Reads operators of the level, each with a right operand, and joins them to what stands to their
left. Stops before the first token that is no such operator. -/
def joinRight (operand : Rule) (level : Level) (left : Expr) (tokens : List Token) : Reading :=
  match tokens with
  | [] => (.ok left, [])
  | operator :: rest =>
    if operator.kind.binaryLevel? = some level then
      match reading : operand.run rest with
      | (.ok right, after) =>
        have _shorter : after.length < rest.length + 1 := by
          have bound := (operand.suffix rest).length_le
          simp only [reading] at bound
          omega
        joinRight operand level (.binary left operator right) after
      | (.error fault, after) => (.error fault, after)
    else (.ok left, operator :: rest)
termination_by tokens.length

theorem joinRight_suffix (operand : Rule) (level : Level) (left : Expr) (tokens : List Token) :
    (joinRight operand level left tokens).2 <:+ tokens := by
  fun_induction joinRight operand level left tokens with
  | case1 => exact List.suffix_refl _
  | case2 left operator rest joins right after reading shorter ih =>
    have passed := operand.suffix rest
    rw [reading] at passed
    exact (ih.trans passed).trans (List.suffix_cons operator rest)
  | case3 left operator rest joins fault after reading =>
    have passed := operand.suffix rest
    rw [reading] at passed
    exact passed.trans (List.suffix_cons operator rest)
  | case4 => exact List.suffix_refl _

/-- One operand, and operators of the level with the operands to their right. -/
def chain (operand : Rule) (level : Level) : Rule where
  run tokens :=
    match operand.run tokens with
    | (.ok left, rest) => joinRight operand level left rest
    | (.error fault, rest) => (.error fault, rest)
  suffix tokens := by
    have passed := operand.suffix tokens
    split
    · next left rest reading =>
      rw [reading] at passed
      exact (joinRight_suffix operand level left rest).trans passed
    · next fault rest reading =>
      rw [reading] at passed
      exact passed

def ladder (operand : Rule) : Rule := Level.binaryLevels.foldl chain operand

end Rule
end LoxSyntax
