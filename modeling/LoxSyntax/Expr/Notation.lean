import LoxSyntax.Expr.Basic

/-! # Notations

An expression is written in one of two notations. The parenthesized one puts each operator before
its operands, in parentheses, and marks a grouping by a word; the reverse Polish one puts each
operator behind its operands and drops groupings, which it does not need.
-/

namespace LoxSyntax

inductive Notation where
  | parenthesized | reversePolish
deriving DecidableEq

namespace Expr

/-- The operator before its operands: `(* (- 123) (group 45.67))`. -/
def parenthesized : Expr → String
  | binary left operator right =>
    "(" ++ operator.lexeme ++ " " ++ left.parenthesized ++ " " ++ right.parenthesized ++ ")"
  | unary operator right => "(" ++ operator.lexeme ++ " " ++ right.parenthesized ++ ")"
  | literal value => value.text
  | grouping inner => "(group " ++ inner.parenthesized ++ ")"

/-- The operator behind its operands: `123 - 45.67 *`. -/
def reversePolish : Expr → String
  | binary left operator right =>
    left.reversePolish ++ " " ++ right.reversePolish ++ " " ++ operator.lexeme
  | unary operator right => right.reversePolish ++ " " ++ operator.lexeme
  | literal value => value.text
  | grouping inner => inner.reversePolish

/-- The expression `-123 * (45.67)`, which shows what a notation looks like. -/
def sample : Expr :=
  binary (unary (.plain .minus "-" 1) (literal (.number (.ofDecimal false 123 0))))
    (.plain .star "*" 1)
    (grouping (literal (.number (.ofDecimal false 4567 (-2)))))

end Expr

namespace Notation

def name : Notation → String
  | parenthesized => "prefix"
  | reversePolish => "postfix"

/-- The notation of a name in small letters: that under which it is shown, or its usual one. -/
def ofName? : String → Option Notation
  | "prefix" => some parenthesized
  | "lisp" => some parenthesized
  | "postfix" => some reversePolish
  | "rpn" => some reversePolish
  | _ => none

def lowercase (text : String) : String := String.ofList (text.toList.map Char.toLower)

/-- The notation of a name in letters of any case. The fault is a sentence that shows the name in
small letters. -/
def ofText (text : String) : Except String Notation :=
  match ofName? (lowercase text) with
  | some found => .ok found
  | none =>
    .error ("unknown notation \x60" ++ lowercase text ++ "\x60 (expected prefix or postfix)")

def write : Notation → Expr → String
  | parenthesized, expr => expr.parenthesized
  | reversePolish, expr => expr.reversePolish

end Notation
end LoxSyntax
