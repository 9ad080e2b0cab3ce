import LoxSyntax.Token.Basic

/-! # Expressions

The tree of a Lox expression. An operator is the very token that was read, so its lexeme and line
stay known; a literal is its value alone.
-/

namespace LoxSyntax

inductive Value where
  | number (value : Binary64)
  | string (value : String)
  | bool (value : Bool)
  | nil
deriving DecidableEq

/-- The text of a value: a string without quotes, a number without an idle fraction. -/
def Value.text : Value → String
  | number value => NumberLayout.tree.write value
  | string value => value
  | bool true => "true"
  | bool false => "false"
  | nil => "nil"

def Literal.value : Literal → Value
  | number value => .number value
  | string value => .string value

inductive Expr where
  | binary (left : Expr) (operator : Token) (right : Expr)
  | unary (operator : Token) (right : Expr)
  | literal (value : Value)
  | grouping (inner : Expr)
deriving DecidableEq

end LoxSyntax
