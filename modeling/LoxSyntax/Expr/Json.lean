import LoxSyntax.Expr.Basic
import LoxSyntax.Token.Json

/-! # Expressions as JSON

A value and an expression are tagged alternatives; an operator is the record of its token.
-/

namespace LoxSyntax

namespace Value

def toJson : Value → Json
  | number value => .object [("Number", value.toJson)]
  | string value => .object [("String", .string value)]
  | bool value => .object [("Bool", .bool value)]
  | nil => .string "Nil"

def ofJson? (json : Json) : Option Value :=
  match json.alternative? with
  | some ("Number", some payload) => payload.double?.map number
  | some ("String", some payload) => payload.string?.map string
  | some ("Bool", some payload) => payload.bool?.map bool
  | _ => if json.bareTag? = some "Nil" then some nil else none

end Value

namespace Expr

def toJson : Expr → Json
  | binary left operator right =>
    .object [("Binary",
      .object [("left", left.toJson), ("operator", operator.toJson), ("right", right.toJson)])]
  | unary operator right =>
    .object [("Unary", .object [("operator", operator.toJson), ("right", right.toJson)])]
  | literal value => .object [("Literal", value.toJson)]
  | grouping inner => .object [("Grouping", inner.toJson)]

mutual

/-- The expression that a value encodes. The parts of an operation are named, never listed. -/
def ofJson? : Json → Option Expr
  | .object [(tag, payload)] =>
    match tag, payload with
    | "Binary", .object fields => do
      let left ← operand? "left" fields
      let operator ← (fields.lookup "operator").bind Token.ofJson?
      let right ← operand? "right" fields
      return binary left operator right
    | "Unary", .object fields => do
      let operator ← (fields.lookup "operator").bind Token.ofJson?
      let right ← operand? "right" fields
      return unary operator right
    | "Literal", payload => (Value.ofJson? payload).map literal
    | "Grouping", payload => (ofJson? payload).map grouping
    | _, _ => none
  | _ => none

def operand? (name : String) : List (String × Json) → Option Expr
  | [] => none
  | (field, value) :: fields => if field = name then ofJson? value else operand? name fields

end

end Expr
end LoxSyntax
