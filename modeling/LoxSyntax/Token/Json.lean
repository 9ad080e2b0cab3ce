import LoxSyntax.Json.Basic
import LoxSyntax.Token.Basic

/-! # Tokens as JSON

A kind is its tag, a literal a tagged value, a token a record. A number that is not finite is
written as `null` by JSON, and so does not decode.
-/

namespace LoxSyntax

def Kind.toJson (kind : Kind) : Json := .string kind.tag

def Kind.ofJson? (json : Json) : Option Kind := json.bareTag?.bind ofTag?

/-- A double, with `null` in place of one that is not finite. -/
def Binary64.toJson (x : Binary64) : Json := if x.isFinite then .real x else .null

namespace Literal

def toJson : Literal → Json
  | number value => .object [("Number", value.toJson)]
  | string value => .object [("String", .string value)]

def ofJson? (json : Json) : Option Literal :=
  match json.alternative? with
  | some ("Number", some payload) => payload.double?.map number
  | some ("String", some payload) => payload.string?.map string
  | _ => none

end Literal

namespace Token

def toJson (token : Token) : Json :=
  .object [("kind", token.kind.toJson), ("lexeme", .string token.lexeme),
    ("literal", (token.literal.map Literal.toJson).getD .null), ("line", .int token.line)]

/-- The literal of a token may be `null` or left out; the other fields are required. -/
def ofJson? (json : Json) : Option Token := do
  let fields ← json.record? ["kind", "lexeme", "literal", "line"]
  let kind ← Kind.ofJson? (← fields.lookup "kind")
  let lexeme ← (← fields.lookup "lexeme").string?
  let literal ← match fields.lookup "literal" with
    | none => some none
    | some .null => some none
    | some payload => (Literal.ofJson? payload).map some
  let line ← (← fields.lookup "line").nat?
  return ⟨kind, lexeme, literal, line⟩

end Token
end LoxSyntax
