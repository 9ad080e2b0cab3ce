import LoxSyntax.Diagnostic.Basic
import LoxSyntax.Json.Basic

/-! # Diagnostics as JSON

A place is a tag, with the lexeme as its payload if there is one; a report is a record.
-/

namespace LoxSyntax

namespace Location

def toJson : Location → Json
  | nowhere => .string "Nowhere"
  | atEnd => .string "AtEnd"
  | atLexeme lexeme => .object [("AtLexeme", .string lexeme)]

def ofJson? (json : Json) : Option Location :=
  match json.alternative? with
  | some ("AtLexeme", some payload) => payload.string?.map atLexeme
  | _ =>
    match json.bareTag? with
    | some "Nowhere" => some nowhere
    | some "AtEnd" => some atEnd
    | _ => none

end Location

namespace Diagnostic

def toJson (diagnostic : Diagnostic) : Json :=
  .object [("line", .int diagnostic.line), ("location", diagnostic.location.toJson),
    ("message", .string diagnostic.message)]

def ofJson? (json : Json) : Option Diagnostic := do
  let fields ← json.record? ["line", "location", "message"]
  let line ← (← fields.lookup "line").nat?
  let location ← Location.ofJson? (← fields.lookup "location")
  let message ← (← fields.lookup "message").string?
  return ⟨line, location, message⟩

end Diagnostic
end LoxSyntax
