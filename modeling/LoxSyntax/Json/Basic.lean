import LoxSyntax.Number.Binary64

/-! # JSON values

The values that tokens, trees and diagnostics are exchanged as. An integer and a real are told
apart, as a line number may be the first only. This file also holds the readings that every decoder
is built from: of a scalar, a record and a tagged alternative. The text of a value is the matter of
`LoxSyntax.Json.Text`.
-/

namespace LoxSyntax

/-- A JSON value. The fields of an object stand in the order in which they are written. -/
inductive Json where
  | null
  | bool (value : Bool)
  | int (value : Int)
  | real (value : Binary64)
  | string (value : String)
  | array (items : List Json)
  | object (fields : List (String × Json))

namespace Json

def nat? : Json → Option Nat
  | .int (.ofNat value) => some value
  | _ => none

/-- A number, an integer being the double nearest to it. -/
def double? : Json → Option Binary64
  | .int value => some (.ofDecimal (value < 0) value.natAbs 0)
  | .real value => some value
  | _ => none

def bool? : Json → Option Bool
  | .bool value => some value
  | _ => none

def string? : Json → Option String
  | .string value => some value
  | _ => none

/-- The members of a record by name: the fields of an object, whichever they are, or the elements
of an array that has one for each name, in the order of the names. -/
def record? (names : List String) : Json → Option (List (String × Json))
  | .object fields => some fields
  | .array items => if items.length = names.length then some (names.zip items) else none
  | _ => none

/-- The tag of an alternative with its payload: an object of one field, or a bare string, which
has no payload. -/
def alternative? : Json → Option (String × Option Json)
  | .string tag => some (tag, none)
  | .object [(tag, payload)] => some (tag, some payload)
  | _ => none

/-- The tag of an alternative that carries nothing; a payload of `null` counts as nothing. -/
def bareTag? (json : Json) : Option String :=
  match json.alternative? with
  | some (tag, none) => some tag
  | some (tag, some .null) => some tag
  | _ => none

end Json
end LoxSyntax
