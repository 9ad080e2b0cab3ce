import LoxSyntax.Json.Basic
import LoxSyntax.Number.Layout

/-! # JSON text

A JSON value is written compactly, without a space, or indented by two spaces, one element to a
line. Both forms end without a newline, and both append to a text, so that a long value is written
in one pass.
-/

namespace LoxSyntax.Json

/-- The character inside a JSON string. Only the quote, the backslash and the characters below
U+0020 are escaped, five of these by a letter and the others by two hexadecimal digits. -/
def pushEscaped (out : String) (c : Char) : String :=
  match c with
  | '"' => out ++ "\\\""
  | '\\' => out ++ "\\\\"
  | '\x08' => out ++ "\\b"
  | '\t' => out ++ "\\t"
  | '\n' => out ++ "\\n"
  | '\x0c' => out ++ "\\f"
  | '\r' => out ++ "\\r"
  | c =>
    if c.toNat < 0x20 then
      ((out ++ "\\u00").push (c.toNat / 16).digitChar).push (c.toNat % 16).digitChar
    else out.push c

def appendString (out : String) (value : String) : String :=
  (value.toList.foldl pushEscaped (out.push '"')).push '"'

def appendScalar (out : String) : Json → String
  | .null => out ++ "null"
  | .bool true => out ++ "true"
  | .bool false => out ++ "false"
  | .int value => out ++ toString value
  | .real value => out ++ NumberLayout.json.write value
  | .string value => appendString out value
  | _ => out

mutual

def appendCompact (out : String) : Json → String
  | .array [] => out ++ "[]"
  | .array (item :: items) => (appendItems (appendCompact (out.push '[') item) items).push ']'
  | .object [] => out ++ "\x7b\x7d"
  | .object ((name, value) :: fields) =>
    (appendFields (appendCompact ((appendString (out.push '\x7b') name).push ':') value)
      fields).push '\x7d'
  | .null => appendScalar out .null
  | .bool value => appendScalar out (.bool value)
  | .int value => appendScalar out (.int value)
  | .real value => appendScalar out (.real value)
  | .string value => appendScalar out (.string value)

def appendItems (out : String) : List Json → String
  | [] => out
  | item :: items => appendItems (appendCompact (out.push ',') item) items

def appendFields (out : String) : List (String × Json) → String
  | [] => out
  | (name, value) :: fields =>
    appendFields (appendCompact ((appendString (out.push ',') name).push ':') value) fields

end

/-- A new line, indented to the depth. -/
def appendLine (out : String) : Nat → String
  | 0 => out.push '\n'
  | depth + 1 => appendLine out depth ++ "  "

mutual

/-- The indented text, behind `out`, of a value that stands at the depth. -/
def appendPretty (depth : Nat) (out : String) : Json → String
  | .array [] => out ++ "[]"
  | .array (item :: items) =>
    let first := appendPretty (depth + 1) (appendLine (out.push '[') (depth + 1)) item
    (appendLine (appendPrettyItems (depth + 1) first items) depth).push ']'
  | .object [] => out ++ "\x7b\x7d"
  | .object ((name, value) :: fields) =>
    let label := appendString (appendLine (out.push '\x7b') (depth + 1)) name ++ ": "
    let first := appendPretty (depth + 1) label value
    (appendLine (appendPrettyFields (depth + 1) first fields) depth).push '\x7d'
  | .null => appendScalar out .null
  | .bool value => appendScalar out (.bool value)
  | .int value => appendScalar out (.int value)
  | .real value => appendScalar out (.real value)
  | .string value => appendScalar out (.string value)

def appendPrettyItems (depth : Nat) (out : String) : List Json → String
  | [] => out
  | item :: items =>
    appendPrettyItems depth (appendPretty depth (appendLine (out.push ',') depth) item) items

def appendPrettyFields (depth : Nat) (out : String) : List (String × Json) → String
  | [] => out
  | (name, value) :: fields =>
    let label := appendString (appendLine (out.push ',') depth) name ++ ": "
    appendPrettyFields depth (appendPretty depth label value) fields

end

def compact (json : Json) : String := appendCompact "" json

/-- The text with one element to a line. -/
def pretty (json : Json) : String := appendPretty 0 "" json

end LoxSyntax.Json
