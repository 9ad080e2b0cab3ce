import LoxSyntax.Expr.Json
import LoxSyntax.Expr.Notation
import LoxSyntax.Json.Text
import LoxSyntax.Scan.Scanner

/-! # Outcomes

What running one source text gives: its tokens, the counters of the scanner behind the last one,
and the expression if there is one. Settings choose how an outcome is shown.
-/

namespace LoxSyntax

/-- How the outcome of a run is shown. -/
structure Settings where
  rendering : Notation := .parenthesized
  listsTokens : Bool := false
  showsStats : Bool := false
  /-- Show the whole outcome as JSON instead. -/
  asJson : Bool := false
deriving DecidableEq

/-- Everything that a run gives, but for the faults it reports. -/
structure Outcome where
  tokens : List Token
  stats : ScanStats
  expression : Option Expr
deriving DecidableEq

def ScanStats.toJson (stats : ScanStats) : Json :=
  .object [("source_len", .int stats.sourceLength), ("start", .int stats.start),
    ("current", .int stats.current), ("lines", .int stats.lines)]

def ScanStats.text (stats : ScanStats) : String :=
  "Debug Stats:\n" ++
    "\tTotal Length: " ++ toString stats.sourceLength ++ "\n" ++
    "\tFinal start value: " ++ toString stats.start ++ "\n" ++
    "\tFinal current value: " ++ toString stats.current ++ "\n" ++
    "\tTotal Lines: " ++ toString stats.lines ++ "\n"

namespace Outcome

def toJson (outcome : Outcome) : Json :=
  .object [("tokens", .array (outcome.tokens.map Token.toJson)),
    ("stats", outcome.stats.toJson),
    ("expression", (outcome.expression.map Expr.toJson).getD .null)]

/-- The line that shows the expression, or that there is none. -/
def treeLine (rendering : Notation) : Option Expr → String
  | some expr => rendering.write expr ++ "\n"
  | none => "Had parse error!\n"

/-- The text that shows an outcome: JSON without a newline behind it, or lines. -/
def render (outcome : Outcome) (settings : Settings) : String :=
  if settings.asJson then outcome.toJson.pretty
  else
    let tokens := if settings.listsTokens then
      outcome.tokens.foldl (fun out token => out ++ token.listing ++ "\n") "" else ""
    let stats := if settings.showsStats then outcome.stats.text else ""
    tokens ++ stats ++ treeLine settings.rendering outcome.expression

end Outcome
end LoxSyntax
