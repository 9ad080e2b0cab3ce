import LoxSyntax.Diagnostic.Basic
import LoxSyntax.Parse.Expression

/-! # The parser

A parser stands before a token of a list that ends with the end marker. It reads one expression at
a time and then stands behind it, or where the fault was found; reading again goes on from there.
-/

namespace LoxSyntax

/-- A parser between two readings. -/
structure Parser where
  rest : List Token
  /-- How many tokens have been consumed. -/
  position : Nat
deriving DecidableEq

namespace Parser

/-- The tokens with an end marker behind them, if they have none. It stands on the line of the last
token. -/
def withEnd (tokens : List Token) : List Token :=
  match tokens.getLast? with
  | none => [.eof 1]
  | some last => if last.kind = .eof then tokens else tokens ++ [.eof last.line]

def ofTokens (tokens : List Token) : Parser := ⟨withEnd tokens, 0⟩

/-- The parser stands before an end marker, which is never consumed. -/
def atEnd (parser : Parser) : Bool := (nextToken parser.rest).kind = .eof

/-- Reads one expression. Tokens behind it are not looked at, but for the first. -/
def tryParse (parser : Parser) : Except Fault Expr × Parser :=
  let (result, rest) := (Rule.expression maxNesting).run parser.rest
  (result, ⟨rest, parser.position + (parser.rest.length - rest.length)⟩)

def parse (parser : Parser) (diagnostics : Diagnostics) : Option Expr × Parser × Diagnostics :=
  match parser.tryParse with
  | (.ok expr, after) => (some expr, after, diagnostics)
  | (.error fault, after) => (none, after, diagnostics.push fault)

end Parser
end LoxSyntax
