import LoxSyntax.Number.Layout
import LoxSyntax.Token.Kind

/-! # Tokens

A token is a piece of a source text that means something: its kind, its own text, the value of a
literal and the line on which it begins. This file also gives the line that lists a token.
-/

namespace LoxSyntax

/-- The value that a number or string token carries; a string stands without its quotes. -/
inductive Literal where
  | number (value : Binary64)
  | string (value : String)
deriving DecidableEq

/-- A token. Lines count from 1. -/
structure Token where
  kind : Kind
  lexeme : String
  literal : Option Literal
  line : Nat
deriving DecidableEq

/-- The text with blanks before it, at least as wide as asked for; a wider text stays whole. -/
def padLeft (width : Nat) (text : String) : String :=
  String.ofList (List.replicate (width - text.length) ' ') ++ text

/-- A literal as a listing shows it: a number with its fraction, a string as it is. -/
def Literal.listing : Literal → String
  | number value => NumberLayout.listing.write value
  | string value => value

namespace Token

/-- A token that carries no literal. -/
def plain (kind : Kind) (lexeme : String) (line : Nat) : Token := ⟨kind, lexeme, none, line⟩

def eof (line : Nat) : Token := plain .eof "" line

/-- The line that lists a token: kind and lexeme right-aligned in columns, then the literal. -/
def listing (token : Token) : String :=
  let literal := match token.literal with
    | some literal => literal.listing
    | none => "None"
  padLeft 13 token.kind.name ++ " " ++ padLeft 10 token.lexeme ++ " " ++ literal

end Token
end LoxSyntax
