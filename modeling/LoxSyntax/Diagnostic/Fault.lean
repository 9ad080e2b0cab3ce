import LoxSyntax.Token.Basic

/-! # Faults

What can be wrong with a source text. A lexical fault names the line and, where there is one, the
character or lexeme; scanning goes on after it. A syntax fault points at a place and gives the
reason why no expression can be read there; it abandons the expression. Each fault has one message.
-/

namespace LoxSyntax

/-- Where on its line a fault lies. -/
inductive Location where
  | nowhere
  | atEnd
  | atLexeme (lexeme : String)
deriving DecidableEq

/-- A place as a report shows it, between the word `Error` and the colon. -/
def Location.text : Location → String
  | nowhere => ""
  | atEnd => " at end"
  | atLexeme lexeme => " at \"" ++ lexeme ++ "\""

inductive SyntaxReason where
  | expectedExpression
  | expectedCloseParen
  | tooMuchNesting
  | literalWithoutValue
  | other (message : String)
deriving DecidableEq

def SyntaxReason.message : SyntaxReason → String
  | expectedExpression => "Expected an expression"
  | expectedCloseParen => "Expected \x60)\x60 after expression"
  | tooMuchNesting => "Too much nesting"
  | literalWithoutValue => "Literal token carries no value"
  | other message => message

/-- One thing that is wrong with a source text. -/
inductive Fault where
  | unterminatedString (line : Nat)
  | unterminatedComment (line : Nat)
  | unexpectedCharacter (line : Nat) (character : Char)
  | invalidNumber (line : Nat) (lexeme : String)
  | badSyntax (line : Nat) (location : Location) (reason : SyntaxReason)
deriving DecidableEq

inductive FaultClass where
  | lexical | grammatical
deriving DecidableEq

namespace Fault

def line : Fault → Nat
  | unterminatedString line => line
  | unterminatedComment line => line
  | unexpectedCharacter line _ => line
  | invalidNumber line _ => line
  | badSyntax line _ _ => line

def location : Fault → Location
  | badSyntax _ location _ => location
  | _ => .nowhere

def message : Fault → String
  | unterminatedString _ => "Unterminated string"
  | unterminatedComment _ => "Unterminated comment"
  | unexpectedCharacter _ character => "Unexpected character: " ++ character.toString
  | invalidNumber _ lexeme => "Invalid number: " ++ lexeme
  | badSyntax _ _ reason => reason.message

def category : Fault → FaultClass
  | badSyntax _ _ _ => .grammatical
  | _ => .lexical

/-- The syntax fault at a token: at its lexeme, the end of the input being no lexeme. -/
def atToken (token : Token) (reason : SyntaxReason) : Fault :=
  badSyntax token.line (if token.kind = .eof then .atEnd else .atLexeme token.lexeme) reason

end Fault
end LoxSyntax
