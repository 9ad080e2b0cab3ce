import LoxSyntax.Token.Keyword

/-! # Token kinds

What a token is: a mark of punctuation, an operator, a literal, an identifier, a keyword or the end
of the input. Each kind has a tag, by which data refers to it, and a name, by which listings show
it; the name is the tag in upper case with an underscore between its words.
-/

namespace LoxSyntax

inductive Kind where
  | leftParen | rightParen | leftBrace | rightBrace | comma | dot | minus | plus | semicolon
  | slash | star
  | bang | bangEqual | equal | equalEqual | greater | greaterEqual | less | lessEqual
  | identifier | string | number
  | keyword (word : Keyword)
  | eof
deriving DecidableEq

namespace Kind

/-- The kind of a character that is a token by itself, if no longer token begins with it. -/
def ofChar? : Char → Option Kind
  | '(' => some leftParen
  | ')' => some rightParen
  | '\x7b' => some leftBrace
  | '\x7d' => some rightBrace
  | ',' => some comma
  | '.' => some dot
  | '-' => some minus
  | '+' => some plus
  | ';' => some semicolon
  | '/' => some slash
  | '*' => some star
  | '!' => some bang
  | '=' => some equal
  | '>' => some greater
  | '<' => some less
  | _ => none

/-- The kind of two characters that are one operator. -/
def ofPair? : Char → Char → Option Kind
  | '!', '=' => some bangEqual
  | '=', '=' => some equalEqual
  | '>', '=' => some greaterEqual
  | '<', '=' => some lessEqual
  | _, _ => none

/-- The kind of an identifier's whole run of characters: a keyword or a plain identifier. -/
def ofWord (text : String) : Kind :=
  match Keyword.ofText? text with
  | some word => keyword word
  | none => identifier

/-- Every kind, keywords included. -/
def all : List Kind :=
  [leftParen, rightParen, leftBrace, rightBrace, comma, dot, minus, plus, semicolon, slash, star,
    bang, bangEqual, equal, equalEqual, greater, greaterEqual, less, lessEqual,
    identifier, string, number] ++ Keyword.all.map keyword ++ [eof]

def isKeyword : Kind → Bool
  | keyword _ => true
  | _ => false

def tag : Kind → String
  | leftParen => "LeftParen"
  | rightParen => "RightParen"
  | leftBrace => "LeftBrace"
  | rightBrace => "RightBrace"
  | comma => "Comma"
  | dot => "Dot"
  | minus => "Minus"
  | plus => "Plus"
  | semicolon => "Semicolon"
  | slash => "Slash"
  | star => "Star"
  | bang => "Bang"
  | bangEqual => "BangEqual"
  | equal => "Equal"
  | equalEqual => "EqualEqual"
  | greater => "Greater"
  | greaterEqual => "GreaterEqual"
  | less => "Less"
  | lessEqual => "LessEqual"
  | identifier => "Identifier"
  | string => "String"
  | number => "Number"
  | keyword word => word.tag
  | eof => "Eof"

/-- The word by which a listing shows a kind: `EQUAL_EQUAL` for the tag `EqualEqual`. -/
def name (kind : Kind) : String :=
  match kind.tag.toList with
  | [] => ""
  | first :: others =>
    String.ofList (first :: others.flatMap fun c => if c.isUpper then ['_', c] else [c.toUpper])

def ofTag? (tag : String) : Option Kind :=
  all.find? fun kind => kind.tag = tag

theorem mem_all (kind : Kind) : kind ∈ all := by
  cases kind with
  | keyword word => cases word <;> decide
  | _ => decide

theorem ofTag?_eq_some_iff {tag : String} {kind : Kind} :
    ofTag? tag = some kind ↔ kind.tag = tag := by
  constructor
  · intro found
    simpa using List.find?_some found
  · rintro rfl
    have readable : ∀ other ∈ all, ofTag? other.tag = some other := by decide
    exact readable kind (mem_all kind)

end Kind
end LoxSyntax
