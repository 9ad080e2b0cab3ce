import LoxSyntax.Parse.Parser

/-! # Parsing by index

The parser once more, as a machine that could go wrong. It keeps all of its tokens and reads them by
index; it counts the open nestings in a number, which a reading that is abandoned leaves as it is;
and its rules call each other as they like, so that calls come to an end only where they may nest
deeply enough. A token outside the list and a count below zero are breaches. The counters keep a
track of all their values, so that what holds at every moment can be told from what holds in the
end.

That the machine does what `Parser` does, and none of what it could do wrong, is shown in
`LoxSyntax.Proofs.Parse.IndexedRun`.
-/

namespace LoxSyntax

/-- What a parser by index must not do. -/
inductive Breach where
  | outside (index : Nat)
  | belowZero
deriving DecidableEq

/-- What becomes of a call: a value, a breach, or nothing if its calls nest too deeply. -/
abbrev Ending := ExceptT Breach Option

/-- A call, given how deeply its calls may nest, comes to this value and to no breach, as soon as
they may nest deeply enough. A call that goes on forever comes to no value. -/
def Returns {α : Type} (call : Nat → Ending α) (value : α) : Prop :=
  ∃ enough, ∀ limit, enough ≤ limit → call limit = pure value

/-- The numbers that a parser by index goes by. -/
structure Counters where
  /-- The index of the next token. -/
  current : Nat
  /-- How many groupings and unary operators are counted as open. -/
  depth : Nat
deriving DecidableEq

namespace Counters

def advanced (counters : Counters) : Counters := { counters with current := counters.current + 1 }

def nested (counters : Counters) : Counters := { counters with depth := counters.depth + 1 }

def restarted (counters : Counters) : Counters := { counters with depth := 0 }

end Counters

/-- The counters, and all the values that they had before, the last one first. -/
structure Track where
  now : Counters
  earlier : List Counters
deriving DecidableEq

namespace Track

def move (track : Track) (next : Counters) : Track := ⟨next, track.now :: track.earlier⟩

def advance (track : Track) : Track := track.move track.now.advanced

def nest (track : Track) : Track := track.move track.now.nested

/-- Every value that the counters have had, the last one first. -/
def all (track : Track) : List Counters := track.now :: track.earlier

end Track

/-- A reading that goes by the counters. A fault abandons it and leaves the counters as they are. -/
abbrev Reader := ExceptT Fault (StateT Track Ending)

namespace Reader

/-- A breach of the machine, not a fault of the tokens. -/
def breach {α : Type} (kind : Breach) : Reader α := throwThe Breach kind

/-- A call that may not nest any deeper. -/
def tooDeep {α : Type} : Reader α := (none : Option α)

def counters : Reader Counters := return (← get).now

section
variable (tokens : List Token)

def tokenAt (index : Nat) : Reader Token :=
  match tokens[index]? with
  | some token => pure token
  | none => breach (.outside index)

def peek : Reader Token := do tokenAt tokens (← counters).current

def previous : Reader Token := do
  match (← counters).current with
  | 0 => breach .belowZero
  | index + 1 => tokenAt tokens index

def atEnd : Reader Bool := return (← peek tokens).kind = .eof

/-- Consumes the next token unless it is an end marker. -/
def advance : Reader Token := do
  unless ← atEnd tokens do modify Track.advance
  previous tokens

def check (kind : Kind) : Reader Bool := do
  if ← atEnd tokens then return false
  return (← peek tokens).kind = kind

/-- Consumes the next token if it is of one of the kinds. -/
def matchKinds (kinds : List Kind) : Reader Bool := do
  if ← kinds.anyM (check tokens) then
    let _ ← advance tokens
    return true
  return false

def failHere {α : Type} (reason : SyntaxReason) : Reader α := do
  throw (.atToken (← peek tokens) reason)

def consume (kind : Kind) (reason : SyntaxReason) : Reader Token := do
  if ← check tokens kind then advance tokens else failHere tokens reason

def enter : Reader Unit := do
  modify Track.nest
  if maxNesting < (← counters).depth then failHere tokens .tooMuchNesting

def leave : Reader Unit := do
  match ← counters with
  | ⟨_, 0⟩ => breach .belowZero
  | ⟨current, depth + 1⟩ => modify fun track => track.move ⟨current, depth⟩

/-- The value of the first of the kinds that the next token is of; the token is consumed. -/
def constant : List (Kind × Value) → Reader (Option Value)
  | [] => return none
  | (kind, value) :: others => do
    if ← matchKinds tokens [kind] then return some value
    constant others

end

/-- The kinds that are a literal by themselves. -/
def constants : List (Kind × Value) :=
  [(.keyword .falseWord, .bool false), (.keyword .trueWord, .bool true), (.keyword .nilWord, .nil)]

/-- The binary levels, loosest first. -/
def levels : List Level := [.equality, .comparison, .term, .factor]

def operators : Level → List Kind
  | .equality => [.bangEqual, .equalEqual]
  | .comparison => [.greater, .greaterEqual, .less, .lessEqual]
  | .term => [.minus, .plus]
  | .factor => [.slash, .star]
  | .unary => []
  | .primary => []

mutual

/-- Reads an expression of the first of the levels, which the others follow; of the unary level if
there is none. -/
def level (tokens : List Token) : Nat → List Level → Reader Expr
  | 0, _ => tooDeep
  | limit + 1, [] => unary tokens limit
  | limit + 1, loosest :: tighter => do
    let left ← level tokens limit tighter
    joinOn tokens limit loosest tighter left

/-- Reads on behind the left operand, as long as operators of the level come. -/
def joinOn (tokens : List Token) : Nat → Level → List Level → Expr → Reader Expr
  | 0, _, _, _ => tooDeep
  | limit + 1, loosest, tighter, left => do
    if ← matchKinds tokens (operators loosest) then
      let operator ← previous tokens
      let right ← level tokens limit tighter
      joinOn tokens limit loosest tighter (.binary left operator right)
    else return left

def unary (tokens : List Token) : Nat → Reader Expr
  | 0 => tooDeep
  | limit + 1 => do
    if ← matchKinds tokens [.bang, .minus] then
      let operator ← previous tokens
      enter tokens
      let right ← unary tokens limit
      leave
      return .unary operator right
    else primary tokens limit

def primary (tokens : List Token) : Nat → Reader Expr
  | 0 => tooDeep
  | limit + 1 => do
    if let some value ← constant tokens constants then return .literal value
    if ← matchKinds tokens [.number, .string] then
      let token ← previous tokens
      match token.literal with
      | some literal => return .literal literal.value
      | none => throw (.atToken token .literalWithoutValue)
    else if ← matchKinds tokens [.leftParen] then
      enter tokens
      let inner ← level tokens limit levels
      let _ ← consume tokens .rightParen .expectedCloseParen
      leave
      return .grouping inner
    else failHere tokens .expectedExpression

end

/-- Reads one expression. Whatever an earlier reading has left open is forgotten first. -/
def expression (tokens : List Token) (limit : Nat) : Reader Expr := do
  modify fun track => track.move track.now.restarted
  level tokens limit levels

end Reader

/-- A parser by index, between two calls. -/
structure IndexedParser where
  tokens : List Token
  track : Track
  diagnostics : Diagnostics
deriving DecidableEq

/-- What a parser can be asked for. -/
inductive ParserCall where
  | tryParse | parse
deriving DecidableEq

inductive ParserReply where
  | tryParse (result : Except Fault Expr)
  | parse (expression : Option Expr)

/-- The call was answered with an expression. -/
def ParserReply.Succeeds : ParserReply → Prop
  | tryParse result => ∃ expr, result = .ok expr
  | parse expression => ∃ expr, expression = some expr

namespace IndexedParser

def ofTokens (tokens : List Token) (diagnostics : Diagnostics) : IndexedParser :=
  ⟨Parser.withEnd tokens, ⟨⟨0, 0⟩, []⟩, diagnostics⟩

def position (parser : IndexedParser) : Nat := parser.track.now.current

def read {α : Type} (parser : IndexedParser) (reader : Reader α) :
    Ending (Except Fault α × IndexedParser) := do
  let (result, track) ← reader.run.run parser.track
  return (result, { parser with track })

/-- Reads one expression, and hands out the fault if there is none. -/
def tryParse (parser : IndexedParser) (limit : Nat) :
    Ending (Except Fault Expr × IndexedParser) :=
  parser.read (Reader.expression parser.tokens limit)

/-- Reads one expression, and reports the fault if there is none. -/
def parse (parser : IndexedParser) (limit : Nat) : Ending (Option Expr × IndexedParser) := do
  match ← parser.tryParse limit with
  | (.ok expr, after) => return (some expr, after)
  | (.error fault, after) =>
    return (none, { after with diagnostics := after.diagnostics.push fault })

def atEnd (parser : IndexedParser) : Ending (Except Fault Bool × IndexedParser) :=
  parser.read (Reader.atEnd parser.tokens)

def answer (parser : IndexedParser) (call : ParserCall) (limit : Nat) :
    Ending (ParserReply × IndexedParser) :=
  match call with
  | .tryParse => return (← parser.tryParse limit).map .tryParse id
  | .parse => return (← parser.parse limit).map .parse id

def answers (parser : IndexedParser) (calls : List ParserCall) (limit : Nat) :
    Ending (List ParserReply × IndexedParser) :=
  match calls with
  | [] => return ([], parser)
  | call :: calls => do
    let (reply, after) ← parser.answer call limit
    let (replies, last) ← after.answers calls limit
    return (reply :: replies, last)

end IndexedParser
end LoxSyntax
