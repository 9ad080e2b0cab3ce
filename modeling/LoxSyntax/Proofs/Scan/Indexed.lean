import LoxSyntax.Proofs.Parse.Indexed
import LoxSyntax.Proofs.Scan.Lazy

/-! # Scanning by index

The scanner once more, as a machine that could go wrong. It keeps all of its source and reads it by
index, a character at a time; it cuts lexemes out of the source by two indices; it counts the block
comments that are open; and its loops go on as long as they like, so that a call comes to an end
only where it may take enough rounds. A character outside the source, a cut that ends before it
starts or outside the source, and a count below zero are breaches. The counters keep a track of all
their values, and of where each pass over a piece began and ended.

That the machine does what `Scanner` does, and none of what it could do wrong, is shown in
`LoxSyntax.Proofs.Scan.IndexedCall`.
-/

namespace LoxSyntax

/-- The numbers that a scanner by index goes by. -/
structure ScanCounters where
  /-- Where the piece begins that is being read, or was read last. -/
  start : Nat
  /-- The index of the next character. -/
  current : Nat
  line : Nat
  /-- The line on which the piece begins. -/
  startLine : Nat
  /-- How many block comments are counted as open. -/
  depth : Nat
deriving DecidableEq

namespace ScanCounters

def advanced (counters : ScanCounters) : ScanCounters :=
  { counters with current := counters.current + 1 }

def newLine (counters : ScanCounters) : ScanCounters := { counters with line := counters.line + 1 }

def begun (counters : ScanCounters) : ScanCounters :=
  { counters with start := counters.current, startLine := counters.line }

def nested (counters : ScanCounters) (depth : Nat) : ScanCounters := { counters with depth }

end ScanCounters

/-- All that changes while a scanner by index goes over its source. -/
structure ScanMemory where
  now : ScanCounters
  /-- The values that the counters had before, the last one first. -/
  earlier : List ScanCounters
  /-- Where each pass over a piece began and where it ended, the last one first. -/
  passes : List (Nat × Nat)
  finished : Bool
  faults : Array Fault
deriving DecidableEq

namespace ScanMemory

def start : ScanMemory := ⟨⟨0, 0, 1, 1, 0⟩, [], [], false, #[]⟩

def move (memory : ScanMemory) (next : ScanCounters) : ScanMemory :=
  { memory with now := next, earlier := memory.now :: memory.earlier }

/-- Every value that the counters have had, the last one first. -/
def all (memory : ScanMemory) : List ScanCounters := memory.now :: memory.earlier

def advance (memory : ScanMemory) : ScanMemory := memory.move memory.now.advanced

def newLine (memory : ScanMemory) : ScanMemory := memory.move memory.now.newLine

def begin (memory : ScanMemory) : ScanMemory := memory.move memory.now.begun

def nest (memory : ScanMemory) (depth : Nat) : ScanMemory := memory.move (memory.now.nested depth)

def report (memory : ScanMemory) (fault : Fault) : ScanMemory :=
  { memory with faults := memory.faults.push fault }

/-- A pass that began at the index ends here. -/
def record (memory : ScanMemory) (index : Nat) : ScanMemory :=
  { memory with passes := (index, memory.now.current) :: memory.passes }

def finish (memory : ScanMemory) : ScanMemory := { memory with finished := true }

end ScanMemory

/-- The kind of a character that is a token whatever follows it. -/
def Kind.single? : Char → Option Kind
  | '(' => some leftParen
  | ')' => some rightParen
  | '\x7b' => some leftBrace
  | '\x7d' => some rightBrace
  | ',' => some comma
  | '.' => some dot
  | '-' => some minus
  | '+' => some plus
  | ';' => some semicolon
  | '*' => some star
  | _ => none

/-- The kinds of a character that is one operator alone and another before `=`. -/
def Kind.widened? : Char → Option (Kind × Kind)
  | '!' => some (bang, bangEqual)
  | '=' => some (equal, equalEqual)
  | '<' => some (less, lessEqual)
  | '>' => some (greater, greaterEqual)
  | _ => none

/-- A walk over the source that goes by the counters. -/
abbrev Walker := StateT ScanMemory Ending

namespace Walker

def breach {α : Type} (kind : Breach) : Walker α := throwThe Breach kind

/-- A loop that may take no more rounds. -/
def tooLong {α : Type} : Walker α := (none : Option α)

def counters : Walker ScanCounters := return (← get).now

section
variable (source : List Char)

def atEnd : Walker Bool := return decide (source.length ≤ (← counters).current)

def charAt (index : Nat) : Walker Char :=
  match source[index]? with
  | some c => pure c
  | none => breach (.outside index)

def advance : Walker Char := do
  let c ← charAt source (← counters).current
  modify ScanMemory.advance
  return c

/-- The next character, or the null character at the end. -/
def peek : Walker Char := do
  if ← atEnd source then return '\x00' else charAt source (← counters).current

/-- The character behind the next one, or the null character if there is none. -/
def peekNext : Walker Char := do
  let index := (← counters).current + 1
  if source.length ≤ index then return '\x00' else charAt source index

/-- Reads the next character if it is the expected one. -/
def matchChar (expected : Char) : Walker Bool := do
  if ← atEnd source then return false
  else if (← charAt source (← counters).current) ≠ expected then return false
  else
    modify ScanMemory.advance
    return true

/-- These two characters come next. -/
def sees (first second : Char) : Walker Bool := do
  if (← peek source) = first then return (← peekNext source) = second else return false

def slice (first last : Nat) : Walker (List Char) :=
  if first ≤ last ∧ last ≤ source.length then pure (source.extract first last)
  else breach (.outside last)

def lexeme : Walker (List Char) := do
  let counters ← counters
  slice source counters.start counters.current

/-- The token whose lexeme has been read. -/
def token (kind : Kind) (literal : Option Literal) : Walker (Option Token) := do
  let text ← lexeme source
  return some ⟨kind, String.ofList text, literal, (← counters).startLine⟩

/-- Takes rounds for as long as the condition holds. -/
def repeatWhile (condition : Walker Bool) (round : Walker Unit) : Nat → Walker Unit
  | 0 => tooLong
  | limit + 1 => do
    if ← condition then
      round
      repeatWhile condition round limit
    else return ()

/-- The next character is there and is not this one. -/
def awaits (c : Char) : Walker Bool := do
  if ← atEnd source then return false else return (← peek source) ≠ c

def skip : Walker Unit := do let _ ← advance source

def skipAnywhere : Walker Unit := do
  if (← peek source) = '\n' then modify ScanMemory.newLine
  skip source

def skipLineComment : Nat → Walker Unit := repeatWhile (awaits source '\n') (skip source)

def enter : Walker Unit := do
  let depth := (← counters).depth
  modify (·.nest (depth + 1))

def leave : Walker Unit := do
  match (← counters).depth with
  | 0 => breach .belowZero
  | depth + 1 => modify (·.nest depth)

/-- Reads a delimiter of block comments and counts it, or reads one other character. -/
def commentRound : Walker Unit := do
  if ← sees source '*' '/' then
    skip source
    skip source
    leave
  else if ← sees source '/' '*' then
    skip source
    skip source
    enter
  else skipAnywhere source

/-- Reads on until no block comment is open, or up to the end. -/
def closeComments : Nat → Walker Unit
  | 0 => tooLong
  | limit + 1 => do
    if (← counters).depth = 0 then return ()
    else if ← atEnd source then
      let line := (← counters).line
      modify (·.report (.unterminatedComment line))
    else
      commentRound source
      closeComments limit

def skipBlockComment (limit : Nat) : Walker Unit := do
  modify (·.nest 1)
  closeComments source limit

def scanString (limit : Nat) : Walker (Option Token) := do
  repeatWhile (awaits source '"') (skipAnywhere source) limit
  if ← atEnd source then
    let line := (← counters).line
    modify (·.report (.unterminatedString line))
    return none
  else
    skip source
    let ⟨start, current, _, _, _⟩ ← counters
    match current with
    | 0 => breach .belowZero
    | last + 1 =>
      let value ← slice source (start + 1) last
      token source .string (some (.string (String.ofList value)))

def skipDigits : Nat → Walker Unit :=
  repeatWhile (return (← peek source).isDigit) (skip source)

/-- A point comes next and a digit behind it. -/
def seesFraction : Walker Bool := do
  if (← peek source) = '.' then return (← peekNext source).isDigit else return false

def skipNumeral (limit : Nat) : Walker Unit := do
  skipDigits source limit
  if ← seesFraction source then
    skip source
    skipDigits source limit

def scanNumber (limit : Nat) : Walker (Option Token) := do
  skipNumeral source limit
  let text ← lexeme source
  match Binary64.ofNumeral? text with
  | some value => token source .number (some (.number value))
  | none =>
    let line := (← counters).startLine
    modify (·.report (.invalidNumber line (String.ofList text)))
    return none

def scanWord (limit : Nat) : Walker (Option Token) := do
  repeatWhile (return isWordPart (← peek source)) (skip source) limit
  let text ← lexeme source
  token source (.ofWord (String.ofList text)) none

/-- Behind a slash, which begins a comment or is a token. -/
def scanSlash (limit : Nat) : Walker (Option Token) := do
  if ← matchChar source '/' then
    skipLineComment source limit
    return none
  else if ← matchChar source '*' then
    skipBlockComment source limit
    return none
  else token source .slash none

/-- Reads a piece; gives the token if it is one. -/
def scanPiece (limit : Nat) : Walker (Option Token) := do
  let c ← advance source
  match Kind.single? c, Kind.widened? c with
  | some kind, _ => token source kind none
  | none, some (alone, joined) =>
    if ← matchChar source '=' then token source joined none else token source alone none
  | none, none =>
    if c = '/' then scanSlash source limit
    else if c = ' ' ∨ c = '\r' ∨ c = '\t' then return none
    else if c = '\n' then
      modify ScanMemory.newLine
      return none
    else if c = '"' then scanString source limit
    else if c.isDigit then scanNumber source limit
    -- A hyphen is a token, so no word begins with one.
    else if isWordStart c ∨ c = '-' then scanWord source limit
    else
      let line := (← counters).line
      modify (·.report (.unexpectedCharacter line c))
      return none

/-- One pass: a piece begins and is read. -/
def pass (limit : Nat) : Walker (Option Token) := do
  let index := (← counters).current
  modify ScanMemory.begin
  let token? ← scanPiece source limit
  modify (·.record index)
  return token?

/-- Passes over pieces up to a token, or up to the end. -/
def scanOn : Nat → Walker (Option Token)
  | 0 => tooLong
  | limit + 1 => do
    if ← atEnd source then
      modify ScanMemory.finish
      return some (.eof (← counters).line)
    else
      match ← pass source limit with
      | some token => return some token
      | none => scanOn limit

def next (limit : Nat) : Walker (Option Token) := do
  if (← get).finished then return none else scanOn source limit

def rest : Nat → Walker (List Token)
  | 0 => tooLong
  | limit + 1 => do
    match ← next source limit with
    | none => return []
    | some token => return token :: (← rest limit)

def stats : Walker ScanStats := do
  let counters ← counters
  return ⟨source.length, counters.start, counters.current, counters.line⟩

def answer (call : Scanner.Call) (limit : Nat) : Walker Scanner.Reply :=
  match call with
  | .next => return .next (← next source limit)
  | .rest => return .rest (← rest source limit)
  | .stats => return .stats (← stats source)

def answers (limit : Nat) : List Scanner.Call → Walker (List Scanner.Reply)
  | [] => return []
  | call :: calls => do
    let reply ← answer source call limit
    return reply :: (← answers limit calls)

end
end Walker
end LoxSyntax
