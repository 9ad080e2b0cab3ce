import LoxSyntax.CommandLine.Arguments
import LoxSyntax.CommandLine.Backspace
import LoxSyntax.Session.Basic

/-! # Runs of the command line

A request is answered by a `Transcript`: what is written to the two streams, and the exit status.
Reading files and streams is left to the caller, who hands in what was read.
-/

namespace LoxSyntax.CommandLine

/-- What a run writes, and how it ends. -/
structure Transcript where
  stdout : String
  stderr : String
  status : Nat
deriving DecidableEq

/-- The exit status of a script with a lexical or a syntax fault. -/
def dataError : Nat := 65

/-- The exit status of arguments that make no request. -/
def usageError : Nat := 2

inductive ScriptFault where
  | notFound
  | denied
  | notDirectory
  | isDirectory
  | nameTooLong
  | notText
  | other (cause : String)
deriving DecidableEq

def ScriptFault.cause : ScriptFault → String
  | notFound => "No such file or directory (os error 2)"
  | denied => "Permission denied (os error 13)"
  | notDirectory => "Not a directory (os error 20)"
  | isDirectory => "Is a directory (os error 21)"
  | nameTooLong => "File name too long (os error 36)"
  | notText => "stream did not contain valid UTF-8"
  | other cause => cause

def version : String := "0.1.0"

def versionText : String := "treewalk " ++ version ++ "\n"

def helpText : String :=
  "Treewalk - the scanning and expression-parsing front end of a Lox tree-walking interpreter

Usage: treewalk [OPTIONS] [SCRIPT]

Arguments:
  [SCRIPT]  Script to run

Options:
  -t, --tokens               Print every token before the tree
  -s, --stats                Print scanner position counters
      --json                 Print tokens and tree as JSON
  -n, --notation <NOTATION>  Tree rendering: prefix (lisp) or postfix (rpn) [default: prefix]
      --debug-expression     Render a built-in sample tree and exit
  -h, --help                 Print help
  -V, --version              Print version
"

def diagnosticLines (diagnostics : Diagnostics) : String :=
  diagnostics.toList.foldl (fun out diagnostic => out ++ diagnostic.text ++ "\n") ""

/-- Runs one source text in a session, showing the outcome on one stream and what was reported on
the other. -/
def runSource (session : Session) (source : String) : Transcript × Session :=
  let (outcome, session) := session.run source
  (⟨outcome.render session.settings, diagnosticLines session.diagnostics, 0⟩, session)

/-- Runs a script. That it has faults is said on the stream that does not carry JSON. -/
def runScript (settings : Settings) (source : String) : Transcript :=
  let (shown, session) := runSource (.new settings) source
  if !session.hadError then shown
  else if settings.asJson then
    { shown with stderr := shown.stderr ++ "Errors found.\n", status := dataError }
  else { shown with stdout := shown.stdout ++ "Errors found.\n", status := dataError }

def refuseScript (path : String) (fault : ScriptFault) : Transcript where
  stdout := ""
  stderr := "Error: failed to read script " ++ path ++ "\n\nCaused by:\n    " ++ fault.cause ++ "\n"
  status := 1

/-- Runs the bytes of a script, which have to be UTF-8. -/
def runBytes (settings : Settings) (path : String) (content : Except ScriptFault ByteArray) :
    Transcript :=
  match content with
  | .error fault => refuseScript path fault
  | .ok bytes =>
    match String.fromUTF8? bytes with
    | some source => runScript settings source
    | none => refuseScript path .notText

/-- The lines of an input, each with the newline that ends it. -/
def splitLines (input : List Char) : List (List Char) :=
  input.foldr (fun c lines =>
    match c, lines with
    | '\n', lines => ['\n'] :: lines
    | c, [] => [[c]]
    | c, line :: lines => (c :: line) :: lines) []

/-- The line without its newline and a carriage return before that. -/
def dropNewline (line : List Char) : List Char :=
  match line.reverse with
  | '\n' :: '\r' :: reversed => reversed.reverse
  | '\n' :: reversed => reversed.reverse
  | _ => line

/-- What the prompt runs for a line of input; nothing for a line that is empty once its backspaces
are applied, which ends it. -/
def promptSource? (line : List Char) : Option String :=
  let source := applyBackspaces (dropNewline line)
  if source.isEmpty then none else some (String.ofList source)

/-- Runs one line after another, forgetting the diagnostics of each, up to the first empty line. -/
def runLines (session : Session) : List (List Char) → Transcript
  | [] => ⟨"", "", 0⟩
  | line :: lines =>
    match promptSource? line with
    | none => ⟨"", "", 0⟩
    | some source =>
      let (shown, session) := runSource session source
      let later := runLines session.reset lines
      ⟨shown.stdout ++ later.stdout, shown.stderr ++ later.stderr, later.status⟩

def runPrompt (settings : Settings) (input : String) : Transcript :=
  runLines (.new settings) (splitLines input.toList)

def UsageFault.report (fault : UsageFault) : String :=
  Style.alarm.apply "error:" ++ " " ++ fault.message ++ "\n\nFor more information, try '" ++
    Style.literal.apply OptionName.help.text ++ "'.\n"

/-- The answer to arguments that make no request. The styles are left out. -/
def refuseUsage (fault : UsageFault) : Transcript :=
  ⟨"", plainText fault.report, usageError⟩

/-- Answers a request, given how to read a script and what the standard input holds. -/
def Request.answer (request : Request) (readScript : String → Except ScriptFault ByteArray)
    (input : String) : Transcript :=
  match request with
  | .run settings (some path) => runBytes settings path (readScript path)
  | .run settings none => runPrompt settings input
  | .sample rendering => ⟨rendering.write Expr.sample ++ "\n", "", 0⟩
  | .help => ⟨helpText, "", 0⟩
  | .version => ⟨versionText, "", 0⟩

end LoxSyntax.CommandLine
