import LoxSyntax.CommandLine.StyledText
import LoxSyntax.Session.Outcome

/-! # Arguments

The arguments of the command line are read from left to right into a `Request`. Options have long
and short names, short ones may be joined, and `--` ends them. A value that has been given is
looked at only when the next argument that means something is reached, or at the end, so that an
argument which means nothing is complained of first. What a request does is left to
`LoxSyntax.CommandLine.Run`.
-/

namespace LoxSyntax.CommandLine

/-- What the command line asks for. -/
inductive Request where
  | run (settings : Settings) (script : Option String)
  | sample (rendering : Notation)
  | help
  | version
deriving DecidableEq

inductive Switch where
  | tokens | stats | json | sample
deriving DecidableEq

inductive OptionName where
  | switch (switch : Switch)
  | rendering
  | help
  | version
deriving DecidableEq

namespace OptionName

def ofLong? : String → Option OptionName
  | "tokens" => some (switch .tokens)
  | "stats" => some (switch .stats)
  | "json" => some (switch .json)
  | "debug-expression" => some (switch .sample)
  | "notation" => some rendering
  | "help" => some help
  | "version" => some version
  | _ => none

def ofShort? : Char → Option OptionName
  | 't' => some (switch .tokens)
  | 's' => some (switch .stats)
  | 'n' => some rendering
  | 'h' => some help
  | 'V' => some version
  | _ => none

/-- The option as a message shows it, with a word for its value. -/
def text : OptionName → String
  | switch .tokens => "--tokens"
  | switch .stats => "--stats"
  | switch .json => "--json"
  | switch .sample => "--debug-expression"
  | rendering => "--notation <NOTATION>"
  | help => "--help"
  | version => "--version"

end OptionName

inductive UsageFault where
  | invalidRendering (value reason : String)
  | unexpectedArgument (argument : String)
  | repeated (option : OptionName)
  | missingRendering
  | emptyScript
  | unexpectedValue (value : String) (option : OptionName)
deriving DecidableEq

/-- The message, which styles what was given and the names of options. The reason is left as it is,
whatever it quotes. -/
def UsageFault.message : UsageFault → String
  | invalidRendering value reason =>
    "invalid value '" ++ Style.culprit.apply value ++ "' for '" ++
      Style.literal.apply OptionName.rendering.text ++ "': " ++ reason
  | unexpectedArgument argument =>
    "unexpected argument '" ++ Style.culprit.apply argument ++ "' found"
  | repeated option =>
    "the argument '" ++ Style.culprit.apply option.text ++ "' cannot be used multiple times"
  | missingRendering =>
    "a value is required for '" ++ Style.literal.apply OptionName.rendering.text ++
      "' but none was supplied"
  | emptyScript =>
    "a value is required for '" ++ Style.literal.apply "[SCRIPT]" ++ "' but none was supplied"
  | unexpectedValue value option =>
    "unexpected value '" ++ Style.culprit.apply value ++ "' for '" ++
      Style.literal.apply option.text ++ "' found; no more were expected"

/-- Why reading the arguments ends before the last one. -/
inductive Stop where
  | fault (fault : UsageFault)
  | asked (request : Request)
deriving DecidableEq

/-- What has been given but not yet looked at. -/
inductive Pending where
  | nothing
  | renderingWithoutValue
  | rendering (value : String)
  | script (path : String)
deriving DecidableEq

/-- The request so far. -/
structure Draft where
  switches : List Switch := []
  rendering : Option Notation := none
  script : Option String := none
  pending : Pending := .nothing
  /-- Options have ended. -/
  trailing : Bool := false
deriving DecidableEq

namespace Draft

def chooseRendering (draft : Draft) (value : String) : Except Stop Draft :=
  if draft.rendering.isSome then .error (.fault (.repeated .rendering))
  else
    match Notation.ofText value with
    | .ok rendering => .ok { draft with rendering := some rendering }
    | .error reason => .error (.fault (.invalidRendering value reason))

/-- Looks at what is pending. -/
def settle (draft : Draft) : Except Stop Draft :=
  match draft.pending with
  | .nothing => .ok draft
  | .renderingWithoutValue => .error (.fault .missingRendering)
  | .rendering value => { draft with pending := .nothing }.chooseRendering value
  | .script path =>
    if path = "" then .error (.fault .emptyScript)
    else .ok { draft with pending := .nothing, script := some path }

def turnOn (draft : Draft) (switch : Switch) : Except Stop Draft :=
  if switch ∈ draft.switches then .error (.fault (.repeated (.switch switch)))
  else .ok { draft with switches := draft.switches ++ [switch] }

def giveBare (draft : Draft) (option : OptionName) : Except Stop Draft := do
  let draft ← draft.settle
  match option with
  | .switch switch => draft.turnOn switch
  | .rendering => .ok { draft with pending := .renderingWithoutValue }
  | .help => .error (.asked .help)
  | .version => .error (.asked .version)

def giveRendering (draft : Draft) (value : String) : Except Stop Draft := do
  let draft ← draft.settle
  draft.chooseRendering value

/-- A long option, behind its hyphens: a name, and a value behind the first `=` if there is one. -/
def giveLong (draft : Draft) (body : List Char) : Except Stop Draft :=
  let name := String.ofList (body.takeWhile (· != '='))
  match OptionName.ofLong? name, body.dropWhile (· != '=') with
  | none, _ => .error (.fault (.unexpectedArgument ("--" ++ name)))
  | some option, [] => draft.giveBare option
  | some .rendering, _ :: value => draft.giveRendering (String.ofList value)
  | some option, _ :: value =>
    .error (.fault (.unexpectedValue (String.ofList value) option))

/-- Joined short options, behind their hyphen. The notation takes what stands behind its letter as
its value, without an `=` in front. -/
def giveShort (draft : Draft) : List Char → Except Stop Draft
  | [] => .ok draft
  | letter :: letters =>
    match OptionName.ofShort? letter, letters with
    | none, _ => .error (.fault (.unexpectedArgument ("-" ++ letter.toString)))
    | some .rendering, [] => draft.giveBare .rendering
    | some .rendering, '=' :: value => draft.giveRendering (String.ofList value)
    | some .rendering, value => draft.giveRendering (String.ofList value)
    | some option, letters => do
      let draft ← draft.giveBare option
      draft.giveShort letters

/-- An argument that is no option. There is room for one, the script. -/
def givePositional (draft : Draft) (argument : String) : Except Stop Draft := do
  let isTaken := match draft.pending with
    | .script _ => true
    | _ => draft.script.isSome
  if isTaken then .error (.fault (.unexpectedArgument argument))
  else
    let draft ← draft.settle
    return { draft with pending := .script argument }

/-- The next argument. A single hyphen is no option. -/
def give (draft : Draft) (argument : String) : Except Stop Draft :=
  if draft.trailing then draft.givePositional argument
  else
    match argument.toList with
    | ['-', '-'] => .ok { draft with trailing := true }
    | '-' :: '-' :: body => draft.giveLong body
    | '-' :: letter :: letters => draft.giveShort (letter :: letters)
    | _ =>
      if draft.pending = .renderingWithoutValue then
        .ok { draft with pending := .rendering argument }
      else draft.givePositional argument

/-- The request of a draft that is complete. The sample needs no script. -/
def request (draft : Draft) : Request :=
  let rendering := draft.rendering.getD .parenthesized
  if .sample ∈ draft.switches then .sample rendering
  else
    let settings := {
      rendering
      listsTokens := .tokens ∈ draft.switches
      showsStats := .stats ∈ draft.switches
      asJson := .json ∈ draft.switches }
    .run settings draft.script

end Draft

def Request.ofArguments (arguments : List String) : Except UsageFault Request :=
  match (arguments.foldlM Draft.give {}).bind Draft.settle with
  | .ok draft => .ok draft.request
  | .error (.asked request) => .ok request
  | .error (.fault fault) => .error fault

end LoxSyntax.CommandLine
