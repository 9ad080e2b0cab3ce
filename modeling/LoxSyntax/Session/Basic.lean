import LoxSyntax.Parse.Parser
import LoxSyntax.Session.Outcome

/-! # Sessions

A session runs source texts one after another under the same settings. It keeps nothing of a run
but its diagnostics, which pile up until they are cleared.
-/

namespace LoxSyntax

structure Session where
  settings : Settings
  diagnostics : Diagnostics
deriving DecidableEq

namespace Session

def new (settings : Settings) : Session := ⟨settings, .empty⟩

/-- Scans a source text and reads one expression from its beginning. Lexical faults are reported in
the order of the text, a syntax fault behind them. -/
def run (session : Session) (source : String) : Outcome × Session :=
  let scan := Scan.ofSource source
  let diagnostics := session.diagnostics.pushAll scan.faults
  let (expression, _, diagnostics) := (Parser.ofTokens scan.tokens).parse diagnostics
  (⟨scan.tokens, scan.stats, expression⟩, { session with diagnostics })

def reset (session : Session) : Session := { session with diagnostics := .empty }

def hadError (session : Session) : Bool := session.diagnostics.hadError

end Session
end LoxSyntax
