import LoxSyntax.Proofs.Parse.Beginning
import LoxSyntax.Proofs.Scan.Layout
import LoxSyntax.Session.Basic

/-! # What a run reports

A run gives its outcome by the source alone, and it only adds to the diagnostics of its session:
the faults of the scan, and behind them the fault of the reading if there is no expression. Which
these are depends on the source alone, too.
-/

namespace LoxSyntax

/-- The fault of reading on, if no expression is read. -/
def Parser.fault? (parser : Parser) : Option Fault :=
  match parser.tryParse.1 with
  | .ok _ => none
  | .error fault => some fault

/-- The parser before the first token of the source. -/
def Parser.ofSource (source : String) : Parser := ofTokens (Scan.ofSource source).tokens

/-- What is wrong with a source: the faults of its scan, and the fault of reading its tokens. -/
def sourceFaults (source : String) : List Fault :=
  (Scan.ofSource source).faults ++ (Parser.ofSource source).fault?.toList

/-- The end marker of a scan is the last token, so the parser adds none. -/
theorem Parser.rest_ofSource (source : String) :
    (ofSource source).rest = (Scan.ofSource source).tokens := by
  obtain ⟨lexemes, line, tokens, _⟩ := Scan.exists_lexemes source
  rw [ofSource, ofTokens, tokens]
  simp [withEnd, Token.eof, Token.plain]

theorem Parser.parse_eq (parser : Parser) (diagnostics : Diagnostics) :
    parser.parse diagnostics =
      (parser.tryParse.1.toOption, parser.tryParse.2,
        diagnostics.pushAll parser.fault?.toList) := by
  rcases read : parser.tryParse with ⟨result, after⟩
  cases result <;> simp [parse, fault?, read, Diagnostics.pushAll, Except.toOption]

/-- A reading gives either an expression or a fault. -/
theorem Parser.fault?_eq_none_iff (parser : Parser) :
    parser.fault? = none ↔ parser.tryParse.1.toOption ≠ none := by
  unfold fault?
  cases parser.tryParse.1 <;> simp [Except.toOption]

/-- A parser that finds a fault finds it at an operand. -/
theorem Parser.exists_operandFault {parser : Parser} {fault : Fault}
    (failed : fault ∈ parser.fault?) :
    ∃ before behind inner rest, parser.rest = before ++ behind ∧
      Rule.OperandFault inner behind fault rest := by
  rcases read : parser.tryParse with ⟨result, after⟩
  cases result with
  | ok expr => simp [fault?, read] at failed
  | error other =>
    obtain rfl : other = fault := by simpa [fault?, read] using failed
    obtain ⟨before, behind, inner, split, _, met⟩ :=
      Rule.expression_failsAtOperands maxNesting (run_of_tryParse read)
    exact ⟨before, behind, inner, _, split, met⟩

theorem Parser.category_of_mem_fault? {parser : Parser} {fault : Fault}
    (failed : fault ∈ parser.fault?) : fault.category = .grammatical := by
  obtain ⟨before, behind, inner, rest, _, met⟩ := exists_operandFault failed
  cases met <;> rfl

namespace Session

variable (session : Session) (source : String)

theorem run_outcome : (session.run source).1 =
    ⟨(Scan.ofSource source).tokens, (Scan.ofSource source).stats,
      (Parser.ofSource source).tryParse.1.toOption⟩ := by
  rw [run, Parser.parse_eq]
  rfl

theorem run_settings : (session.run source).2.settings = session.settings := rfl

/-- A run adds the faults of its source behind what is there. -/
theorem toList_diagnostics_run : (session.run source).2.diagnostics.toList =
    session.diagnostics.toList ++ (sourceFaults source).map Fault.toDiagnostic := by
  rw [run, Parser.parse_eq]
  simp [sourceFaults, Parser.ofSource]

end Session
end LoxSyntax
