import LoxSyntax.Proofs.Parse.Alike
import LoxSyntax.Proofs.Parse.Relined
import LoxSyntax.Proofs.Scan.Line
import LoxSyntax.Proofs.Session.Report

/-! # Runs of alike sources

White space, comments and line breaks decide on which lines tokens stand, and nothing else. Sources
with the same lexemes are read alike, so their runs give texts that do not differ, in either
notation, and syntax reports that differ at most in their lines.
-/

namespace LoxSyntax

theorem Token.lineless_eq_of_getElem? {tokens others : List Token}
    (same : tokens.map lineless = others.map lineless) {index : Nat} {token other : Token}
    (here : tokens[index]? = some token) (there : others[index]? = some other) :
    token.lineless = other.lineless := by
  have sameIndex := congrArg (·[index]?) same
  simpa [here, there] using sameIndex

theorem Expr.Alike.lineless_eq {tokens others : List Token} {start : Nat} {expr other : Expr}
    (alike : Alike tokens others start expr other)
    (same : tokens.map Token.lineless = others.map Token.lineless) :
    expr.lineless = other.lineless := by
  induction alike with
  | binary _ here there _ ihLeft ihRight =>
    simp only [lineless, ihLeft, Token.lineless_eq_of_getElem? same here there, ihRight]
  | unary here there _ ih => simp only [lineless, Token.lineless_eq_of_getElem? same here there, ih]
  | literal value => rfl
  | grouping _ ih => simp only [lineless, ih]

/-- The text of an expression shows no line. -/
theorem Notation.write_lineless (rendering : Notation) (expr : Expr) :
    rendering.write expr.lineless = rendering.write expr := by
  cases rendering with
  | parenthesized =>
    induction expr with
    | binary left operator right ihLeft ihRight =>
      simp only [write, Expr.lineless, Expr.parenthesized] at ihLeft ihRight ⊢
      rw [ihLeft, ihRight]
      rfl
    | unary operator right ih =>
      simp only [write, Expr.lineless, Expr.parenthesized] at ih ⊢
      rw [ih]
      rfl
    | literal value => rfl
    | grouping inner ih =>
      simp only [write, Expr.lineless, Expr.parenthesized] at ih ⊢
      rw [ih]
  | reversePolish =>
    induction expr with
    | binary left operator right ihLeft ihRight =>
      simp only [write, Expr.lineless, Expr.reversePolish] at ihLeft ihRight ⊢
      rw [ihLeft, ihRight]
      rfl
    | unary operator right ih =>
      simp only [write, Expr.lineless, Expr.reversePolish] at ih ⊢
      rw [ih]
      rfl
    | literal value => rfl
    | grouping inner ih => exact ih

/-- The report on no line in particular. -/
def Diagnostic.lineless (diagnostic : Diagnostic) : Diagnostic := { diagnostic with line := 0 }

private theorem Fault.lineless_atToken {token other : Token}
    (same : token.lineless = other.lineless)
    (reason : SyntaxReason) : (Fault.atToken token reason).toDiagnostic.lineless =
      (Fault.atToken other reason).toDiagnostic.lineless := by
  have kind := Token.kind_eq_of_lineless same
  have lexeme : token.lineless.lexeme = other.lineless.lexeme := congrArg Token.lexeme same
  have lexeme : token.lexeme = other.lexeme := lexeme
  simp only [Fault.atToken, kind, lexeme]
  rfl

private theorem Token.forall₂_sameSense {tokens others : List Token}
    (same : tokens.map lineless = others.map lineless) : List.Forall₂ SameSense tokens others := by
  rw [← List.forall₂_eq_eq_eq, List.forall₂_map_left_iff, List.forall₂_map_right_iff] at same
  exact same.imp fun _ _ => .of_lineless

namespace Session

/-- The runs give the same expression but for the lines of its operators, so the same text in each
notation, or no expression and the same syntax report but for its line. -/
structure RunsAlike (session rival : Session) (source other : String) : Prop where
  expression : (session.run source).1.expression.map Expr.lineless =
    (rival.run other).1.expression.map Expr.lineless
  succeeds : (session.run source).1.expression.isSome = (rival.run other).1.expression.isSome
  text : ∀ rendering : Notation, (session.run source).1.expression.map rendering.write =
    (rival.run other).1.expression.map rendering.write
  reports : ∃ found found' : Option Diagnostic,
    (session.run source).2.diagnostics.toList = session.diagnostics.toList ++
      (Scan.ofSource source).faults.map Fault.toDiagnostic ++ found.toList ∧
    (rival.run other).2.diagnostics.toList = rival.diagnostics.toList ++
      (Scan.ofSource other).faults.map Fault.toDiagnostic ++ found'.toList ∧
    found.map Diagnostic.lineless = found'.map Diagnostic.lineless

/-- What parsers read alike differs at most in lines: an expression, or a fault. -/
theorem lineless_of_readAlike {tokens others : List Token} {start : Nat} {parser running : Parser}
    (alike : ReadAlike tokens others start parser.tryParse.1 running.tryParse.1)
    (same : tokens.map Token.lineless = others.map Token.lineless) :
    parser.tryParse.1.toOption.map Expr.lineless = running.tryParse.1.toOption.map Expr.lineless ∧
      (parser.fault?.map Fault.toDiagnostic).map Diagnostic.lineless =
        (running.fault?.map Fault.toDiagnostic).map Diagnostic.lineless := by
  unfold Parser.fault?
  generalize parser.tryParse.1 = result at alike ⊢
  generalize running.tryParse.1 = result' at alike ⊢
  cases alike with
  | ok alike => exact ⟨congrArg some (alike.lineless_eq same), rfl⟩
  | error here there reason =>
    have sameToken := Token.lineless_eq_of_getElem? same here there
    exact ⟨rfl, congrArg some (Fault.lineless_atToken sameToken reason)⟩

theorem runsAlike (session rival : Session) {source other : String}
    (same : (Scan.ofSource source).tokens.map Token.lineless =
      (Scan.ofSource other).tokens.map Token.lineless) : RunsAlike session rival source other := by
  obtain ⟨_, _, _, alike⟩ :=
    Parser.tryParse_alike (Token.forall₂_sameSense same) (Nat.zero_le _)
  rw [← Parser.rest_ofSource source, ← Parser.rest_ofSource other] at same
  obtain ⟨sameExpr, sameFault⟩ := @lineless_of_readAlike _ _ _ (Parser.ofSource source)
    (Parser.ofSource other) alike same
  have expression : (session.run source).1.expression.map Expr.lineless =
      (rival.run other).1.expression.map Expr.lineless := by
    rwa [run_outcome, run_outcome]
  refine ⟨expression, ?succeeds, ?text, _, _, ?_, ?_, sameFault⟩
  case succeeds => simpa using congrArg Option.isSome expression
  case text =>
    intro rendering
    have written := congrArg (Option.map rendering.write) expression
    simpa [Option.map_map, Function.comp_def, Notation.write_lineless] using written
  all_goals
    rw [toList_diagnostics_run, sourceFaults, List.map_append, Option.toList_map, List.append_assoc]

/-- Layout never changes a result. Where tokens agree in kind and literal, a parser that stands at
the same index of both lists stops at the same index and reads alike; where sources agree in
their lexemes, runs of them are alike. -/
theorem reading_ignores_layout :
    (∀ (tokens others : List Token) (start : Nat), List.Forall₂ Token.SameSense tokens others →
      start ≤ Parser.firstMarker tokens → ∃ stop,
        (Parser.atIndex tokens start).tryParse.2 = Parser.atIndex tokens stop ∧
        (Parser.atIndex others start).tryParse.2 = Parser.atIndex others stop ∧
        ReadAlike (Parser.withEnd tokens) (Parser.withEnd others) start
          (Parser.atIndex tokens start).tryParse.1 (Parser.atIndex others start).tryParse.1) ∧
    ∀ (session rival : Session) (source other : String),
      (Scan.ofSource source).tokens.map Token.lineless =
        (Scan.ofSource other).tokens.map Token.lineless →
      RunsAlike session rival source other := by
  constructor
  · intro tokens others start same bound
    exact Parser.tryParse_alike same bound
  · intro session rival source other same
    exact runsAlike session rival same

/-- A comment and a line break stand between an operator and its operand. -/
theorem reading_ignores_comment :
    List.Forall₂ Token.SameSense
        [.plain .bang "!" 1, .plain (.keyword .nilWord) "nil" 1, .eof 1]
        [.plain .bang "!" 1, .plain (.keyword .nilWord) "nil" 2, .eof 2] ∧
      0 ≤ Parser.firstMarker [.plain .bang "!" 1, .plain (.keyword .nilWord) "nil" 1, .eof 1] ∧
      ReadAlike
        (Parser.withEnd [.plain .bang "!" 1, .plain (.keyword .nilWord) "nil" 1, .eof 1])
        (Parser.withEnd [.plain .bang "!" 1, .plain (.keyword .nilWord) "nil" 2, .eof 2]) 0
        (Parser.ofSource "!nil").tryParse.1 (Parser.ofSource "!//\nnil").tryParse.1 ∧
      (Scan.ofSource "!nil").tokens.map Token.lineless =
        (Scan.ofSource "!//\nnil").tokens.map Token.lineless ∧
      RunsAlike (.new {}) (.new {}) "!nil" "!//\nnil" := by
  have oneLine : Piece.Splits "!nil".toList
      [.token .bang ['!'] none, .token (.keyword .nilWord) ['n', 'i', 'l'] none] :=
    .cons (Piece.cut_eq_iff_leads.mp rfl) (.cons (Piece.cut_eq_iff_leads.mp rfl) .nil)
  have twoLines : Piece.Splits "!//\nnil".toList
      [.token .bang ['!'] none, .comment ['/', '/'], .blank '\n',
        .token (.keyword .nilWord) ['n', 'i', 'l'] none] :=
    .cons (Piece.cut_eq_iff_leads.mp rfl) (.cons (Piece.cut_eq_iff_leads.mp rfl)
      (.cons (Piece.cut_eq_iff_leads.mp rfl) (.cons (Piece.cut_eq_iff_leads.mp rfl) .nil)))
  have tokens : (Scan.ofSource "!nil").tokens =
      [.plain .bang "!" 1, .plain (.keyword .nilWord) "nil" 1, .eof 1] :=
    (Scan.ofSource_of_splits oneLine).1
  have others : (Scan.ofSource "!//\nnil").tokens =
      [.plain .bang "!" 1, .plain (.keyword .nilWord) "nil" 2, .eof 2] :=
    (Scan.ofSource_of_splits twoLines).1
  have same : (Scan.ofSource "!nil").tokens.map Token.lineless =
      (Scan.ofSource "!//\nnil").tokens.map Token.lineless := by
    rw [tokens, others]
    rfl
  have sameSense := Token.forall₂_sameSense same
  obtain ⟨_, _, _, alike⟩ := reading_ignores_layout.1 _ _ 0 sameSense (Nat.zero_le _)
  have runs := reading_ignores_layout.2 (.new {}) (.new {}) _ _ same
  rw [Parser.ofSource, Parser.ofSource]
  rw [tokens, others] at sameSense alike ⊢
  exact ⟨sameSense, Nat.zero_le _, alike, by decide, runs⟩

end Session
end LoxSyntax
