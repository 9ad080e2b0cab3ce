import LoxSyntax.Proofs.Parse.Neighbour
import LoxSyntax.Proofs.Session.Report

/-! # Running a written expression

An expression written by the lexemes of its tokens, with any blanks around them, runs to the same
expression without a fault. Neighbours in an expression do not run into one another, but for one
pair: a hyphen directly behind `true`, `false` or `nil` would be part of the word.
-/

namespace LoxSyntax

namespace Lexeme

variable {kind : Kind} {literal : Option Literal} {c : Char} {others : List Char}

/-- No operand begins with a character that could go on with an operator. -/
private theorem head_of_operandStarts (lexeme : Lexeme kind literal (c :: others))
    (begins : kind ∈ Kind.operandStarts) : c ≠ '=' ∧ c ≠ '/' ∧ c ≠ '*' := by
  have notMark (head : Head.of c ≠ .mark) : c ≠ '=' ∧ c ≠ '/' ∧ c ≠ '*' := by
    refine ⟨?_, ?_, ?_⟩ <;> rintro rfl <;> exact head (by decide)
  cases lexeme.byHead with
  | digit head => exact notMark (by simp [head])
  | word head => exact notMark (by simp [head])
  | quote head => exact notMark (by simp [head])
  | mark _ spelled => cases kind <;> cases spelled <;> revert begins <;> decide

/-- What comes behind an operand is a mark. -/
private theorem mark?_of_operandFollows {text : List Char} (lexeme : Lexeme kind literal text)
    (follows : kind ∈ Kind.operandFollows) : kind.mark? = some text := by
  cases lexeme with
  | mark spelled => exact spelled
  | _ => simp [Kind.operandFollows, Kind.binaryOperators] at follows

end Lexeme

/-- Neighbours in an expression do not run into one another, unless a hyphen follows a word. -/
private theorem Kind.Adjoins.goesOn_eq_false {kind next : Kind} {literal : Option Literal}
    {c : Char}
    {others : List Char} (adjoins : kind.Adjoins next) (lexeme : Lexeme next literal (c :: others))
    (apart : ¬ (kind.isKeyword = true ∧ next = .minus)) : kind.goesOn c = false := by
  cases adjoins with
  | begin leads begins =>
    obtain ⟨notEqual, notSlash, notStar⟩ := lexeme.head_of_operandStarts begins
    revert leads
    cases kind <;> simp_all [operandLeads, binaryOperators, goesOn]
  | goOn ends follows =>
    -- Whatever follows an operand is written in one way, so there are few pairs to look at.
    have pairs : ∀ kind ∈ operandEnds, ∀ next ∈ operandFollows,
        ¬ (kind.isKeyword = true ∧ next = .minus) →
          (next.mark?.bind List.head?).any kind.goesOn = false := by
      decide
    have first : next.mark?.bind List.head? = some c := by
      rw [lexeme.mark?_of_operandFollows follows]
      rfl
    have keeps := pairs kind ends next follows apart
    rwa [first, Option.any_some] at keeps

/-- A hyphen directly behind a word would be part of it. -/
def WrittenToken.SparesWord (entry next : WrittenToken) : Prop :=
  entry.token.kind.isKeyword = true → next.token.kind = .minus → entry.gap ≠ []

/-- The tokens of an expression are apart in every layout that keeps hyphens from words. -/
private theorem isChain_apart {written : List WrittenToken}
    (joined : Joined (written.map (·.token)))
    (scanned : ∀ entry ∈ written, entry.token.IsScanned)
    (spares : written.IsChain WrittenToken.SparesWord) : written.IsChain WrittenToken.Apart := by
  have adjoins := (List.isChain_map _).mp joined.chain
  rw [List.isChain_iff_forall_rel_of_append_cons_cons] at adjoins spares ⊢
  intro entry next before behind split gap c leads
  have scannedNext : next.token.IsScanned := scanned next (by simp [split])
  obtain ⟨others, shown⟩ := List.head?_eq_some_iff.mp leads
  rw [Token.IsScanned, shown] at scannedNext
  refine (adjoins split).goesOn_eq_false scannedNext ?_
  rintro ⟨word, hyphen⟩
  exact spares split word hyphen gap

namespace Session

variable {expr : Expr} {front : List Char} {written : List WrittenToken} {source : String}

/-- A source without a fault leaves a session as it was. -/
theorem run_of_faultless {session : Session} {result : Expr} {after : Parser}
    (faultless : (Scan.ofSource source).faults = [])
    (parsed : (Parser.ofTokens (Scan.ofSource source).tokens).tryParse = (.ok result, after)) :
    session.run source =
      (⟨(Scan.ofSource source).tokens, (Scan.ofSource source).stats, some result⟩, session) := by
  simp [run, Parser.parse, parsed, faultless, Diagnostics.pushAll]

/-- The layout of an expression scans without a fault, to tokens that read as the expression up to
lines. -/
theorem tryParse_layOut (ladder : expr.Ladder) (within : expr.nesting ≤ maxNesting)
    (spelled : expr.Spells (written.map (·.token)))
    (scanned : ∀ entry ∈ written, entry.token.IsScanned) (blankFront : IsBlankGap front)
    (blankGaps : ∀ entry ∈ written, IsBlankGap entry.gap)
    (spares : written.IsChain WrittenToken.SparesWord)
    (text : source.toList = layOut front written) :
    ∃ result lexemes last, (Scan.ofSource source).tokens = lexemes ++ [last] ∧ last.kind = .eof ∧
      (Scan.ofSource source).faults = [] ∧ result.lineless = expr.lineless ∧
      (Parser.ofTokens (Scan.ofSource source).tokens).tryParse =
        (.ok result, ⟨[last], lexemes.length⟩) := by
  have readable (entry : WrittenToken) (member : entry ∈ written) : entry.Readable :=
    .of_isBlankGap (scanned entry member) (blankGaps entry member)
  obtain ⟨faultless, lexemes, line, tokens, sameTokens⟩ := readsAs_layOut
    blankFront.spacing.skips readable (isChain_apart (spelled.joined ladder) scanned spares) text
  -- The lines are those of the source, so what is read is the expression on these lines.
  obtain ⟨result, resultSpelled, same⟩ := spelled.relined sameTokens
  refine ⟨result, lexemes, .eof line, tokens, rfl, faultless, same, ?_⟩
  have ends : Kind.eof ∉ Kind.binaryOperators := by decide
  have ahead : (Parser.ofTokens (Scan.ofSource source).tokens).rest = lexemes ++ [.eof line] :=
    (Parser.rest_ofSource source).trans tokens
  rw [Parser.tryParse_of_within (ladder.relined same) resultSpelled ends ahead
    (by rwa [Expr.nesting_eq_of_lineless same])]
  simp [Parser.ofTokens]

/-- An expression within the nesting limit, written by the lexemes of its tokens with any blanks
around them, runs to itself up to lines. Nothing is reported, and every token is consumed but the
end marker. Only a hyphen behind `true`, `false` or `nil` needs a blank before it. -/
theorem run_layOut (settings : Settings) (ladder : expr.Ladder)
    (within : expr.nesting ≤ maxNesting) (spelled : expr.Spells (written.map (·.token)))
    (scanned : ∀ entry ∈ written, entry.token.IsScanned) (blankFront : IsBlankGap front)
    (blankGaps : ∀ entry ∈ written, IsBlankGap entry.gap)
    (spares : written.IsChain WrittenToken.SparesWord)
    (text : source.toList = layOut front written) :
    ∃ result lexemes last,
      ((new settings).run source).1.expression = some result ∧
      result.lineless = expr.lineless ∧
      ((new settings).run source).2.diagnostics.toList = [] ∧
      ((new settings).run source).1.tokens = lexemes ++ [last] ∧ last.kind = .eof ∧
      (Parser.ofTokens ((new settings).run source).1.tokens).tryParse =
        (.ok result, ⟨[last], lexemes.length⟩) := by
  obtain ⟨result, lexemes, last, tokens, marked, faultless, same, parsed⟩ :=
    tryParse_layOut ladder within spelled scanned blankFront blankGaps spares text
  rw [run_of_faultless faultless parsed]
  exact ⟨result, lexemes, last, rfl, same, rfl, tokens, marked, parsed⟩

/-- The tokens of `(nil - 1.5)` on two lines, with the one blank that they need. -/
def brokenLine : List WrittenToken :=
  [⟨.plain .leftParen "(" 1, []⟩, ⟨.plain (.keyword .nilWord) "nil" 1, ['\n']⟩,
    ⟨.plain .minus "-" 2, []⟩, ⟨⟨.number, "1.5", some (.number (.ofDecimal false 15 (-1))), 2⟩, []⟩,
    ⟨.plain .rightParen ")" 2, []⟩]

private theorem isScanned_of_mem_brokenLine : ∀ entry ∈ brokenLine, entry.token.IsScanned := by
  have numeral : Numeral ['1', '.', '5'] :=
    @Numeral.fraction ['1'] ['5'] ⟨by decide, List.all_eq_true.mp rfl⟩
      ⟨by decide, List.all_eq_true.mp rfl⟩
  simp only [brokenLine, List.forall_mem_cons, List.not_mem_nil, false_implies, implies_true,
    and_true]
  exact ⟨.mark rfl, .keyword .nilWord, .mark rfl, .number numeral rfl, .mark rfl⟩

/-- A line break keeps the hyphen from the word, and nothing more is needed between the tokens. -/
theorem run_layOut_brokenLine :
    let expr := Expr.grouping (.binary (.literal .nil) (.plain .minus "-" 2)
      (.literal (.number (.ofDecimal false 15 (-1)))))
    let ran := (new {}).run "(nil\n-1.5)"
    expr.Ladder ∧ expr.nesting ≤ maxNesting ∧ expr.Spells (brokenLine.map (·.token)) ∧
      (∀ entry ∈ brokenLine, entry.token.IsScanned) ∧
      (∀ entry ∈ brokenLine, IsBlankGap entry.gap) ∧
      brokenLine.IsChain WrittenToken.SparesWord ∧
      "(nil\n-1.5)".toList = layOut [] brokenLine ∧
      ∃ result lexemes last,
        ran.1.expression = some result ∧ result.lineless = expr.lineless ∧
        ran.2.diagnostics.toList = [] ∧ ran.1.tokens = lexemes ++ [last] ∧ last.kind = .eof ∧
        (Parser.ofTokens ran.1.tokens).tryParse = (.ok result, ⟨[last], lexemes.length⟩) := by
  intro expr ran
  have ladder : expr.Ladder :=
    .grouping (.binary rfl ⟨.primary, rfl, by decide⟩ ⟨.primary, rfl, by decide⟩
      (.literal _) (.literal _))
  have within : expr.nesting ≤ maxNesting := by decide
  have carried : Token.Carries ⟨.number, "1.5", some (.number (.ofDecimal false 15 (-1))), 2⟩
      (.number (.ofDecimal false 15 (-1))) :=
    @Token.Carries.number _ (.number (.ofDecimal false 15 (-1))) rfl rfl
  have spelled : expr.Spells (brokenLine.map (·.token)) :=
    .grouping rfl rfl (.binary (.literal (.nilWord rfl)) (.literal carried))
  have blankFront : IsBlankGap [] := by simp [IsBlankGap]
  have blankGaps : ∀ entry ∈ brokenLine, IsBlankGap entry.gap := by
    simp [brokenLine, IsBlankGap, isBlank]
  have spares : brokenLine.IsChain WrittenToken.SparesWord := by
    simp [brokenLine, WrittenToken.SparesWord, Token.plain, Kind.isKeyword]
  have text : "(nil\n-1.5)".toList = layOut [] brokenLine := by decide
  exact ⟨ladder, within, spelled, isScanned_of_mem_brokenLine, blankGaps, spares, text,
    run_layOut {} ladder within spelled isScanned_of_mem_brokenLine blankFront blankGaps spares
      text⟩

end Session
end LoxSyntax
