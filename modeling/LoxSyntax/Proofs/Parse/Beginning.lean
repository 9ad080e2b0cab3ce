import LoxSyntax.Proofs.Parse.Soundness

/-! # Beginnings of expressions

Which token lists begin an expression, however deep, and how they can go on. A reading that fails
has stopped inside an operand, and `Rule.AtOperand` says what the tokens before it are: any operand
goes on from there to an expression, and any fault of reading one is the fault of the whole reading.
`Rule.expression_failsAtOperands` finds this place for every failing run.
-/

namespace LoxSyntax

/-- The kinds with which an operand can begin. -/
def Kind.operandStarts : List Kind :=
  [bang, minus, leftParen, keyword .falseWord, keyword .trueWord, keyword .nilWord, number, string]

/-- The tokens spell an expression, however deep. -/
def SpellsExpression (tokens : List Token) : Prop := ∃ expr : Expr, expr.Ladder ∧ expr.Spells tokens

/-- The tokens can go on to an expression. -/
def BeginsExpression (tokens : List Token) : Prop := ∃ more, SpellsExpression (tokens ++ more)

/-- The tokens end where an operand must come: they begin an expression, but only with a token that
begins an operand behind them. -/
structure AwaitsOperand (tokens : List Token) : Prop where
  begins : BeginsExpression tokens
  next : ∀ token, BeginsExpression (tokens ++ [token]) → token.kind ∈ Kind.operandStarts

/-- The tokens end in a complete expression inside an open parenthesis. -/
def EndsInsideParen (tokens : List Token) : Prop :=
  ∃ before opening inner, tokens = before ++ opening :: inner ∧ AwaitsOperand before ∧
    opening.kind = .leftParen ∧ SpellsExpression inner

theorem Rule.literal?_eq_none_iff (token : Token) (notUnary : token.kind.isUnaryOperator = false)
    (notParen : token.kind ≠ .leftParen) :
    literal? token = none ↔ token.kind ∉ Kind.operandStarts := by
  unfold literal?
  cases kind : token.kind with
  | keyword word => cases word <;> simp [Kind.operandStarts]
  | _ => simp_all [Kind.operandStarts, Kind.isUnaryOperator]

namespace Rule

/-- The reading of an operand fails here, and not inside an operand that is nested in it. -/
inductive OperandFault : (allowance : Nat) → List Token → Fault → List Token → Prop where
  | misplaced {allowance : Nat} {tokens : List Token}
      (start : (nextToken tokens).kind ∉ Kind.operandStarts) :
      OperandFault allowance tokens (.atToken (nextToken tokens) .expectedExpression) tokens
  | unclosed {allowance : Nat} {opening : Token} {inner : Expr} {between rest : List Token}
      (opens : opening.kind = .leftParen) (ladder : inner.Ladder) (spelled : inner.Spells between)
      (within : inner.nesting ≤ allowance) (stops : (nextToken rest).Stops 0)
      (unclosed : (nextToken rest).kind ≠ .rightParen) :
      OperandFault (allowance + 1) (opening :: (between ++ rest))
        (.atToken (nextToken rest) .expectedCloseParen) rest
  | beyond {opening : Token} {rest : List Token}
      (opens : opening.kind = .leftParen ∨ opening.kind.isUnaryOperator = true) :
      OperandFault 0 (opening :: rest) (.atToken (nextToken rest) .tooMuchNesting) rest
  | valueless {allowance : Nat} {token : Token} {rest : List Token}
      (kind : token.kind = .number ∨ token.kind = .string) (missing : token.literal = none) :
      OperandFault allowance (token :: rest) (.atToken token .literalWithoutValue) rest

variable {allowance rank inner : Nat} {rule : Rule} {before tokens rest : List Token}
  {fault : Fault}

theorem runOperand_misplaced {nested : Option Rule}
    (start : (nextToken tokens).kind ∉ Kind.operandStarts) :
    runOperand nested tokens = .failAt .expectedExpression tokens := by
  cases tokens with
  | nil => rfl
  | cons token tokens =>
    have notUnary : token.kind.isUnaryOperator = false := by
      cases kind : token.kind <;> simp_all [nextToken, Kind.operandStarts, Kind.isUnaryOperator]
    have notParen : token.kind ≠ .leftParen := by
      rintro kind
      simp [nextToken, kind, Kind.operandStarts] at start
    have notLiteral := (literal?_eq_none_iff token notUnary notParen).mpr start
    simp [runOperand, notUnary, notParen, notLiteral]

theorem runOperand_valueless {nested : Option Rule} {token : Token}
    (kind : token.kind = .number ∨ token.kind = .string) (missing : token.literal = none) :
    runOperand nested (token :: rest) = (.error (.atToken token .literalWithoutValue), rest) := by
  have found := (literal?_eq_some_none_iff token).mpr ⟨kind, missing⟩
  have plain : token.kind.isUnaryOperator = false ∧ token.kind ≠ .leftParen := by
    rcases kind with kind | kind <;> simp [kind, Kind.isUnaryOperator]
  simp [runOperand, plain, found]

theorem underParen_unclosed {expr : Expr} (read : rule.ladder.run tokens = (.ok expr, rest))
    (unclosed : (nextToken rest).kind ≠ .rightParen) :
    underParen (some rule) tokens = .failAt .expectedCloseParen rest := by
  simp only [underParen, read]
  cases rest with
  | nil => rfl
  | cons closing rest => exact if_neg unclosed

/-- Reading the tokens meets the fault. -/
theorem OperandFault.run (met : OperandFault allowance tokens fault rest) :
    (operand allowance).run tokens = (.error fault, rest) := by
  cases met with
  | misplaced start => cases allowance <;> exact runOperand_misplaced start
  | @unclosed allowance opening inner between rest opens ladder spelled within stops unclosed =>
    have read : (operand allowance).ladder.run (between ++ rest) = (.ok inner, rest) :=
      spelled.expression_run ladder within stops
    rw [operand_succ_run, runOperand_paren opens]
    exact underParen_unclosed read unclosed
  | beyond opens =>
    rcases opens with opens | stands
    · exact runOperand_paren opens
    · exact runOperand_unary stands
  | valueless kind missing => cases allowance <;> exact runOperand_valueless kind missing

/-- Having consumed the tokens, the rule reads an operand in which so many nestings may be opened.
The reading fails as this operand does, and goes on to an expression behind any operand. -/
structure AtOperand (rank : Nat) (rule : Rule) (before : List Token) (inner : Nat) : Prop where
  fails : ∀ {tokens rest : List Token} {fault : Fault},
    (operand inner).run tokens = (.error fault, rest) →
      rule.run (before ++ tokens) = (.error fault, rest)
  completes : ∀ {nested : Expr} {tokens : List Token}, nested.Ladder →
    nested.Reaches Level.unary.rank → nested.Spells tokens →
      ∃ whole : Expr, ∃ more, whole.Ladder ∧ whole.Reaches rank ∧
        whole.Spells (before ++ tokens ++ more)

namespace AtOperand

theorem here (allowance : Nat) :
    AtOperand Level.unary.rank (operand allowance) [] allowance where
  fails failed := failed
  completes ladder reached spelled := ⟨_, [], ladder, reached, by simpa using spelled⟩

/-- The operand stands in the first operand of a level. -/
theorem first {level : Level} (place : AtOperand (level.rank + 1) rule before inner) :
    AtOperand level.rank (rule.chain level) before inner where
  fails failed := chain_run_of_error (place.fails failed)
  completes ladder reached spelled := by
    obtain ⟨whole, more, ladder, reached, spelled⟩ := place.completes ladder reached spelled
    exact ⟨whole, more, ladder, reached.mono (Nat.le_succ _), spelled⟩

/-- The operand stands in an operand to the right of an operator of the level. -/
theorem right {level : Level} {left : Expr} {operator : Token} {spelling : List Token}
    (completes : rule.Completes allowance (level.rank + 1))
    (joins : operator.kind.binaryLevel? = some level) (ladder : left.Ladder)
    (reached : left.Reaches level.rank) (spelled : left.Spells spelling)
    (within : left.nesting ≤ allowance)
    (place : AtOperand (level.rank + 1) rule before inner) :
    AtOperand level.rank (rule.chain level) (spelling ++ operator :: before) inner where
  fails {tokens rest fault} failed := by
    have stops : (nextToken (operator :: (before ++ tokens))).Stops (level.rank + 1) :=
      Token.stops_of_binaryLevel? joins
    have binary := Kind.rank_lt_of_binaryLevel? joins
    rw [List.append_assoc, List.cons_append,
      chain_run_of_spells completes binary ladder reached spelled stops, Expr.bounded_of_le within]
    exact joinRight_of_error joins (place.fails failed)
  completes nestedLadder nestedReached nestedSpelled := by
    obtain ⟨whole, more, wholeLadder, wholeReached, wholeSpelled⟩ :=
      place.completes nestedLadder nestedReached nestedSpelled
    refine ⟨.binary left operator whole, more, .binary joins reached wholeReached ladder wholeLadder,
      ⟨level, joins, Nat.le_refl _⟩, ?_⟩
    simpa using Expr.Spells.binary spelled wholeSpelled

private theorem underUnary {operator : Token} (stands : operator.kind.isUnaryOperator = true)
    (place : AtOperand Level.unary.rank (operand allowance) before inner) :
    AtOperand Level.unary.rank (operand (allowance + 1)) (operator :: before) inner where
  fails failed := by
    rw [List.cons_append, operand_succ_run, runOperand_unary stands]
    simp [underOperator, place.fails failed]
  completes ladder reached spelled := by
    obtain ⟨whole, more, wholeLadder, wholeReached, wholeSpelled⟩ :=
      place.completes ladder reached spelled
    exact ⟨.unary operator whole, more, .unary stands wholeReached wholeLadder,
      ⟨.unary, rfl, Nat.le_refl _⟩, .unary wholeSpelled⟩

private theorem insideParen {opening : Token} (opens : opening.kind = .leftParen)
    (place : AtOperand 0 (expression allowance) before inner) :
    AtOperand Level.unary.rank (operand (allowance + 1)) (opening :: before) inner where
  fails {tokens rest fault} failed := by
    have reading : (operand allowance).ladder.run (before ++ tokens) = (.error fault, rest) :=
      place.fails failed
    rw [List.cons_append, operand_succ_run, runOperand_paren opens]
    simp [underParen, reading]
  completes ladder reached spelled := by
    obtain ⟨whole, more, wholeLadder, _, wholeSpelled⟩ := place.completes ladder reached spelled
    refine ⟨.grouping whole, more ++ [.plain .rightParen ")" 1], .grouping wholeLadder,
      ⟨.primary, rfl, by decide⟩, ?_⟩
    rw [← List.append_assoc]
    exact .grouping opens rfl wholeSpelled

end AtOperand

/-- The reading of the tokens fails at some operand. -/
def FailsAtOperand (rank : Nat) (rule : Rule) (tokens : List Token) (fault : Fault)
    (rest : List Token) : Prop :=
  ∃ before behind inner, tokens = before ++ behind ∧ AtOperand rank rule before inner ∧
    OperandFault inner behind fault rest

/-- Whenever the rule fails, it does so at an operand. -/
def FailsAtOperands (rank : Nat) (rule : Rule) : Prop :=
  ∀ {tokens rest : List Token} {fault : Fault}, rule.run tokens = (.error fault, rest) →
    FailsAtOperand rank rule tokens fault rest

/-- The loop of a level fails at an operand to the right of one of its operators. -/
theorem joinRight_failsAtOperand {operand : Rule} {level : Level} {left : Expr}
    (sound : operand.Sound allowance (level.rank + 1))
    (completes : operand.Completes allowance (level.rank + 1))
    (fails : operand.FailsAtOperands (level.rank + 1)) (ladder : left.Ladder)
    (reached : left.Reaches level.rank) (spelled : left.Spells before)
    (within : left.nesting ≤ allowance)
    (failed : joinRight operand level left tokens = (.error fault, rest)) :
    FailsAtOperand level.rank (operand.chain level) (before ++ tokens) fault rest := by
  fun_induction joinRight operand level left tokens generalizing before with
  | case1 => cases failed
  | case2 left operator tokens joins right after reading _ ih =>
    obtain ⟨⟨consumed, rfl, spelledRight⟩, ladderRight, reachesRight, withinRight, _⟩ :=
      sound reading
    have later := ih (.binary joins reached reachesRight ladder ladderRight)
      ⟨level, joins, Nat.le_refl _⟩ (.binary spelled spelledRight)
      (Nat.max_le.mpr ⟨within, withinRight⟩) failed
    rwa [List.append_assoc, List.cons_append] at later
  | case3 left operator tokens joins fault after reading =>
    cases failed
    obtain ⟨inside, behind, inner, rfl, place, met⟩ := fails reading
    refine ⟨before ++ operator :: inside, behind, inner, by simp, ?_, met⟩
    exact place.right completes joins ladder reached spelled within
  | case4 => cases failed

private theorem chain_failsAtOperands {operand : Rule} {level : Level}
    (sound : operand.Sound allowance (level.rank + 1))
    (completes : operand.Completes allowance (level.rank + 1))
    (fails : operand.FailsAtOperands (level.rank + 1)) :
    (operand.chain level).FailsAtOperands level.rank := by
  intro tokens rest fault failed
  cases reading : operand.run tokens with
  | mk result after =>
    cases result with
    | ok left =>
      rw [chain_run_of_ok reading] at failed
      obtain ⟨⟨consumed, rfl, spelled⟩, ladder, reached, within, _⟩ := sound reading
      exact joinRight_failsAtOperand sound completes fails ladder (reached.mono (Nat.le_succ _))
        spelled within failed
    | error other =>
      rw [chain_run_of_error reading] at failed
      cases failed
      obtain ⟨inside, behind, inner, rfl, place, met⟩ := fails reading
      exact ⟨inside, behind, inner, rfl, place.first, met⟩

theorem OperandFault.failsAtOperand (met : OperandFault allowance tokens fault rest) :
    FailsAtOperand Level.unary.rank (operand allowance) tokens fault rest :=
  ⟨[], tokens, allowance, rfl, .here allowance, met⟩

private theorem OperandFault.of_misplaced {token : Token}
    (notUnary : token.kind.isUnaryOperator = false)
    (notParen : token.kind ≠ .leftParen) (notLiteral : literal? token = none) :
    OperandFault allowance (token :: tokens) (.atToken token .expectedExpression)
      (token :: tokens) :=
  .misplaced ((literal?_eq_none_iff token notUnary notParen).mp notLiteral)

private theorem operand_zero_failsAtOperands : (operand 0).FailsAtOperands Level.unary.rank := by
  intro tokens rest fault failed
  have outcome := runOperand_outcome none tokens
  rw [← operand_zero_run, failed] at outcome
  apply OperandFault.failsAtOperand
  cases outcome with
  | atEnd => exact .misplaced (by decide)
  | beyond _ opens => exact .beyond opens
  | valueless kind missing => exact .valueless kind missing
  | misplaced notUnary notParen notLiteral => exact .of_misplaced notUnary notParen notLiteral
  | unaryFault nested => cases nested
  | groupingFault nested => cases nested
  | unclosed nested => cases nested

/-- A fault of an operand lies in it or in an operand that is nested in it. -/
theorem operand_succ_failsAtOperands
    (operandFails : (operand allowance).FailsAtOperands Level.unary.rank)
    (expressionSound : (expression allowance).Sound allowance 0)
    (expressionFails : (expression allowance).FailsAtOperands 0) :
    (operand (allowance + 1)).FailsAtOperands Level.unary.rank := by
  intro tokens rest fault failed
  have outcome := runOperand_outcome (some (operand allowance)) tokens
  rw [← operand_succ_run, failed] at outcome
  cases outcome with
  | atEnd => exact OperandFault.failsAtOperand (.misplaced (by decide))
  | unaryFault nested stands failed =>
    cases nested
    obtain ⟨inside, behind, inner, rfl, place, met⟩ := operandFails failed
    exact ⟨_, behind, inner, rfl, place.underUnary stands, met⟩
  | groupingFault nested opens failed =>
    cases nested
    obtain ⟨inside, behind, inner, rfl, place, met⟩ := expressionFails failed
    exact ⟨_, behind, inner, rfl, place.insideParen opens, met⟩
  | unclosed nested opens read unclosed =>
    cases nested
    obtain ⟨⟨between, rfl, spelled⟩, ladder, _, within, stops⟩ := expressionSound read
    exact OperandFault.failsAtOperand (.unclosed opens ladder spelled within stops unclosed)
  | beyond limit => cases limit
  | valueless kind missing => exact OperandFault.failsAtOperand (.valueless kind missing)
  | misplaced notUnary notParen notLiteral =>
    exact (OperandFault.of_misplaced notUnary notParen notLiteral).failsAtOperand

theorem expression_failsAtOperands (allowance : Nat) :
    (expression allowance).FailsAtOperands 0 := by
  -- A chain needs the other two properties of its operands, so all three climb the ladder together.
  have all := expression_induction
    (motive := fun allowance rank rule =>
      rule.Sound allowance rank ∧ rule.Completes allowance rank ∧ rule.FailsAtOperands rank)
    ?chain ?zero ?succ allowance
  case chain =>
    rintro allowance level rule binary ⟨sound, completes, fails⟩
    exact ⟨chain_sound sound, chain_completes completes binary,
      chain_failsAtOperands sound completes fails⟩
  case zero => exact ⟨operand_zero_sound, operand_zero_completes, operand_zero_failsAtOperands⟩
  case succ =>
    rintro allowance ⟨operandSound, operandCompletes, operandFails⟩
      ⟨expressionSound, expressionCompletes, expressionFails⟩
    exact ⟨operand_succ_sound operandSound expressionSound,
      operand_succ_completes operandCompletes expressionCompletes,
      operand_succ_failsAtOperands operandFails expressionSound expressionFails⟩
  intro tokens rest fault failed
  exact all.2.2 failed

end Rule
end LoxSyntax
