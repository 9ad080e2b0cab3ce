import LoxSyntax.Proofs.Parse.Beginning
import Mathlib.Logic.ExistsUnique

/-! # The first fault

A reading that fails has gone as far as an expression could: what it has consumed begins an
expression, and the token that it blames goes on with none, whatever follows it. The two other
faults are those of a token that is no literal though its kind says so, which is consumed, and of
the nesting limit, which is the first opening beyond it in every expression that begins so.
-/

namespace LoxSyntax

/-- Why no expression can be read. -/
inductive FaultCause where
  | impossibleToken | tooDeep | valuelessLiteral
deriving DecidableEq

/-- The cause explains the fault of a reading that has consumed the tokens and stands before
`next`. -/
inductive FaultCause.Explains : FaultCause → List Token → Token → Fault → Prop where
  | noOperand {consumed : List Token} {next : Token} {fault : Fault}
      (lies : fault.LiesAt next "Expected an expression") (begins : BeginsExpression consumed)
      (impossible : ¬ BeginsExpression (consumed ++ [next])) (place : AwaitsOperand consumed) :
      Explains .impossibleToken consumed next fault
  | noParen {consumed : List Token} {next : Token} {fault : Fault}
      (lies : fault.LiesAt next "Expected \x60)\x60 after expression")
      (begins : BeginsExpression consumed)
      (impossible : ¬ BeginsExpression (consumed ++ [next])) (place : EndsInsideParen consumed) :
      Explains .impossibleToken consumed next fault
  | tooDeep {before : List Token} {opening next : Token} {fault : Fault}
      (lies : fault.LiesAt next "Too much nesting")
      (begins : BeginsExpression (before ++ [opening]))
      (opens : opening.kind = .leftParen ∨ opening.kind.isUnaryOperator = true)
      (first : ∀ (expr : Expr) (more : List Token), expr.Ladder →
        expr.Spells (before ++ [opening] ++ more) →
          expr.ExceedsFirst maxNesting ⟨before.length, maxNesting + 1⟩) :
      Explains .tooDeep (before ++ [opening]) next fault
  | valueless {before : List Token} {token next : Token} {fault : Fault}
      (lies : fault.LiesAt token "Literal token carries no value")
      (kind : token.kind = .number ∨ token.kind = .string) (missing : token.literal = none)
      (begins : BeginsExpression before) (impossible : ¬ BeginsExpression (before ++ [token]))
      (place : AwaitsOperand before) :
      Explains .valuelessLiteral (before ++ [token]) next fault

/-- The messages of the faults that have the cause. -/
def FaultCause.messages : FaultCause → List String
  | impossibleToken => ["Expected an expression", "Expected \x60)\x60 after expression"]
  | tooDeep => ["Too much nesting"]
  | valuelessLiteral => ["Literal token carries no value"]

private theorem FaultCause.Explains.message_mem {cause : FaultCause} {consumed : List Token}
    {next : Token}
    {fault : Fault} (explains : cause.Explains consumed next fault) :
    fault.message ∈ cause.messages := by
  cases explains with
  | noOperand lies => simp [lies.message, messages]
  | noParen lies => simp [lies.message, messages]
  | tooDeep lies => simp [lies.message, messages]
  | valueless lies => simp [lies.message, messages]

/-- The message tells the cause. -/
theorem FaultCause.Explains.unique {cause other : FaultCause} {consumed : List Token} {next : Token}
    {fault : Fault} (explains : cause.Explains consumed next fault)
    (rival : other.Explains consumed next fault) : cause = other := by
  have disjoint : ∀ text ∈ cause.messages, text ∈ other.messages → cause = other := by
    cases cause <;> cases other <;> decide
  exact disjoint _ explains.message_mem rival.message_mem

namespace Rule

variable {allowance inner : Nat} {before behind tokens rest : List Token} {fault : Fault}

/-- Only the nesting limit keeps an expression from being read. -/
theorem not_spellsExpression {token : Token} {reason : SyntaxReason}
    (failed : (expression allowance).run tokens = (.error (.atToken token reason), rest))
    (withinLimit : reason ≠ .tooMuchNesting) : ¬ SpellsExpression tokens := by
  rintro ⟨expr, ladder, spelled⟩
  have stops : (nextToken []).Stops 0 := (Token.stops_zero_iff _).mpr (by decide)
  have run := expression_completes allowance ladder ladder.reaches_zero spelled stops
  rw [List.append_nil, failed] at run
  unfold Expr.bounded at run
  split at run
  · cases run
  · exact withinLimit (Fault.badSyntax.inj (Except.error.inj (Prod.mk.inj run).1)).2.2

namespace AtOperand

/-- Tokens that meet the same fault at an operand, whatever follows them, begin no expression. -/
theorem not_beginsExpression {token : Token} {reason : SyntaxReason}
    (place : AtOperand 0 (expression allowance) before inner)
    (met : ∀ more, ∃ rest, OperandFault inner (behind ++ more) (.atToken token reason) rest)
    (withinLimit : reason ≠ .tooMuchNesting) : ¬ BeginsExpression (before ++ behind) := by
  rintro ⟨more, spelled⟩
  obtain ⟨rest, metHere⟩ := met more
  rw [List.append_assoc] at spelled
  exact not_spellsExpression (place.fails metHere.run) withinLimit spelled

private theorem not_begins_misplaced {token : Token}
    (place : AtOperand 0 (expression allowance) before inner)
    (start : token.kind ∉ Kind.operandStarts) : ¬ BeginsExpression (before ++ [token]) := by
  have met (more : List Token) :
      OperandFault inner (token :: more) (.atToken token .expectedExpression) (token :: more) :=
    .misplaced start
  exact place.not_beginsExpression (fun more => ⟨_, met more⟩) (by decide)

private theorem not_begins_unclosed {opening token : Token} {nested : Expr} {between : List Token}
    (place : AtOperand 0 (expression allowance) before (inner + 1))
    (opens : opening.kind = .leftParen) (ladder : nested.Ladder) (spelled : nested.Spells between)
    (within : nested.nesting ≤ inner) (stops : token.Stops 0) (unclosed : token.kind ≠ .rightParen) :
    ¬ BeginsExpression (before ++ opening :: between ++ [token]) := by
  have met (more : List Token) : OperandFault (inner + 1) (opening :: between ++ [token] ++ more)
      (.atToken token .expectedCloseParen) (token :: more) := by
    rw [List.append_assoc]
    exact .unclosed opens ladder spelled within stops unclosed
  rw [List.append_assoc]
  exact place.not_beginsExpression (fun more => ⟨_, met more⟩) (by decide)

private theorem not_begins_valueless {token : Token}
    (place : AtOperand 0 (expression allowance) before inner)
    (kind : token.kind = .number ∨ token.kind = .string) (missing : token.literal = none) :
    ¬ BeginsExpression (before ++ [token]) := by
  have met (more : List Token) :
      OperandFault inner (token :: more) (.atToken token .literalWithoutValue) more :=
    .valueless kind missing
  exact place.not_beginsExpression (fun more => ⟨_, met more⟩) (by decide)

private theorem beginsExpression {operand : Expr}
    (place : AtOperand 0 (expression allowance) before inner)
    (ladder : operand.Ladder) (reached : operand.Reaches Level.unary.rank)
    (spelled : operand.Spells (behind ++ rest)) : BeginsExpression (before ++ behind) := by
  obtain ⟨whole, more, wholeLadder, _, wholeSpelled⟩ := place.completes ladder reached spelled
  refine ⟨rest ++ more, whole, wholeLadder, ?_⟩
  simpa using wholeSpelled

/-- Behind the tokens, an operand must come. -/
private theorem awaitsOperand (place : AtOperand 0 (expression allowance) before inner) :
    AwaitsOperand before where
  begins := by
    have begins := @beginsExpression _ _ _ [] [.plain (.keyword .nilWord) "nil" 1] (.literal .nil)
      place (.literal _) ⟨.primary, rfl, by decide⟩ (.literal (.nilWord rfl))
    rwa [List.append_nil] at begins
  next := by
    intro token begins
    apply Decidable.byContradiction
    intro start
    exact place.not_begins_misplaced start begins

private theorem begins_opening {opening : Token}
    (place : AtOperand 0 (expression allowance) before inner)
    (opens : opening.kind = .leftParen ∨ opening.kind.isUnaryOperator = true) :
    BeginsExpression (before ++ [opening]) := by
  have spelled : (Expr.literal .nil).Spells [.plain (.keyword .nilWord) "nil" 1] :=
    .literal (.nilWord rfl)
  rcases opens with opens | stands
  · have grouped : (Expr.grouping (.literal .nil)).Spells
        ([opening] ++ [.plain (.keyword .nilWord) "nil" 1, .plain .rightParen ")" 1]) :=
      .grouping opens rfl spelled
    exact place.beginsExpression (.grouping (.literal .nil)) ⟨.primary, rfl, by decide⟩ grouped
  · have applied : (Expr.unary opening (.literal .nil)).Spells
        ([opening] ++ [.plain (.keyword .nilWord) "nil" 1]) :=
      .unary spelled
    exact place.beginsExpression (.unary stands ⟨.primary, rfl, by decide⟩ (.literal .nil))
      ⟨.unary, rfl, Nat.le_refl _⟩ applied

/-- The opening beyond the allowance is the first one in every expression that begins so. -/
private theorem exceedsFirst {opening : Token} {expr : Expr} {more : List Token}
    (place : AtOperand 0 (expression allowance) before 0)
    (opens : opening.kind = .leftParen ∨ opening.kind.isUnaryOperator = true)
    (ladder : expr.Ladder) (spelled : expr.Spells (before ++ [opening] ++ more)) :
    expr.ExceedsFirst allowance ⟨before.length, allowance + 1⟩ := by
  have stops : (nextToken []).Stops 0 := (Token.stops_zero_iff _).mpr (by decide)
  have run := expression_completes allowance ladder ladder.reaches_zero spelled stops
  have met : OperandFault 0 (opening :: more) _ more := .beyond opens
  have failed := place.fails met.run
  rw [List.append_nil, List.append_assoc, List.singleton_append, failed] at run
  cases found : expr.firstBeyond allowance with
  | none =>
    simp only [Expr.bounded, found] at run
    cases run
  | some beyond =>
    rw [Expr.bounded_of_firstBeyond found] at run
    have exceeds := Expr.exceedsFirst_of_firstBeyond found
    -- The reading stops behind the opening that is one too many, so it is this one.
    have left := congrArg List.length (Prod.mk.inj run).2
    have bound := Expr.firstBeyond_index_lt found
    rw [← spelled.length_eq] at bound
    simp only [List.length_drop, List.length_append, List.length_cons, List.length_nil]
      at left bound
    have index : beyond.index = before.length := by omega
    obtain rfl : beyond = ⟨before.length, allowance + 1⟩ := by
      rw [← index, ← exceeds.depth]
    exact exceeds

end AtOperand

/-- Each fault at an operand has its cause. -/
theorem OperandFault.explained (place : AtOperand 0 (expression maxNesting) before inner)
    (met : OperandFault inner behind fault rest) :
    ∃ consumed cause, before ++ behind = consumed ++ rest ∧
      FaultCause.Explains cause consumed (nextToken rest) fault := by
  have awaits := place.awaitsOperand
  cases met with
  | misplaced start =>
    have impossible := place.not_begins_misplaced start
    exact ⟨before, _, rfl, .noOperand (Fault.atToken_liesAt _ _) awaits.begins impossible awaits⟩
  | @unclosed allowance opening nested between rest opens ladder spelled within stops unclosed =>
    have begins : BeginsExpression (before ++ opening :: between) :=
      place.beginsExpression (.grouping ladder) ⟨.primary, rfl, by decide⟩
        (@Expr.Spells.grouping _ (.plain .rightParen ")" 1) _ _ opens rfl spelled)
    have impossible := place.not_begins_unclosed opens ladder spelled within stops unclosed
    refine ⟨before ++ opening :: between, .impossibleToken, by simp, ?_⟩
    exact .noParen (Fault.atToken_liesAt _ _) begins impossible
      ⟨before, opening, between, rfl, awaits, opens, nested, ladder, spelled⟩
  | @beyond opening rest opens =>
    refine ⟨before ++ [opening], .tooDeep, by simp, ?_⟩
    exact .tooDeep (Fault.atToken_liesAt _ _) (place.begins_opening opens) opens
      fun expr more ladder spelled => place.exceedsFirst opens ladder spelled
  | @valueless allowance token rest kind missing =>
    refine ⟨before ++ [token], .valuelessLiteral, by simp, ?_⟩
    exact .valueless (Fault.atToken_liesAt _ _) kind missing awaits.begins
      (place.not_begins_valueless kind missing) awaits

end Rule

namespace Parser

/-- Wherever readings have led a parser, a reading that fails has one cause: the token before which
it stops is the first that no expression goes on with, or the one behind which it stops opens one
nesting too many, or it is a number or a string without a value. -/
theorem tryParse_faultCause {tokens : List Token} {parser after : Parser} {fault : Fault}
    (reached : parser.Reachable tokens) (failed : parser.tryParse = (.error fault, after)) :
    ∃ next, (withEnd tokens)[after.position]? = some next ∧
      ∃! cause : FaultCause,
        cause.Explains ((withEnd tokens).extract parser.position after.position) next fault := by
  have cursor := reached.cursor
  have cursorAfter : after.AtCursor tokens := by
    have moved := cursor.tryParse
    rwa [failed] at moved
  have run := run_of_tryParse failed
  obtain ⟨before, behind, inner, split, place, met⟩ :=
    Rule.expression_failsAtOperands maxNesting run
  obtain ⟨consumed, cause, whole, explains⟩ := met.explained place
  have consumedAll : parser.rest = consumed ++ after.rest := split.trans whole
  have position : after.position = parser.position + consumed.length := by
    rw [tryParse_of_run consumedAll run] at failed
    exact (congrArg Parser.position (Prod.mk.inj failed).2).symm
  have extracted := cursor.extract_eq consumedAll 0
  rw [List.take_zero, List.append_nil, Nat.add_zero, ← position] at extracted
  refine ⟨nextToken after.rest, ?_, cause, ?_, ?_⟩
  · rw [cursorAfter.rest, List.drop_eq_getElem_cons cursorAfter.bound]
    exact List.getElem?_eq_getElem cursorAfter.bound
  · rw [extracted]
    exact explains
  · intro other rival
    rw [extracted] at rival
    exact rival.unique explains

/-- Nothing that goes on from `(-)` is an expression, though `(-` begins one. -/
theorem tryParse_faultCause_sample :
    let tokens := [Token.plain .leftParen "(" 1, .plain .minus "-" 1, .plain .rightParen ")" 2]
    let fault := Fault.badSyntax 2 (.atLexeme ")") .expectedExpression
    (ofTokens tokens).Reachable tokens ∧
    (ofTokens tokens).tryParse = (.error fault, ⟨[.plain .rightParen ")" 2, .eof 2], 2⟩) ∧
    ∃! cause : FaultCause,
      cause.Explains ((withEnd tokens).extract 0 2) (.plain .rightParen ")" 2) fault := by
  intro tokens fault
  have failed : (ofTokens tokens).tryParse =
      (.error fault, ⟨[.plain .rightParen ")" 2, .eof 2], 2⟩) := rfl
  obtain ⟨next, found, explained⟩ := tryParse_faultCause .start failed
  obtain rfl : Token.plain .rightParen ")" 2 = next := Option.some.inj found
  exact ⟨.start, failed, explained⟩

end Parser
end LoxSyntax
