import LoxSyntax.Parse.Parser
import LoxSyntax.Proofs.Parse.Spelling

/-! # The stages of the parser

What each rule does, as equations and as one induction principle. The ladder is four chains over the
rule of an operand, so a property that a chain carries from one place of the ladder to the next
looser one holds of the whole ladder once it holds of operands (`Rule.ladder_induction`), and of
expressions under any allowance once it passes from an allowance to the next
(`Rule.expression_induction`).
-/

namespace LoxSyntax

theorem Level.rank_injective {first second : Level} (same : first.rank = second.rank) :
    first = second := by
  cases first <;> cases second <;> first | rfl | contradiction

/-- The fault says the message of the token: of its line, and of its lexeme unless it is the end of
the input. -/
structure Fault.LiesAt (fault : Fault) (token : Token) (message : String) : Prop where
  line : fault.line = token.line
  location : fault.location = if token.kind = .eof then .atEnd else .atLexeme token.lexeme
  message : fault.message = message

theorem Fault.atToken_liesAt (token : Token) (reason : SyntaxReason) :
    (Fault.atToken token reason).LiesAt token reason.message := ⟨rfl, rfl, rfl⟩

namespace Rule

section JoinRight

variable {operand : Rule} {level : Level} {left right : Expr} {operator : Token}
  {tokens after : List Token} {fault : Fault}

theorem joinRight_of_ok (joins : operator.kind.binaryLevel? = some level)
    (reading : operand.run tokens = (.ok right, after)) :
    joinRight operand level left (operator :: tokens) =
      joinRight operand level (.binary left operator right) after := by
  rw [joinRight, if_pos joins]
  split
  · next other behind shown =>
    obtain ⟨rfl, rfl⟩ : right = other ∧ after = behind := by simpa [reading] using shown
    rfl
  · next other behind shown => simp [reading] at shown

theorem joinRight_of_error (joins : operator.kind.binaryLevel? = some level)
    (reading : operand.run tokens = (.error fault, after)) :
    joinRight operand level left (operator :: tokens) = (.error fault, after) := by
  rw [joinRight, if_pos joins]
  split
  · next other behind shown => simp [reading] at shown
  · next other behind shown =>
    obtain ⟨rfl, rfl⟩ : fault = other ∧ after = behind := by simpa [reading] using shown
    rfl

theorem joinRight_of_stop (stops : (nextToken tokens).kind.binaryLevel? ≠ some level) :
    joinRight operand level left tokens = (.ok left, tokens) := by
  cases tokens with
  | nil => rw [joinRight]
  | cons operator rest =>
    have different : operator.kind.binaryLevel? ≠ some level := stops
    rw [joinRight, if_neg different]

theorem chain_run_of_ok (reading : operand.run tokens = (.ok left, after)) :
    (operand.chain level).run tokens = joinRight operand level left after := by
  simp [chain, reading]

theorem chain_run_of_error (reading : operand.run tokens = (.error fault, after)) :
    (operand.chain level).run tokens = (.error fault, after) := by
  simp [chain, reading]

end JoinRight

/-- A property that each chain carries one place down the ladder holds of the whole ladder. -/
theorem ladder_induction {motive : Nat → Rule → Prop} {operand : Rule}
    (base : motive Level.unary.rank operand)
    (step : ∀ (level : Level) (rule : Rule), level.rank < Level.unary.rank →
      motive (level.rank + 1) rule → motive level.rank (rule.chain level)) :
    motive 0 operand.ladder := by
  have factor := step .factor _ (by decide) base
  have term := step .term _ (by decide) factor
  have comparison := step .comparison _ (by decide) term
  exact step .equality _ (by decide) comparison

section Operand

variable {inner : Option Rule} {token : Token} {rest : List Token}

private theorem literal?_eq_some_some_iff (token : Token) (value : Value) :
    literal? token = some (some value) ↔ token.Carries value := by
  constructor
  · intro found
    unfold literal? at found
    split at found
    · next kind => cases found; exact .falseWord kind
    · next kind => cases found; exact .trueWord kind
    · next kind => cases found; exact .nilWord kind
    · next kind =>
      obtain ⟨literal, carried, rfl⟩ := Option.map_eq_some_iff.mp (Option.some.inj found)
      exact .number kind carried
    · next kind =>
      obtain ⟨literal, carried, rfl⟩ := Option.map_eq_some_iff.mp (Option.some.inj found)
      exact .string kind carried
    · cases found
  · intro carried
    cases carried <;> simp_all [literal?]

theorem runOperand_unary (stands : token.kind.isUnaryOperator = true) :
    runOperand inner (token :: rest) = underOperator inner token rest := by
  simp [runOperand, stands]

theorem runOperand_paren (opens : token.kind = .leftParen) :
    runOperand inner (token :: rest) = underParen inner rest := by
  simp [runOperand, opens, Kind.isUnaryOperator]

theorem runOperand_literal {value : Value} (carried : token.Carries value) :
    runOperand inner (token :: rest) = (.ok (.literal value), rest) := by
  have found := (literal?_eq_some_some_iff token value).mpr carried
  have plain : token.kind.isUnaryOperator = false ∧ token.kind ≠ .leftParen := by
    cases carried <;> simp_all [Kind.isUnaryOperator]
  simp [runOperand, plain, found]

/-- What can come of reading an operand, with the rule for what is nested in it if it may nest. -/
inductive OperandOutcome (inner : Option Rule) : List Token → Reading → Prop where
  | atEnd : OperandOutcome inner [] (.failAt .expectedExpression [])
  | unary {rule : Rule} {operator : Token} {tokens after : List Token} {right : Expr}
      (nested : inner = some rule) (stands : operator.kind.isUnaryOperator = true)
      (read : rule.run tokens = (.ok right, after)) :
      OperandOutcome inner (operator :: tokens) (.ok (.unary operator right), after)
  | unaryFault {rule : Rule} {operator : Token} {tokens after : List Token} {fault : Fault}
      (nested : inner = some rule) (stands : operator.kind.isUnaryOperator = true)
      (failed : rule.run tokens = (.error fault, after)) :
      OperandOutcome inner (operator :: tokens) (.error fault, after)
  | grouping {rule : Rule} {opening closing : Token} {tokens after : List Token} {expr : Expr}
      (nested : inner = some rule) (opens : opening.kind = .leftParen)
      (read : rule.ladder.run tokens = (.ok expr, closing :: after))
      (closes : closing.kind = .rightParen) :
      OperandOutcome inner (opening :: tokens) (.ok (.grouping expr), after)
  | groupingFault {rule : Rule} {opening : Token} {tokens after : List Token} {fault : Fault}
      (nested : inner = some rule) (opens : opening.kind = .leftParen)
      (failed : rule.ladder.run tokens = (.error fault, after)) :
      OperandOutcome inner (opening :: tokens) (.error fault, after)
  | unclosed {rule : Rule} {opening : Token} {tokens after : List Token} {expr : Expr}
      (nested : inner = some rule) (opens : opening.kind = .leftParen)
      (read : rule.ladder.run tokens = (.ok expr, after))
      (unclosed : (nextToken after).kind ≠ .rightParen) :
      OperandOutcome inner (opening :: tokens) (.failAt .expectedCloseParen after)
  | beyond {opening : Token} {tokens : List Token} (limit : inner = none)
      (opens : opening.kind = .leftParen ∨ opening.kind.isUnaryOperator = true) :
      OperandOutcome inner (opening :: tokens) (.failAt .tooMuchNesting tokens)
  | literal {token : Token} {tokens : List Token} {value : Value} (carried : token.Carries value) :
      OperandOutcome inner (token :: tokens) (.ok (.literal value), tokens)
  | valueless {token : Token} {tokens : List Token}
      (kind : token.kind = .number ∨ token.kind = .string) (missing : token.literal = none) :
      OperandOutcome inner (token :: tokens) (.error (.atToken token .literalWithoutValue), tokens)
  | misplaced {token : Token} {tokens : List Token} (notUnary : token.kind.isUnaryOperator = false)
      (notParen : token.kind ≠ .leftParen) (notLiteral : literal? token = none) :
      OperandOutcome inner (token :: tokens) (.failAt .expectedExpression (token :: tokens))

theorem literal?_eq_some_none_iff (token : Token) :
    literal? token = some none ↔
      (token.kind = .number ∨ token.kind = .string) ∧ token.literal = none := by
  unfold literal?
  split <;> simp_all

private theorem underOperator_outcome (inner : Option Rule) {operator : Token} (tokens : List Token)
    (stands : operator.kind.isUnaryOperator = true) :
    OperandOutcome inner (operator :: tokens) (underOperator inner operator tokens) := by
  cases inner with
  | none => exact .beyond rfl (.inr stands)
  | some rule =>
    simp only [underOperator]
    split
    · next right after read => exact .unary rfl stands read
    · next fault after failed => exact .unaryFault rfl stands failed

private theorem underParen_outcome (inner : Option Rule) {opening : Token} (tokens : List Token)
    (opens : opening.kind = .leftParen) :
    OperandOutcome inner (opening :: tokens) (underParen inner tokens) := by
  cases inner with
  | none => exact .beyond rfl (.inl opens)
  | some rule =>
    simp only [underParen]
    split
    · next expr after read =>
      cases after with
      | nil => exact .unclosed rfl opens read (by decide)
      | cons closing after =>
        by_cases closes : closing.kind = .rightParen
        · simp only [closes, if_true]
          exact .grouping rfl opens read closes
        · simp only [closes, if_false]
          exact .unclosed rfl opens read closes
    · next fault after failed => exact .groupingFault rfl opens failed

theorem runOperand_outcome (inner : Option Rule) (tokens : List Token) :
    OperandOutcome inner tokens (runOperand inner tokens) := by
  cases tokens with
  | nil => exact .atEnd
  | cons token tokens =>
    by_cases stands : token.kind.isUnaryOperator = true
    · rw [runOperand_unary stands]
      exact underOperator_outcome inner tokens stands
    by_cases opens : token.kind = .leftParen
    · rw [runOperand_paren opens]
      exact underParen_outcome inner tokens opens
    simp only [runOperand, stands, opens]
    cases found : literal? token with
    | none => exact .misplaced (Bool.eq_false_iff.mpr stands) opens found
    | some value =>
      cases value with
      | none =>
        obtain ⟨kind, missing⟩ := (literal?_eq_some_none_iff token).mp found
        exact .valueless kind missing
      | some value => exact .literal ((literal?_eq_some_some_iff token value).mp found)

theorem operand_zero_run (tokens : List Token) :
    (operand 0).run tokens = runOperand none tokens := rfl

theorem operand_succ_run (allowance : Nat) (tokens : List Token) :
    (operand (allowance + 1)).run tokens = runOperand (some (operand allowance)) tokens := rfl

end Operand

/-- A property of rules with an allowance and a place in the ladder holds of the rules for operands
and for expressions if chains carry it down the ladder and nesting carries it from an allowance to
the next. -/
theorem expression_induction {motive : Nat → Nat → Rule → Prop}
    (step : ∀ (allowance : Nat) (level : Level) (rule : Rule), level.rank < Level.unary.rank →
      motive allowance (level.rank + 1) rule → motive allowance level.rank (rule.chain level))
    (zero : motive 0 Level.unary.rank (operand 0))
    (succ : ∀ allowance, motive allowance Level.unary.rank (operand allowance) →
      motive allowance 0 (expression allowance) →
      motive (allowance + 1) Level.unary.rank (operand (allowance + 1)))
    (allowance : Nat) : motive allowance 0 (expression allowance) := by
  have climb : ∀ allowance, motive allowance Level.unary.rank (operand allowance) →
      motive allowance 0 (expression allowance) := by
    intro allowance base
    exact ladder_induction base (step allowance)
  have operands : motive allowance Level.unary.rank (operand allowance) := by
    induction allowance with
    | zero => exact zero
    | succ allowance ih => exact succ allowance ih (climb allowance ih)
  exact climb allowance operands

end Rule

/-- A reading moves the cursor by the tokens that it consumes. -/
theorem Parser.tryParse_of_run {parser : Parser} {result : Except Fault Expr}
    {consumed rest : List Token} (split : parser.rest = consumed ++ rest)
    (run : (Rule.expression maxNesting).run parser.rest = (result, rest)) :
    parser.tryParse = (result, ⟨rest, parser.position + consumed.length⟩) := by
  have length := congrArg List.length split
  rw [List.length_append] at length
  simp only [tryParse, run, length, Nat.add_sub_cancel]

end LoxSyntax
