import LoxSyntax.Proofs.Parse.Beginning

/-! # What a rule looks at

Of a token a rule looks at the kind and the literal, and of a list it looks at no token behind the
one that it stops before. So two lists keep step if they go over tokens of the same sense to a token
of the same sense, and a rule that reads along the one reads along the other (`Rule.KeepsStep`), to
the same tree but for the operators, or to a fault for the same reason.
-/

namespace LoxSyntax

/-- The expressions have one shape and the same values, and operators of the same sense. -/
inductive Expr.SameSense : Expr → Expr → Prop where
  | binary {left right left' right' : Expr} {operator other : Token}
      (sameLeft : SameSense left left') (same : operator.SameSense other)
      (sameRight : SameSense right right') :
      SameSense (.binary left operator right) (.binary left' other right')
  | unary {right right' : Expr} {operator other : Token} (same : operator.SameSense other)
      (sameRight : SameSense right right') :
      SameSense (.unary operator right) (.unary other right')
  | literal (value : Value) : SameSense (.literal value) (.literal value)
  | grouping {inner inner' : Expr} (sameInner : SameSense inner inner') :
      SameSense (.grouping inner) (.grouping inner')

/-- Both are expressions of the same sense, or both are faults at a token for the same reason. -/
inductive SameVerdict : Except Fault Expr → Except Fault Expr → Prop where
  | ok {expr other : Expr} (same : expr.SameSense other) : SameVerdict (.ok expr) (.ok other)
  | error (token other : Token) (reason : SyntaxReason) :
      SameVerdict (.error (.atToken token reason)) (.error (.atToken other reason))

/-- Over tokens of the same sense, the tokens lead to the rest as the others lead to theirs, and the
token at which they arrive is of the same sense. -/
inductive InStep : (tokens rest others behind : List Token) → Prop where
  | arrive {token other : Token} {tokens others : List Token} (same : token.SameSense other) :
      InStep (token :: tokens) (token :: tokens) (other :: others) (other :: others)
  | pass {token other : Token} {tokens rest others behind : List Token}
      (same : token.SameSense other) (onward : InStep tokens rest others behind) :
      InStep (token :: tokens) rest (other :: others) behind

namespace InStep

variable {token : Token} {tokens after rest others behind : List Token}

theorem suffix (inStep : InStep tokens rest others behind) : rest <:+ tokens := by
  induction inStep with
  | arrive same => exact List.suffix_refl _
  | @pass token _ _ _ _ _ same onward ih => exact ih.trans (List.suffix_cons token _)

/-- Both ways are of one length, and each leads to a token. -/
theorem exists_lengths (inStep : InStep tokens rest others behind) :
    ∃ consumed consumed' next next' more more', tokens = consumed ++ rest ∧
      others = consumed' ++ behind ∧ consumed.length = consumed'.length ∧
      rest = next :: more ∧ behind = next' :: more' := by
  induction inStep with
  | arrive same => exact ⟨[], [], _, _, _, _, rfl, rfl, rfl, rfl, rfl⟩
  | pass same onward ih =>
    obtain ⟨consumed, consumed', _, _, _, _, rfl, rfl, length, rest, behind⟩ := ih
    exact ⟨_ :: consumed, _ :: consumed', _, _, _, _, rfl, rfl, congrArg Nat.succ length, rest,
      behind⟩

/-- The way to the rest can be broken at any list on it. -/
theorem split (inStep : InStep tokens rest others behind) (first : after <:+ tokens)
    (second : rest <:+ after) :
    ∃ between, InStep tokens after others between ∧ InStep after rest between behind := by
  induction inStep with
  | arrive same =>
    obtain rfl := first.eq_of_length_le second.length_le
    exact ⟨_, .arrive same, .arrive same⟩
  | @pass token other tokens rest others behind same onward ih =>
    rcases List.suffix_cons_iff.mp first with rfl | further
    · exact ⟨_, .arrive same, .pass same onward⟩
    · obtain ⟨between, before, beyond⟩ := ih further second
      exact ⟨between, .pass same before, beyond⟩

/-- A rest that leaves the first token out has passed it. -/
theorem passed (inStep : InStep (token :: tokens) rest others behind) (further : rest <:+ tokens) :
    ∃ other onward, others = other :: onward ∧ token.SameSense other ∧
      InStep tokens rest onward behind := by
  cases inStep with
  | arrive same => exact absurd further.length_le (Nat.not_succ_le_self _)
  | pass same onward => exact ⟨_, _, rfl, same, onward⟩

/-- Where nothing is passed, the next tokens are of the same sense. -/
theorem arrived (inStep : InStep tokens tokens others behind) :
    others = behind ∧ (nextToken tokens).SameSense (nextToken others) := by
  cases inStep with
  | arrive same => exact ⟨rfl, same⟩
  | pass same onward => exact absurd onward.suffix.length_le (Nat.not_succ_le_self _)

end InStep

namespace Rule

/-- Whatever the rule leaves, it leaves the same of tokens that keep step, with the same verdict. -/
def KeepsStep (rule : Rule) : Prop :=
  ∀ {tokens rest others behind : List Token} {result : Except Fault Expr},
    rule.run tokens = (result, rest) → InStep tokens rest others behind →
      ∃ other, rule.run others = (other, behind) ∧ SameVerdict result other

variable {tokens rest others behind : List Token}

private theorem joinRight_keepsStep {operand : Rule} (keeps : operand.KeepsStep) {level : Level}
    {left left' : Expr} (sameLeft : left.SameSense left') {result : Except Fault Expr}
    (run : joinRight operand level left tokens = (result, rest))
    (inStep : InStep tokens rest others behind) :
    ∃ other, joinRight operand level left' others = (other, behind) ∧ SameVerdict result other := by
  fun_induction joinRight operand level left tokens generalizing left' others with
  | case1 left =>
    cases run
    cases inStep
  | case2 left operator tokens joins right after reading _ ih =>
    have consumed := operand.suffix tokens
    rw [reading] at consumed
    have further := joinRight_suffix operand level (.binary left operator right) after
    rw [run] at further
    obtain ⟨operator', onward, rfl, same, inStep⟩ := inStep.passed (further.trans consumed)
    obtain ⟨between, inStep, inStepOn⟩ := inStep.split consumed further
    obtain ⟨right', reading', verdict⟩ := keeps reading inStep
    cases verdict with
    | ok sameRight =>
      rw [joinRight_of_ok (same.kind ▸ joins) reading']
      exact ih (.binary sameLeft same sameRight) run inStepOn
  | case3 left operator tokens joins fault after reading =>
    cases run
    have consumed := operand.suffix tokens
    rw [reading] at consumed
    obtain ⟨operator', onward, rfl, same, inStep⟩ := inStep.passed consumed
    obtain ⟨other, reading', verdict⟩ := keeps reading inStep
    cases verdict with
    | error token other reason =>
      exact ⟨_, joinRight_of_error (same.kind ▸ joins) reading', .error token other reason⟩
  | case4 left operator tokens stops =>
    cases run
    obtain ⟨rfl, same⟩ := inStep.arrived
    have stops : (nextToken others).kind.binaryLevel? ≠ some level := same.kind ▸ stops
    exact ⟨_, joinRight_of_stop stops, .ok sameLeft⟩

private theorem chain_keepsStep {operand : Rule} (keeps : operand.KeepsStep) (level : Level) :
    (operand.chain level).KeepsStep := by
  intro tokens rest others behind result run inStep
  rcases reading : operand.run tokens with ⟨first, after⟩
  have consumed := operand.suffix tokens
  rw [reading] at consumed
  cases first with
  | ok left =>
    rw [chain_run_of_ok reading] at run
    have further := joinRight_suffix operand level left after
    rw [run] at further
    obtain ⟨between, inStep, inStepOn⟩ := inStep.split consumed further
    obtain ⟨left', reading', verdict⟩ := keeps reading inStep
    cases verdict with
    | ok sameLeft =>
      rw [chain_run_of_ok reading']
      exact joinRight_keepsStep keeps sameLeft run inStepOn
  | error fault =>
    rw [chain_run_of_error reading] at run
    cases run
    obtain ⟨other, reading', verdict⟩ := keeps reading inStep
    cases verdict with
    | error token other reason =>
      exact ⟨_, chain_run_of_error reading', .error token other reason⟩

/-- An operand keeps step if what is nested in it does. -/
theorem OperandOutcome.keepsStep {inner : Option Rule} {reading : Reading}
    (outcome : OperandOutcome inner tokens reading)
    (keeps : ∀ rule, inner = some rule → rule.KeepsStep ∧ rule.ladder.KeepsStep)
    (inStep : InStep tokens reading.2 others behind) :
    ∃ other, runOperand inner others = (other, behind) ∧ SameVerdict reading.1 other := by
  have consumes {rule : Rule} {tokens after : List Token} {result : Except Fault Expr}
      (run : rule.run tokens = (result, after)) : after <:+ tokens := by
    have passed := rule.suffix tokens
    rwa [run] at passed
  cases outcome with
  | atEnd => cases inStep
  | @unary rule operator tokens after right nested stands read =>
    obtain ⟨operator', onward, rfl, same, inStep⟩ := inStep.passed (consumes read)
    obtain ⟨right', read', verdict⟩ := (keeps rule nested).1 read inStep
    rw [runOperand_unary (same.kind ▸ stands), nested]
    cases verdict with
    | ok sameRight => exact ⟨_, by simp [underOperator, read'], .ok (.unary same sameRight)⟩
  | @unaryFault rule operator tokens after fault nested stands failed =>
    obtain ⟨operator', onward, rfl, same, inStep⟩ := inStep.passed (consumes failed)
    obtain ⟨other, failed', verdict⟩ := (keeps rule nested).1 failed inStep
    rw [runOperand_unary (same.kind ▸ stands), nested]
    cases verdict with
    | error token other reason =>
      exact ⟨_, by simp [underOperator, failed'], .error token other reason⟩
  | @grouping rule opening closing tokens after expr nested opens read closes =>
    have behindParen := List.suffix_cons closing after
    obtain ⟨opening', onward, rfl, same, inStep⟩ :=
      inStep.passed (behindParen.trans (consumes read))
    obtain ⟨between, inStep, inStepOn⟩ := inStep.split (consumes read) behindParen
    obtain ⟨expr', read', verdict⟩ := (keeps rule nested).2 read inStep
    obtain ⟨closing', after', rfl, sameClosing, inStepAfter⟩ :=
      inStepOn.passed (List.suffix_refl after)
    obtain ⟨rfl, _⟩ := inStepAfter.arrived
    have closes' : closing'.kind = .rightParen := sameClosing.kind ▸ closes
    rw [runOperand_paren (same.kind ▸ opens), nested]
    cases verdict with
    | ok sameInner => exact ⟨_, by simp [underParen, read', closes'], .ok (.grouping sameInner)⟩
  | @groupingFault rule opening tokens after fault nested opens failed =>
    obtain ⟨opening', onward, rfl, same, inStep⟩ := inStep.passed (consumes failed)
    obtain ⟨other, failed', verdict⟩ := (keeps rule nested).2 failed inStep
    rw [runOperand_paren (same.kind ▸ opens), nested]
    cases verdict with
    | error token other reason =>
      exact ⟨_, by simp [underParen, failed'], .error token other reason⟩
  | @unclosed rule opening tokens after expr nested opens read unclosed =>
    obtain ⟨opening', onward, rfl, same, inStep⟩ := inStep.passed (consumes read)
    obtain ⟨between, inStep, inStepOn⟩ := inStep.split (consumes read) (List.suffix_refl after)
    obtain ⟨rfl, sameNext⟩ := inStepOn.arrived
    obtain ⟨expr', read', verdict⟩ := (keeps rule nested).2 read inStep
    rw [runOperand_paren (same.kind ▸ opens), nested]
    cases verdict with
    | ok sameInner =>
      exact ⟨_, underParen_unclosed read' (sameNext.kind ▸ unclosed), .error _ _ _⟩
  | @beyond opening tokens limit opens =>
    obtain ⟨opening', onward, rfl, same, inStep⟩ := inStep.passed (List.suffix_refl tokens)
    obtain ⟨rfl, _⟩ := inStep.arrived
    rw [limit]
    rcases opens with opens | stands
    · exact ⟨_, runOperand_paren (same.kind ▸ opens), .error _ _ _⟩
    · exact ⟨_, runOperand_unary (same.kind ▸ stands), .error _ _ _⟩
  | @literal token tokens value carried =>
    obtain ⟨token', onward, rfl, same, inStep⟩ := inStep.passed (List.suffix_refl tokens)
    obtain ⟨rfl, _⟩ := inStep.arrived
    exact ⟨_, runOperand_literal (carried.sameSense same), .ok (.literal value)⟩
  | @valueless token tokens valued missing =>
    obtain ⟨token', onward, rfl, same, inStep⟩ := inStep.passed (List.suffix_refl tokens)
    obtain ⟨rfl, _⟩ := inStep.arrived
    exact ⟨_, runOperand_valueless (same.kind ▸ valued) (same.literal ▸ missing), .error _ _ _⟩
  | @misplaced token tokens notUnary notParen notLiteral =>
    obtain ⟨rfl, same⟩ := inStep.arrived
    have start := (literal?_eq_none_iff token notUnary notParen).mp notLiteral
    have start : (nextToken others).kind ∉ Kind.operandStarts := same.kind ▸ start
    exact ⟨_, runOperand_misplaced start, .error _ _ _⟩

theorem expression_keepsStep (allowance : Nat) : (expression allowance).KeepsStep := by
  have operand {inner : Option Rule} {tokens rest others behind : List Token}
      {result : Except Fault Expr}
      (keeps : ∀ rule, inner = some rule → rule.KeepsStep ∧ rule.ladder.KeepsStep)
      (run : runOperand inner tokens = (result, rest)) (inStep : InStep tokens rest others behind) :
      ∃ other, runOperand inner others = (other, behind) ∧ SameVerdict result other := by
    have outcome := runOperand_outcome inner tokens
    rw [run] at outcome
    exact outcome.keepsStep keeps inStep
  apply expression_induction (motive := fun _ _ rule => rule.KeepsStep)
  case step =>
    intro allowance level rule _ keeps
    exact chain_keepsStep keeps level
  case zero =>
    intro tokens rest others behind result run inStep
    refine operand ?_ run inStep
    rintro rule ⟨⟩
  case succ =>
    intro allowance operandKeeps expressionKeeps tokens rest others behind result run inStep
    refine operand ?_ run inStep
    rintro rule ⟨⟩
    exact ⟨operandKeeps, expressionKeeps⟩

end Rule
end LoxSyntax
