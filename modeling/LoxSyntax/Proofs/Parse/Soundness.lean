import LoxSyntax.Proofs.Parse.Completeness
import LoxSyntax.Proofs.Parse.Cursor

/-! # Soundness of the parser

Whatever the parser accepts is the spelling of the tree that it returns, with nothing left out, the
tree obeys the ladder and the nesting limit, and the reading could not have gone on. The invariant
is `Expr.ReadFrom`: each rule establishes it at its place of the ladder and under its allowance, and
each round of a loop keeps it. That no longer reading exists is the converse of completeness.
-/

namespace LoxSyntax

/-- The expression has been read off the tokens, by a rule of this place of the ladder and with this
allowance, and `rest` is left. -/
structure Expr.ReadFrom (allowance rank : Nat) (expr : Expr) (tokens rest : List Token) : Prop where
  spelling : ∃ consumed, tokens = consumed ++ rest ∧ expr.Spells consumed
  ladder : expr.Ladder
  reaches : expr.Reaches rank
  within : expr.nesting ≤ allowance
  stops : (nextToken rest).Stops rank

namespace Rule

/-- The rule returns only what it has read off its tokens. -/
def Sound (allowance rank : Nat) (rule : Rule) : Prop :=
  ∀ {tokens rest : List Token} {expr : Expr}, rule.run tokens = (.ok expr, rest) →
    expr.ReadFrom allowance rank tokens rest

variable {allowance : Nat}

/-- The loop invariant of a level: what the loop holds has been read off the tokens so far. -/
theorem joinRight_sound {operand : Rule} {level : Level}
    (sound : operand.Sound allowance (level.rank + 1)) {left expr : Expr}
    {before tokens rest : List Token} (spelled : left.Spells before) (ladder : left.Ladder)
    (reached : left.Reaches level.rank) (within : left.nesting ≤ allowance)
    (stops : (nextToken tokens).Stops (level.rank + 1))
    (read : joinRight operand level left tokens = (.ok expr, rest)) :
    expr.ReadFrom allowance level.rank (before ++ tokens) rest := by
  fun_induction joinRight operand level left tokens generalizing before with
  | case1 left =>
    cases read
    refine ⟨⟨before, rfl, spelled⟩, ladder, reached, within, ?_⟩
    intro own known
    cases known
  | case2 left operator tokens joins right after reading _ ih =>
    obtain ⟨⟨consumed, rfl, spelledRight⟩, ladderRight, reachesRight, withinRight, stopsAfter⟩ :=
      sound reading
    have joined := ih (.binary spelled spelledRight)
      (.binary joins reached reachesRight ladder ladderRight) ⟨level, joins, Nat.le_refl _⟩
      (Nat.max_le.mpr ⟨within, withinRight⟩) stopsAfter read
    rwa [List.append_assoc, List.cons_append] at joined
  | case3 left operator tokens joins fault after reading => cases read
  | case4 left operator tokens joins =>
    cases read
    refine ⟨⟨before, rfl, spelled⟩, ladder, reached, within, ?_⟩
    intro own known
    have bound := stops own known
    -- The loop has stopped at the token, so it is no operator of the level itself either.
    have different : own.rank ≠ level.rank := by
      intro same
      rw [Level.rank_injective same] at known
      exact joins known
    omega

theorem chain_sound {operand : Rule} {level : Level}
    (sound : operand.Sound allowance (level.rank + 1)) :
    (operand.chain level).Sound allowance level.rank := by
  intro tokens rest expr read
  cases reading : operand.run tokens with
  | mk result after =>
    cases result with
    | ok left =>
      rw [chain_run_of_ok reading] at read
      obtain ⟨⟨consumed, rfl, spelled⟩, ladder, reached, within, stops⟩ := sound reading
      exact joinRight_sound sound spelled ladder (reached.mono (Nat.le_succ _)) within stops read
    | error fault =>
      rw [chain_run_of_error reading] at read
      cases read

theorem OperandOutcome.sound {inner : Option Rule} {tokens rest : List Token} {expr : Expr}
    (outcome : OperandOutcome inner tokens (.ok expr, rest))
    (sound : ∀ rule, inner = some rule → ∃ smaller, smaller + 1 = allowance ∧
      rule.Sound smaller Level.unary.rank ∧ rule.ladder.Sound smaller 0) :
    expr.ReadFrom allowance Level.unary.rank tokens rest := by
  cases outcome with
  | unary nested stands run =>
    obtain ⟨smaller, rfl, operandSound, _⟩ := sound _ nested
    obtain ⟨⟨consumed, rfl, spelled⟩, ladder, reached, within, _⟩ := operandSound run
    exact ⟨⟨_, rfl, .unary spelled⟩, .unary stands reached ladder, ⟨.unary, rfl, by decide⟩,
      Nat.succ_le_succ within, Token.stops_unary _⟩
  | grouping nested opens run closes =>
    obtain ⟨smaller, rfl, _, expressionSound⟩ := sound _ nested
    obtain ⟨⟨consumed, rfl, spelled⟩, ladder, _, within, _⟩ := expressionSound run
    exact ⟨⟨_, by simp, .grouping opens closes spelled⟩, .grouping ladder,
      ⟨.primary, rfl, by decide⟩, Nat.succ_le_succ within, Token.stops_unary _⟩
  | literal carried =>
    exact ⟨⟨_, rfl, .literal carried⟩, .literal _, ⟨.primary, rfl, by decide⟩, Nat.zero_le _,
      Token.stops_unary _⟩

theorem operand_zero_sound : (operand 0).Sound 0 Level.unary.rank := by
  intro tokens rest expr read
  have outcome := runOperand_outcome none tokens
  rw [← operand_zero_run, read] at outcome
  apply outcome.sound
  intro rule impossible
  cases impossible

theorem operand_succ_sound (operandSound : (operand allowance).Sound allowance Level.unary.rank)
    (expressionSound : (expression allowance).Sound allowance 0) :
    (operand (allowance + 1)).Sound (allowance + 1) Level.unary.rank := by
  intro tokens rest expr read
  have outcome := runOperand_outcome (some (operand allowance)) tokens
  rw [← operand_succ_run, read] at outcome
  refine outcome.sound ?_
  rintro rule ⟨⟩
  exact ⟨allowance, rfl, operandSound, expressionSound⟩

theorem expression_sound (allowance : Nat) : (expression allowance).Sound allowance 0 := by
  apply expression_induction (motive := Sound)
  · intro allowance level rule _ sound
    exact chain_sound sound
  · exact operand_zero_sound
  · intro allowance operandSound expressionSound
    exact operand_succ_sound operandSound expressionSound

end Rule

namespace Parser

variable {tokens : List Token} {parser after : Parser} {expr : Expr}

theorem run_of_tryParse {result : Except Fault Expr} (read : parser.tryParse = (result, after)) :
    (Rule.expression maxNesting).run parser.rest = (result, after.rest) := by
  unfold tryParse at read
  cases read
  rfl

/-- What a parser returns has been read off the tokens that it consumed. -/
theorem readFrom_of_tryParse (read : parser.tryParse = (.ok expr, after)) :
    expr.ReadFrom maxNesting 0 parser.rest after.rest :=
  Rule.expression_sound maxNesting (run_of_tryParse read)

/-- What a parser consumes, as tokens of its list: from its cursor on to where it stops. -/
theorem AtCursor.extract_eq {consumed rest : List Token} (cursor : parser.AtCursor tokens)
    (split : parser.rest = consumed ++ rest) (more : Nat) :
    (withEnd tokens).extract parser.position (parser.position + (consumed.length + more)) =
      consumed ++ rest.take more := by
  rw [List.extract_eq_take_drop, ← cursor.rest, split, Nat.add_sub_cancel_left,
    List.take_length_add_append]

/-- Wherever readings have led a parser, a reading that succeeds has moved the cursor over the
spelling of its result, the result obeys the ladder and the nesting limit, and the token behind it
is no binary operator. So no tree on the ladder, however deep, is spelled from the old cursor to
beyond the new one. -/
theorem tryParse_spells (reached : parser.Reachable tokens)
    (read : parser.tryParse = (.ok expr, after)) :
    parser.position < after.position ∧
    expr.Spells ((withEnd tokens).extract parser.position after.position) ∧
    expr.Ladder ∧
    expr.nesting ≤ maxNesting ∧
    (∃ next, (withEnd tokens)[after.position]? = some next ∧
      next.kind ∉ Kind.binaryOperators) ∧
    (∀ stop, after.position < stop → ∀ longer : Expr, longer.Ladder →
      ¬ longer.Spells ((withEnd tokens).extract parser.position stop)) := by
  have cursor := reached.cursor
  have cursorAfter : after.AtCursor tokens := by
    have moved := cursor.tryParse
    rwa [read] at moved
  have run := run_of_tryParse read
  obtain ⟨⟨consumed, split, spelled⟩, ladder, _, within, stops⟩ := readFrom_of_tryParse read
  obtain ⟨next, rest, behind⟩ : ∃ next rest, after.rest = next :: rest :=
    ⟨_, _, cursorAfter.rest.trans (List.drop_eq_getElem_cons cursorAfter.bound)⟩
  have position : after.position = parser.position + consumed.length := by
    rw [tryParse_of_run split run] at read
    exact (congrArg Parser.position (Prod.mk.inj read).2).symm
  rw [behind] at stops split
  refine ⟨?_, ?_, ladder, within, ?_, ?_⟩
  · have positive := expr.width_pos
    rw [← spelled.length_eq] at positive
    omega
  · have exact := cursor.extract_eq split 0
    rw [List.take_zero, List.append_nil, Nat.add_zero, ← position] at exact
    rwa [exact]
  · refine ⟨next, ?_, (Token.stops_zero_iff next).mp stops⟩
    have atCursor := congrArg List.head? (cursorAfter.rest.symm.trans behind)
    rwa [List.head?_drop] at atCursor
  · intro stop beyond longer longerLadder
    obtain ⟨more, rfl⟩ : ∃ more, stop = parser.position + (consumed.length + (more + 1)) :=
      ⟨stop - after.position - 1, by omega⟩
    rw [cursor.extract_eq split (more + 1), List.take_succ_cons]
    exact spelled.not_longer ladder stops longerLadder

/-- The reading of `-123 * (45.67)` from its first token. -/
theorem tryParse_spells_sample :
    (ofTokens Expr.sampleSpelling).Reachable Expr.sampleSpelling ∧
    (ofTokens Expr.sampleSpelling).tryParse = (.ok Expr.sample, ⟨[.eof 1], 6⟩) ∧
    Expr.sample.Spells ((withEnd Expr.sampleSpelling).extract 0 6) := by
  have ends : (Token.eof 1).kind ∉ Kind.binaryOperators := by decide
  have read : (ofTokens Expr.sampleSpelling).tryParse = (.ok Expr.sample, ⟨[.eof 1], 6⟩) :=
    tryParse_of_within Expr.sample_ladder Expr.sample_spells ends rfl (by decide)
  exact ⟨.start, read, (tryParse_spells .start read).2.1⟩

end Parser
end LoxSyntax
