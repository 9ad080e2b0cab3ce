import LoxSyntax.Expr.Notation
import LoxSyntax.Proofs.Parse.Nesting
import LoxSyntax.Proofs.Parse.Stage

/-! # Completeness of the parser

Whatever spells a tree on the ladder is read as this tree, in front of any token that does not go
on with it, as long as the tree keeps within the allowance; else reading stops behind the opening
that is one too many. `Rule.Completes` states both for a rule at any place of the ladder, since the
loops of the binary levels need it of their operands. Two consequences need no limit, because some
allowance is enough for any tree: a spelling belongs to one tree, and only a binary operator makes
a longer spelling out of one.
-/

namespace LoxSyntax

/-- The token does not go on with an expression of this place of the ladder: it is no binary
operator of the place or of a tighter one. -/
def Token.Stops (rank : Nat) (token : Token) : Prop :=
  ∀ level, token.kind.binaryLevel? = some level → level.rank < rank

theorem Token.Stops.mono {low high : Nat} {token : Token} (stops : token.Stops low)
    (lower : low ≤ high) : token.Stops high := by
  intro level joins
  have bound := stops level joins
  omega

theorem Token.stops_zero_iff (token : Token) :
    token.Stops 0 ↔ token.kind ∉ Kind.binaryOperators := by
  rw [← Kind.binaryLevel?_eq_none_iff, Option.eq_none_iff_forall_ne_some]
  constructor
  · intro stops level joins
    exact Nat.not_lt_zero _ (stops level joins)
  · intro none level joins
    exact absurd joins (none level)

/-- No binary operator is as tight as an operand, so any token may stand behind one. -/
theorem Token.stops_unary (token : Token) : token.Stops Level.unary.rank := by
  intro level joins
  exact Kind.rank_lt_of_binaryLevel? joins

/-- An operator goes on with no operand of its own level. -/
theorem Token.stops_of_binaryLevel? {operator : Token} {level : Level}
    (joins : operator.kind.binaryLevel? = some level) : operator.Stops (level.rank + 1) := by
  intro other known
  obtain rfl := Option.some.inj (joins.symm.trans known)
  exact Nat.lt_succ_self _

/-- What becomes of a reading that would be `done` behind the spelling of the expression: the first
opening beyond the allowance stops it. -/
def Expr.bounded (allowance : Nat) (expr : Expr) (tokens : List Token) (done : Reading) : Reading :=
  match expr.firstBeyond allowance with
  | none => done
  | some opening => .failAt .tooMuchNesting (tokens.drop (opening.index + 1))

namespace Expr

variable {allowance : Nat} {tokens : List Token} {done : Reading}

theorem bounded_of_le {expr : Expr} (within : expr.nesting ≤ allowance) :
    expr.bounded allowance tokens done = done := by
  simp only [bounded, (firstBeyond_eq_none_iff allowance expr).mpr within]

theorem bounded_of_firstBeyond {expr : Expr} {opening : Opening}
    (found : expr.firstBeyond allowance = some opening) :
    expr.bounded allowance tokens done =
      .failAt .tooMuchNesting (tokens.drop (opening.index + 1)) := by
  simp only [bounded, found]

/-- The operands of a binary operator are bounded one after the other. -/
theorem bounded_binary {left right : Expr} {operator : Token} {before : List Token}
    (spelledLeft : left.Spells before) :
    (binary left operator right).bounded allowance (before ++ operator :: tokens) done =
      left.bounded allowance (before ++ operator :: tokens)
        (right.bounded allowance tokens done) := by
  have skip (count : Nat) :
      (before ++ operator :: tokens).drop (count + (left.width + 1) + 1) =
        tokens.drop (count + 1) := by
    have split : count + (left.width + 1) + 1 = before.length + (count + 1 + 1) := by
      rw [spelledLeft.length_eq]
      omega
    rw [split, List.drop_length_add_append, List.drop_succ_cons]
  unfold bounded
  rw [firstBeyond_binary]
  cases left.firstBeyond allowance with
  | some opening => rfl
  | none =>
    cases right.firstBeyond allowance with
    | none => rfl
    | some opening => exact congrArg (Reading.failAt .tooMuchNesting) (skip opening.index)

private theorem bounded_unary {right : Expr} {operator : Token} :
    (unary operator right).bounded (allowance + 1) (operator :: tokens) done =
      right.bounded allowance tokens done := by
  unfold bounded
  rw [firstBeyond_unary]
  cases right.firstBeyond allowance <;> rfl

private theorem bounded_grouping {inner : Expr} {opening : Token} :
    (grouping inner).bounded (allowance + 1) (opening :: tokens) done =
      inner.bounded allowance tokens done := by
  unfold bounded
  rw [firstBeyond_grouping]
  cases inner.firstBeyond allowance <;> rfl

end Expr

namespace Rule

/-- The rule reads every tree of this place of the ladder off its spelling. -/
def Completes (allowance rank : Nat) (rule : Rule) : Prop :=
  ∀ {expr : Expr} {tokens rest : List Token}, expr.Ladder → expr.Reaches rank →
    expr.Spells tokens → (nextToken rest).Stops rank →
    rule.run (tokens ++ rest) = expr.bounded allowance (tokens ++ rest) (.ok expr, rest)

variable {allowance : Nat} {tokens rest : List Token}

section Chain

variable {operand : Rule} {level : Level} {expr : Expr}

/-- A tree of a tighter place is the first operand of a chain. -/
theorem chain_run_of_tighter (completes : operand.Completes allowance (level.rank + 1))
    (ladder : expr.Ladder) (reached : expr.Reaches (level.rank + 1)) (spelled : expr.Spells tokens)
    (stops : (nextToken rest).Stops (level.rank + 1)) :
    (operand.chain level).run (tokens ++ rest) =
      expr.bounded allowance (tokens ++ rest) (joinRight operand level expr rest) := by
  have reading := completes ladder reached spelled stops
  unfold Expr.bounded at reading ⊢
  split at reading
  · exact chain_run_of_ok reading
  · exact chain_run_of_error reading

/-- A right operand that is read off its spelling is joined to what stands to its left. -/
theorem joinRight_of_bounded {left right : Expr} {operator : Token} {spelling : List Token}
    (joins : operator.kind.binaryLevel? = some level)
    (reading : operand.run tokens = right.bounded allowance spelling (.ok right, rest)) :
    joinRight operand level left (operator :: tokens) =
      right.bounded allowance spelling
        (joinRight operand level (.binary left operator right) rest) := by
  unfold Expr.bounded at reading ⊢
  split at reading
  · exact joinRight_of_ok joins reading
  · exact joinRight_of_error joins reading

/-- The loop invariant of a level: behind the spelling of a tree of the level, the chain holds this
tree and may go on with operators. The induction follows the left operands, as the loop does. -/
theorem chain_run_of_spells (completes : operand.Completes allowance (level.rank + 1))
    (binary : level.rank < Level.unary.rank) (ladder : expr.Ladder)
    (reached : expr.Reaches level.rank) (spelled : expr.Spells tokens)
    (stops : (nextToken rest).Stops (level.rank + 1)) :
    (operand.chain level).run (tokens ++ rest) =
      expr.bounded allowance (tokens ++ rest) (joinRight operand level expr rest) := by
  induction ladder generalizing tokens rest with
  | unary stands reachesRight ladderRight =>
    exact chain_run_of_tighter completes (.unary stands reachesRight ladderRight)
      ⟨.unary, rfl, binary⟩ spelled stops
  | literal value =>
    exact chain_run_of_tighter completes (.literal value)
      ⟨.primary, rfl, Nat.le_succ_of_le binary⟩ spelled stops
  | grouping ladderInner =>
    exact chain_run_of_tighter completes (.grouping ladderInner)
      ⟨.primary, rfl, Nat.le_succ_of_le binary⟩ spelled stops
  | @binary left right operator own joins reachesLeft reachesRight ladderLeft ladderRight ihLeft _ =>
    rcases Nat.lt_or_eq_of_le (reached.rank_le joins) with tighter | same
    -- An operator of a tighter level stands within the first operand, before any round of the loop.
    · exact chain_run_of_tighter completes
        (.binary joins reachesLeft reachesRight ladderLeft ladderRight) ⟨own, joins, tighter⟩
        spelled stops
    · obtain rfl := Level.rank_injective same
      cases spelled with
      | binary spelledLeft spelledRight =>
        have readRight := completes ladderRight reachesRight spelledRight stops
        rw [List.append_assoc, List.cons_append, Expr.bounded_binary spelledLeft,
          ← joinRight_of_bounded joins readRight]
        exact ihLeft reachesLeft spelledLeft (Token.stops_of_binaryLevel? joins)

/-- A chain carries completeness one place down the ladder. -/
theorem chain_completes (completes : operand.Completes allowance (level.rank + 1))
    (binary : level.rank < Level.unary.rank) :
    (operand.chain level).Completes allowance level.rank := by
  intro expr tokens rest ladder reached spelled stops
  have notJoined : (nextToken rest).kind.binaryLevel? ≠ some level := by
    intro joins
    exact Nat.lt_irrefl _ (stops level joins)
  rw [chain_run_of_spells completes binary ladder reached spelled (stops.mono (Nat.le_succ _)),
    joinRight_of_stop notJoined]

end Chain

private theorem underOperator_of_bounded {rule : Rule} {right : Expr} {operator : Token}
    {spelling : List Token}
    (reading : rule.run tokens = right.bounded allowance spelling (.ok right, rest)) :
    underOperator (some rule) operator tokens =
      right.bounded allowance spelling (.ok (.unary operator right), rest) := by
  unfold Expr.bounded at reading ⊢
  split at reading <;> simp [underOperator, reading, Reading.failAt]

private theorem underParen_of_bounded {rule : Rule} {inner : Expr} {closing : Token}
    {spelling : List Token} (closes : closing.kind = .rightParen)
    (reading : rule.ladder.run tokens =
      inner.bounded allowance spelling (.ok inner, closing :: rest)) :
    underParen (some rule) tokens =
      inner.bounded allowance spelling (.ok (.grouping inner), rest) := by
  unfold Expr.bounded at reading ⊢
  split at reading <;> simp [underParen, reading, closes, Reading.failAt]

theorem operand_zero_completes : (operand 0).Completes 0 Level.unary.rank := by
  intro expr tokens rest ladder reached spelled stops
  rw [operand_zero_run]
  cases ladder with
  | binary joins =>
    exact absurd (reached.rank_le joins) (Nat.not_le_of_lt (Kind.rank_lt_of_binaryLevel? joins))
  | unary stands =>
    cases spelled with
    | unary spelledRight => exact runOperand_unary stands
  | literal value =>
    cases spelled with
    | literal carried => exact runOperand_literal carried
  | grouping =>
    cases spelled with
    | grouping opens closes spelledInner => exact runOperand_paren opens

theorem operand_succ_completes (operandCompletes : (operand allowance).Completes allowance
    Level.unary.rank) (expressionCompletes : (expression allowance).Completes allowance 0) :
    (operand (allowance + 1)).Completes (allowance + 1) Level.unary.rank := by
  intro expr tokens rest ladder reached spelled stops
  rw [operand_succ_run]
  cases ladder with
  | binary joins =>
    exact absurd (reached.rank_le joins) (Nat.not_le_of_lt (Kind.rank_lt_of_binaryLevel? joins))
  | unary stands reachesRight ladderRight =>
    cases spelled with
    | unary spelledRight =>
      have readRight := operandCompletes ladderRight reachesRight spelledRight stops
      rw [List.cons_append, runOperand_unary stands, Expr.bounded_unary]
      exact underOperator_of_bounded readRight
  | literal value =>
    cases spelled with
    | literal carried => exact runOperand_literal carried
  | grouping ladderInner =>
    cases spelled with
    | @grouping opening closing inner between opens closes spelledInner =>
      have stopsAtParen : closing.Stops 0 := by
        rw [Token.stops_zero_iff, closes]
        decide
      have readInner : (expression allowance).run (between ++ closing :: rest) = _ :=
        expressionCompletes ladderInner ladderInner.reaches_zero spelledInner stopsAtParen
      have split : opening :: (between ++ [closing]) ++ rest =
          opening :: (between ++ closing :: rest) := by simp
      rw [split, runOperand_paren opens, Expr.bounded_grouping]
      exact underParen_of_bounded closes readInner

/-- Under any allowance, expressions are read off their spellings. -/
theorem expression_completes (allowance : Nat) : (expression allowance).Completes allowance 0 := by
  apply expression_induction (motive := Completes)
  · intro allowance level rule binary completes
    exact chain_completes completes binary
  · exact operand_zero_completes
  · intro allowance operandCompletes expressionCompletes
    exact operand_succ_completes operandCompletes expressionCompletes

end Rule

namespace Expr

variable {expr other : Expr} {tokens rest : List Token}

/-- A tree on the ladder is read with the allowance that it needs. -/
theorem Spells.expression_run (spelled : expr.Spells tokens) (ladder : expr.Ladder)
    {allowance : Nat} (within : expr.nesting ≤ allowance) (stops : (nextToken rest).Stops 0) :
    (Rule.expression allowance).run (tokens ++ rest) = (.ok expr, rest) := by
  rw [Rule.expression_completes allowance ladder ladder.reaches_zero spelled stops,
    bounded_of_le within]

/-- No two trees on the ladder have a spelling in common. -/
theorem Spells.unique (spelled : expr.Spells tokens) (ladder : expr.Ladder)
    (rival : other.Spells tokens) (rivalLadder : other.Ladder) : expr = other := by
  have atEnd : (nextToken []).Stops 0 := (Token.stops_zero_iff _).mpr (by decide)
  have first := spelled.expression_run ladder (Nat.le_max_left _ other.nesting) atEnd
  have second := rival.expression_run rivalLadder (Nat.le_max_right expr.nesting _) atEnd
  exact Except.ok.inj (Prod.mk.inj (first.symm.trans second)).1

/-- Only a binary operator goes on with a spelling to a longer one. -/
theorem Spells.not_longer {next : Token} (spelled : expr.Spells tokens) (ladder : expr.Ladder)
    (stops : next.Stops 0) (rivalLadder : other.Ladder) :
    ¬ other.Spells (tokens ++ next :: rest) := by
  intro rival
  have atEnd : (nextToken []).Stops 0 := (Token.stops_zero_iff _).mpr (by decide)
  have first : (Rule.expression _).run (tokens ++ next :: rest) = _ :=
    spelled.expression_run ladder (Nat.le_max_left _ other.nesting) stops
  have second := rival.expression_run rivalLadder (Nat.le_max_right expr.nesting _) atEnd
  rw [List.append_nil, first] at second
  exact List.cons_ne_nil _ _ (Prod.mk.inj second).2

/-- Tokens that spell `Expr.sample`. -/
def sampleSpelling : List Token :=
  [.plain .minus "-" 1, ⟨.number, "123", some (.number (.ofDecimal false 123 0)), 1⟩,
    .plain .star "*" 1, .plain .leftParen "(" 1,
    ⟨.number, "45.67", some (.number (.ofDecimal false 4567 (-2))), 1⟩, .plain .rightParen ")" 1]

theorem sample_ladder : sample.Ladder :=
  .binary rfl ⟨.unary, rfl, by decide⟩ ⟨.primary, rfl, by decide⟩
    (.unary rfl ⟨.primary, rfl, by decide⟩ (.literal _)) (.grouping (.literal _))

theorem sample_spells : sample.Spells sampleSpelling := by
  have carried (lexeme : String) (value : Binary64) :
      Token.Carries ⟨.number, lexeme, some (.number value), 1⟩ (.number value) :=
    @Token.Carries.number _ (.number value) rfl rfl
  exact .binary (.unary (.literal (carried _ _))) (.grouping rfl rfl (.literal (carried _ _)))

end Expr

namespace Parser

variable {parser : Parser} {expr : Expr} {tokens rest : List Token} {next : Token}

/-- Reading a spelling within the limit gives its tree and stops behind it. -/
theorem tryParse_of_within (ladder : expr.Ladder) (spelled : expr.Spells tokens)
    (ends : next.kind ∉ Kind.binaryOperators) (ahead : parser.rest = tokens ++ next :: rest)
    (within : expr.nesting ≤ maxNesting) :
    parser.tryParse = (.ok expr, ⟨next :: rest, parser.position + tokens.length⟩) := by
  have stops : (nextToken (next :: rest)).Stops 0 := (Token.stops_zero_iff next).mpr ends
  have run := spelled.expression_run ladder within stops
  rw [← ahead] at run
  exact tryParse_of_run ahead run

/-- Reading a spelling beyond the limit stops behind the first opening that is one too many. -/
theorem tryParse_of_beyond {opening : Opening} (ladder : expr.Ladder)
    (spelled : expr.Spells tokens) (ends : next.kind ∉ Kind.binaryOperators)
    (ahead : parser.rest = tokens ++ next :: rest)
    (beyond : expr.firstBeyond maxNesting = some opening) :
    ∃ blamed, parser.rest[opening.index + 1]? = some blamed ∧
      parser.tryParse = (.error (.atToken blamed .tooMuchNesting),
        ⟨parser.rest.drop (opening.index + 1), parser.position + (opening.index + 1)⟩) := by
  have stops : (nextToken (next :: rest)).Stops 0 := (Token.stops_zero_iff next).mpr ends
  have run := Rule.expression_completes maxNesting ladder ladder.reaches_zero spelled stops
  rw [← ahead, Expr.bounded_of_firstBeyond beyond] at run
  have inside : opening.index + 1 < parser.rest.length := by
    have bound := Expr.firstBeyond_index_lt beyond
    rw [← spelled.length_eq] at bound
    rw [ahead, List.length_append]
    omega
  refine ⟨parser.rest[opening.index + 1], List.getElem?_eq_getElem inside, ?_⟩
  rw [tryParse_of_run (List.take_append_drop (opening.index + 1) parser.rest).symm run,
    List.length_take_of_le (Nat.le_of_lt inside), List.drop_eq_getElem_cons inside, nextToken]

/-- The parser decodes spellings: whatever spells a tree on the ladder is read as this tree and no
other, up to the first token behind it, unless some opening of the spelling is one too many. Then
reading stops behind the first such opening, and the fault lies at the token there. -/
theorem tryParse_spelling (ladder : expr.Ladder) (spelled : expr.Spells tokens)
    (ends : next.kind ∉ Kind.binaryOperators) (ahead : parser.rest = tokens ++ next :: rest) :
    (expr.nesting ≤ maxNesting →
      parser.tryParse = (.ok expr, ⟨next :: rest, parser.position + tokens.length⟩)) ∧
    (maxNesting < expr.nesting → ∃ opening opener blamed fault,
      expr.ExceedsFirst maxNesting opening ∧
      tokens[opening.index]? = some opener ∧
      (opener.kind = .leftParen ∨ opener.kind.isUnaryOperator = true) ∧
      parser.rest[opening.index + 1]? = some blamed ∧
      fault.LiesAt blamed "Too much nesting" ∧
      parser.tryParse = (.error fault,
        ⟨parser.rest.drop (opening.index + 1), parser.position + (opening.index + 1)⟩)) ∧
    (∀ other : Expr, other.Ladder → other.Spells tokens → other = expr) := by
  refine ⟨tryParse_of_within ladder spelled ends ahead, ?_, ?_⟩
  · intro tooDeep
    have found : expr.firstBeyond maxNesting ≠ none := by
      rw [ne_eq, Expr.firstBeyond_eq_none_iff]
      omega
    obtain ⟨opening, beyond⟩ := Option.ne_none_iff_exists'.mp found
    obtain ⟨opener, place, kind⟩ := spelled.opener ladder (List.mem_of_find?_eq_some beyond)
    obtain ⟨blamed, behind, parsed⟩ := tryParse_of_beyond ladder spelled ends ahead beyond
    exact ⟨opening, opener, blamed, _, Expr.exceedsFirst_of_firstBeyond beyond, place, kind, behind,
      Fault.atToken_liesAt blamed .tooMuchNesting, parsed⟩
  · intro other otherLadder otherSpelled
    exact otherSpelled.unique otherLadder spelled ladder

/-- The spelling of `-123 * (45.67)` before the end of the input. -/
theorem tryParse_sampleSpelling :
    Expr.sample.Ladder ∧ Expr.sample.Spells Expr.sampleSpelling ∧
      (Token.eof 1).kind ∉ Kind.binaryOperators ∧ Expr.sample.nesting ≤ maxNesting ∧
      (ofTokens Expr.sampleSpelling).tryParse = (.ok Expr.sample, ⟨[.eof 1], 6⟩) := by
  have within : Expr.sample.nesting ≤ maxNesting := by decide
  have ends : (Token.eof 1).kind ∉ Kind.binaryOperators := by decide
  exact ⟨Expr.sample_ladder, Expr.sample_spells, ends, within,
    (tryParse_spelling Expr.sample_ladder Expr.sample_spells ends rfl).1 within⟩

end Parser
end LoxSyntax
