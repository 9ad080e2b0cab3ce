import LoxSyntax.Proofs.Parse.Soundness

/-! # The height of what is read

The nesting limit bounds how deep an expression is that a parser returns, if an operation that goes
on with a chain to its left is not counted: between two nestings a path goes down the ladder, which
has four binary levels. A chain itself may be of any length, since the loop of a level opens no
nesting. So the limit alone does not bound the height.
-/

namespace LoxSyntax

namespace Expr

/-- The operations and groupings on the longest path from the root to a leaf. -/
def height : Expr → Nat
  | binary left _ right => max left.height right.height + 1
  | unary _ right => right.height + 1
  | literal _ => 0
  | grouping inner => inner.height + 1

/-- The left operand of the operator is an operation of the same binary level. -/
def GoesOnWith (operator : Token) (left : Expr) : Prop :=
  left.level? = operator.kind.binaryLevel?

instance (operator : Token) (left : Expr) : Decidable (left.GoesOnWith operator) :=
  inferInstanceAs (Decidable (_ = _))

/-- The operations and groupings on the longest path, left operands of operations on their own level
not counted. -/
def layers : Expr → Nat
  | binary left operator right =>
    max (if left.GoesOnWith operator then left.layers else left.layers + 1) (right.layers + 1)
  | unary _ right => right.layers + 1
  | literal _ => 0
  | grouping inner => inner.layers + 1

/-- The most operations on a path that are left operands of operations on their own level. -/
def chained : Expr → Nat
  | binary left operator right =>
    max (if left.GoesOnWith operator then left.chained + 1 else left.chained) right.chained
  | unary _ right => right.chained
  | literal _ => 0
  | grouping inner => inner.chained

/-- What the layers leave out is chained. -/
theorem height_le (expr : Expr) : expr.height ≤ expr.layers + expr.chained := by
  induction expr with
  | binary left operator right ihLeft ihRight =>
    by_cases goesOn : left.GoesOnWith operator
    · simp only [height, layers, chained, if_pos goesOn]
      omega
    · simp only [height, layers, chained, if_neg goesOn]
      omega
  | unary operator right ih =>
    simp only [height, layers, chained]
    omega
  | literal value => exact Nat.le_refl 0
  | grouping inner ih =>
    simp only [height, layers, chained]
    omega

/-- A left operand that does not go on with the chain is of a tighter level. -/
theorem Reaches.succ_of_not_goesOnWith {left : Expr} {operator : Token} {level : Level}
    (reached : left.Reaches level.rank) (joins : operator.kind.binaryLevel? = some level)
    (stops : ¬ left.GoesOnWith operator) : left.Reaches (level.rank + 1) := by
  obtain ⟨own, known, bound⟩ := reached
  have differ : own.rank ≠ level.rank := by
    intro same
    rw [Level.rank_injective same, ← joins] at known
    exact stops known
  exact ⟨own, known, by omega⟩

/-- A nesting costs one layer and lets four binary levels begin anew. The tighter the expression
is, the fewer of these are left before the first nesting. -/
theorem Ladder.layers_le {expr : Expr} {rank : Nat} (ladder : expr.Ladder)
    (reached : expr.Reaches rank) (binary : rank ≤ Level.unary.rank) :
    expr.layers + rank ≤ 5 * expr.nesting + 4 := by
  have four : Level.unary.rank = 4 := rfl
  induction ladder generalizing rank with
  | @binary left right operator level joins reachesLeft reachesRight _ _ ihLeft ihRight =>
    have tighter := Kind.rank_lt_of_binaryLevel? joins
    have own := reached.rank_le joins
    have boundRight := ihRight reachesRight tighter
    by_cases goesOn : left.GoesOnWith operator
    · have boundLeft := ihLeft reachesLeft (Nat.le_of_lt tighter)
      simp only [layers, nesting, if_pos goesOn]
      omega
    · have boundLeft := ihLeft (reachesLeft.succ_of_not_goesOnWith joins goesOn) tighter
      simp only [layers, nesting, if_neg goesOn]
      omega
  | unary _ reachesRight _ ih =>
    have bound := ih reachesRight (Nat.le_refl _)
    simp only [layers, nesting]
    omega
  | literal value =>
    simp only [layers, nesting]
    omega
  | grouping ladderInner ih =>
    have bound := ih ladderInner.reaches_zero (Nat.zero_le _)
    simp only [layers, nesting]
    omega

/-- A sum of so many plus signs, which is one chain. -/
def sum : Nat → Expr
  | 0 => literal .nil
  | count + 1 => binary (sum count) (.plain .plus "+" 1) (literal .nil)

/-- The tokens of the sum: `nil + nil + nil`. -/
def sumTokens : Nat → List Token
  | 0 => [.plain (.keyword .nilWord) "nil" 1]
  | count + 1 => sumTokens count ++ [.plain .plus "+" 1, .plain (.keyword .nilWord) "nil" 1]

section Sum

variable (count : Nat)

private theorem height_sum : (sum count).height = count := by
  induction count with
  | zero => rfl
  | succ count ih => simp [sum, height, ih]

private theorem nesting_sum : (sum count).nesting = 0 := by
  induction count with
  | zero => rfl
  | succ count ih => simp [sum, nesting, ih]

private theorem sum_reaches : (sum count).Reaches Level.term.rank := by
  cases count with
  | zero => exact ⟨.primary, rfl, by decide⟩
  | succ count => exact ⟨.term, rfl, Nat.le_refl _⟩

private theorem sum_ladder : (sum count).Ladder := by
  induction count with
  | zero => exact .literal .nil
  | succ count ih =>
    exact .binary rfl (sum_reaches count) ⟨.primary, rfl, by decide⟩ ih (.literal .nil)

private theorem sum_spells : (sum count).Spells (sumTokens count) := by
  induction count with
  | zero => exact .literal (.nilWord rfl)
  | succ count ih => exact .binary ih (.literal (.nilWord rfl))

end Sum
end Expr

namespace Parser

private theorem tryParse_sum (count : Nat) :
    (ofTokens (Expr.sumTokens count ++ [.eof 1])).tryParse =
      (.ok (Expr.sum count), ⟨[.eof 1], (Expr.sumTokens count).length⟩) := by
  have ahead : (ofTokens (Expr.sumTokens count ++ [.eof 1])).rest =
      Expr.sumTokens count ++ [.eof 1] := by
    simp [ofTokens, withEnd, Token.eof, Token.plain]
  have ends : (Token.eof 1).kind ∉ Kind.binaryOperators := by decide
  rw [tryParse_of_within (Expr.sum_ladder count) (Expr.sum_spells count) ends ahead
    (by simp [Expr.nesting_sum])]
  simp [ofTokens]

/-- Every expression that a parser returns has a bounded number of layers. So its height is bounded,
but for the chains of left operands on one level. -/
theorem tryParse_layers_le {parser after : Parser} {expr : Expr}
    (read : parser.tryParse = (.ok expr, after)) :
    expr.layers ≤ 5 * maxNesting + 4 ∧ expr.height ≤ 5 * maxNesting + 4 + expr.chained := by
  obtain ⟨_, ladder, _, within, _⟩ := readFrom_of_tryParse read
  have layers := ladder.layers_le ladder.reaches_zero (Nat.zero_le _)
  have height := expr.height_le
  omega

/-- A sum is higher than all its layers if it is long. -/
theorem tryParse_layers_le_sum :
    (ofTokens (Expr.sumTokens 2000 ++ [.eof 1])).tryParse =
        (.ok (Expr.sum 2000), ⟨[.eof 1], (Expr.sumTokens 2000).length⟩) ∧
      (Expr.sum 2000).layers ≤ 5 * maxNesting + 4 ∧ 5 * maxNesting + 4 < (Expr.sum 2000).height ∧
      (Expr.sum 2000).height ≤ 5 * maxNesting + 4 + (Expr.sum 2000).chained := by
  have bounds := tryParse_layers_le (tryParse_sum 2000)
  have high : 5 * maxNesting + 4 < (Expr.sum 2000).height := by
    rw [Expr.height_sum]
    decide
  exact ⟨tryParse_sum 2000, bounds.1, high, bounds.2⟩

/-- No number bounds the height of all expressions that are read from token lists. -/
theorem tryParse_height_unbounded :
    ¬ ∃ bound, ∀ (tokens : List Token) (expr : Expr),
      (ofTokens tokens).tryParse.1 = .ok expr → expr.height ≤ bound := by
  rintro ⟨bound, bounded⟩
  have height := bounded _ _ (congrArg Prod.fst (tryParse_sum (bound + 1)))
  rw [Expr.height_sum] at height
  omega

end Parser
end LoxSyntax
