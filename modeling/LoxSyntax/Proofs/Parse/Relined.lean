import LoxSyntax.Proofs.Parse.Nesting

/-! # Expressions up to lines

Where a token stands is no part of what it says. Tokens that differ only in their lines spell
expressions that differ only in the lines of their operators, and whether an expression obeys the
ladder and how deep it nests depends on no line.
-/

namespace LoxSyntax

/-- The token on no line in particular. -/
def Token.lineless (token : Token) : Token := { token with line := 0 }

theorem Token.kind_eq_of_lineless {token other : Token} (same : token.lineless = other.lineless) :
    token.kind = other.kind := by
  have kind : token.lineless.kind = other.lineless.kind := congrArg Token.kind same
  exact kind

/-- The line is no part of the sense of a token. -/
theorem Token.SameSense.of_lineless {token other : Token} (same : token.lineless = other.lineless) :
    token.SameSense other := by
  have literal : token.lineless.literal = other.lineless.literal := congrArg Token.literal same
  exact ⟨Token.kind_eq_of_lineless same, literal⟩

namespace Expr

/-- The expression with its operators on no line in particular. -/
def lineless : Expr → Expr
  | binary left operator right => binary left.lineless operator.lineless right.lineless
  | unary operator right => unary operator.lineless right.lineless
  | literal value => literal value
  | grouping inner => grouping inner.lineless

theorem level?_lineless (expr : Expr) : expr.lineless.level? = expr.level? := by
  cases expr <;> rfl

theorem nesting_lineless (expr : Expr) : expr.lineless.nesting = expr.nesting := by
  induction expr with
  | binary left operator right ihLeft ihRight => simp only [lineless, nesting, ihLeft, ihRight]
  | unary operator right ih => simp only [lineless, nesting, ih]
  | literal value => rfl
  | grouping inner ih => simp only [lineless, nesting, ih]

theorem nesting_eq_of_lineless {expr other : Expr} (same : other.lineless = expr.lineless) :
    other.nesting = expr.nesting := by
  rw [← nesting_lineless, same, nesting_lineless]

theorem Reaches.relined {rank : Nat} {expr other : Expr} (reached : expr.Reaches rank)
    (same : other.lineless = expr.lineless) : other.Reaches rank := by
  obtain ⟨level, known, bound⟩ := reached
  refine ⟨level, ?_, bound⟩
  rw [← level?_lineless, same, level?_lineless, known]

theorem Ladder.relined {expr other : Expr} (ladder : expr.Ladder)
    (same : other.lineless = expr.lineless) : other.Ladder := by
  induction ladder generalizing other with
  | binary joins reachesLeft reachesRight _ _ ihLeft ihRight =>
    cases other with
    | binary left operator right =>
      obtain ⟨sameLeft, sameOperator, sameRight⟩ := Expr.binary.inj same
      rw [← Token.kind_eq_of_lineless sameOperator] at joins
      exact .binary joins (reachesLeft.relined sameLeft) (reachesRight.relined sameRight)
        (ihLeft sameLeft) (ihRight sameRight)
    | _ => cases same
  | unary stands reachesRight _ ih =>
    cases other with
    | unary operator right =>
      obtain ⟨sameOperator, sameRight⟩ := Expr.unary.inj same
      rw [← Token.kind_eq_of_lineless sameOperator] at stands
      exact .unary stands (reachesRight.relined sameRight) (ih sameRight)
    | _ => cases same
  | literal value =>
    cases other with
    | literal other => exact .literal other
    | _ => cases same
  | grouping _ ih =>
    cases other with
    | grouping inner => exact .grouping (ih (Expr.grouping.inj same))
    | _ => cases same

/-- Tokens that differ only in their lines from a spelling spell the same expression up to lines. -/
theorem Spells.relined {expr : Expr} {tokens others : List Token} (spelled : expr.Spells tokens)
    (same : others.map Token.lineless = tokens.map Token.lineless) :
    ∃ other : Expr, other.Spells others ∧ other.lineless = expr.lineless := by
  induction spelled generalizing others with
  | binary spelledLeft spelledRight ihLeft ihRight =>
    rw [List.map_append, List.map_cons] at same
    obtain ⟨before, behind, rfl, sameLeft, sameBehind⟩ := List.map_eq_append_iff.mp same
    obtain ⟨operator, right, rfl, sameOperator, sameRight⟩ := List.map_eq_cons_iff.mp sameBehind
    obtain ⟨leftExpr, leftSpelled, leftSame⟩ := ihLeft sameLeft
    obtain ⟨rightExpr, rightSpelled, rightSame⟩ := ihRight sameRight
    refine ⟨.binary leftExpr operator rightExpr, .binary leftSpelled rightSpelled, ?_⟩
    simp only [lineless, leftSame, sameOperator, rightSame]
  | unary spelledRight ih =>
    obtain ⟨operator, right, rfl, sameOperator, sameRight⟩ := List.map_eq_cons_iff.mp same
    obtain ⟨rightExpr, rightSpelled, rightSame⟩ := ih sameRight
    refine ⟨.unary operator rightExpr, .unary rightSpelled, ?_⟩
    simp only [lineless, sameOperator, rightSame]
  | literal carried =>
    obtain ⟨token, none, rfl, sameToken, sameNone⟩ := List.map_eq_cons_iff.mp same
    obtain rfl := List.map_eq_nil_iff.mp sameNone
    exact ⟨_, .literal (carried.sameSense (.of_lineless sameToken.symm)), rfl⟩
  | grouping opens closes spelledInner ih =>
    obtain ⟨opening, behind, rfl, sameOpening, sameBehind⟩ := List.map_eq_cons_iff.mp same
    rw [List.map_append] at sameBehind
    obtain ⟨between, end_, rfl, sameBetween, sameEnd⟩ := List.map_eq_append_iff.mp sameBehind
    obtain ⟨closing, none, rfl, sameClosing, sameNone⟩ := List.map_eq_cons_iff.mp sameEnd
    obtain rfl := List.map_eq_nil_iff.mp sameNone
    obtain ⟨innerExpr, innerSpelled, innerSame⟩ := ih sameBetween
    refine ⟨.grouping innerExpr, .grouping ?_ ?_ innerSpelled, ?_⟩
    · exact (Token.kind_eq_of_lineless sameOpening).trans opens
    · exact (Token.kind_eq_of_lineless sameClosing).trans closes
    · simp only [lineless, innerSame]

end Expr
end LoxSyntax
