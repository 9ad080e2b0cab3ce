import LoxSyntax.Parse.Level

/-! # Spellings of expressions

The expression grammar without a parser: which token lists spell a tree, and which trees obey the
precedence ladder. Parentheses are spelled only by groupings, so a tree that breaks the ladder may
have a spelling that reads as another tree. `LoxSyntax.Proofs.Parse.Completeness` shows that a tree
on the ladder has no such rival. Nesting is left to `LoxSyntax.Proofs.Parse.Nesting`.
-/

namespace LoxSyntax

namespace Kind

/-- The kinds that join two operands. -/
def binaryOperators : List Kind :=
  [bangEqual, equalEqual, greater, greaterEqual, less, lessEqual, minus, plus, slash, star]

theorem binaryLevel?_eq_none_iff (kind : Kind) :
    kind.binaryLevel? = none ↔ kind ∉ binaryOperators := by
  cases kind <;> simp [binaryLevel?, binaryOperators]

theorem rank_lt_of_binaryLevel? {kind : Kind} {level : Level}
    (joins : kind.binaryLevel? = some level) : level.rank < Level.unary.rank := by
  cases kind <;> simp_all [binaryLevel?] <;> subst joins <;> decide

end Kind

/-- The token is by itself the spelling of the value. -/
inductive Token.Carries : Token → Value → Prop where
  | falseWord {token : Token} (kind : token.kind = .keyword .falseWord) :
      Carries token (.bool false)
  | trueWord {token : Token} (kind : token.kind = .keyword .trueWord) : Carries token (.bool true)
  | nilWord {token : Token} (kind : token.kind = .keyword .nilWord) : Carries token .nil
  | number {token : Token} {literal : Literal} (kind : token.kind = .number)
      (carried : token.literal = some literal) : Carries token literal.value
  | string {token : Token} {literal : Literal} (kind : token.kind = .string)
      (carried : token.literal = some literal) : Carries token literal.value

/-- The tokens are of one kind and carry the same literal. -/
structure Token.SameSense (token other : Token) : Prop where
  kind : token.kind = other.kind
  literal : token.literal = other.literal

theorem Token.Carries.sameSense {token other : Token} {value : Value}
    (carried : token.Carries value) (same : token.SameSense other) : other.Carries value := by
  obtain ⟨kind, literal⟩ := same
  cases carried with
  | falseWord known => exact .falseWord (kind.symm.trans known)
  | trueWord known => exact .trueWord (kind.symm.trans known)
  | nilWord known => exact .nilWord (kind.symm.trans known)
  | number known carried => exact .number (kind.symm.trans known) (literal.symm.trans carried)
  | string known carried => exact .string (kind.symm.trans known) (literal.symm.trans carried)

namespace Expr

/-- The tokens spell the expression, in order and with nothing else among them. An operator is
spelled by the very token in the tree. -/
inductive Spells : Expr → List Token → Prop where
  | binary {left right : Expr} {operator : Token} {before behind : List Token}
      (spelledLeft : Spells left before) (spelledRight : Spells right behind) :
      Spells (.binary left operator right) (before ++ operator :: behind)
  | unary {operator : Token} {right : Expr} {behind : List Token}
      (spelledRight : Spells right behind) : Spells (.unary operator right) (operator :: behind)
  | literal {token : Token} {value : Value} (carried : token.Carries value) :
      Spells (.literal value) [token]
  | grouping {opening closing : Token} {inner : Expr} {between : List Token}
      (opens : opening.kind = .leftParen) (closes : closing.kind = .rightParen)
      (spelledInner : Spells inner between) :
      Spells (.grouping inner) (opening :: (between ++ [closing]))

/-- The outermost construct is at this place of the ladder or at a tighter one. -/
def Reaches (rank : Nat) (expr : Expr) : Prop :=
  ∃ level, expr.level? = some level ∧ rank ≤ level.rank

/-- The expression obeys the precedence ladder: a left operand is at the level of its operator or
at a tighter one, a right operand at a tighter one, and a unary operator has no binary operand. -/
inductive Ladder : Expr → Prop where
  | binary {left right : Expr} {operator : Token} {level : Level}
      (joins : operator.kind.binaryLevel? = some level)
      (reachesLeft : left.Reaches level.rank) (reachesRight : right.Reaches (level.rank + 1))
      (ladderLeft : Ladder left) (ladderRight : Ladder right) :
      Ladder (.binary left operator right)
  | unary {operator : Token} {right : Expr} (stands : operator.kind.isUnaryOperator = true)
      (reachesRight : right.Reaches Level.unary.rank) (ladderRight : Ladder right) :
      Ladder (.unary operator right)
  | literal (value : Value) : Ladder (.literal value)
  | grouping {inner : Expr} (ladderInner : Ladder inner) : Ladder (.grouping inner)

/-- How many tokens spell the expression. -/
def width : Expr → Nat
  | binary left _ right => left.width + 1 + right.width
  | unary _ right => 1 + right.width
  | literal _ => 1
  | grouping inner => 1 + inner.width + 1

theorem Spells.length_eq {expr : Expr} {tokens : List Token} (spelled : expr.Spells tokens) :
    tokens.length = expr.width := by
  induction spelled with
  | binary _ _ left right =>
    simp only [List.length_append, List.length_cons, left, right, width]
    omega
  | unary _ right => simp only [List.length_cons, right, width]; omega
  | literal => rfl
  | grouping _ _ _ inner =>
    simp only [List.length_cons, List.length_append, List.length_nil, inner, width]
    omega

theorem width_pos (expr : Expr) : 0 < expr.width := by
  cases expr <;> simp only [width] <;> omega

theorem Reaches.mono {low high : Nat} {expr : Expr} (reached : expr.Reaches high)
    (lower : low ≤ high) : expr.Reaches low := by
  obtain ⟨level, known, bound⟩ := reached
  exact ⟨level, known, by omega⟩

/-- Whatever obeys the ladder has a level, and the loosest is rank 0. -/
theorem Ladder.reaches_zero {expr : Expr} (ladder : expr.Ladder) : expr.Reaches 0 := by
  cases ladder with
  | binary joins => exact ⟨_, joins, Nat.zero_le _⟩
  | unary => exact ⟨.unary, rfl, Nat.zero_le _⟩
  | literal => exact ⟨.primary, rfl, Nat.zero_le _⟩
  | grouping => exact ⟨.primary, rfl, Nat.zero_le _⟩

/-- An operation stands no tighter than its operator. -/
theorem Reaches.rank_le {left right : Expr} {operator : Token} {level : Level} {rank : Nat}
    (reached : (binary left operator right).Reaches rank)
    (joins : operator.kind.binaryLevel? = some level) : rank ≤ level.rank := by
  obtain ⟨own, known, bound⟩ := reached
  obtain rfl : level = own := Option.some.inj (joins.symm.trans known)
  exact bound

end Expr
end LoxSyntax
