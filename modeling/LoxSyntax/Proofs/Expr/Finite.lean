import LoxSyntax.Proofs.Parse.Spelling

/-! # Finite numbers

Which tokens and expressions hold no infinity and no NaN. An expression has no number but those of
the tokens that spell it.
-/

namespace LoxSyntax

/-- The literal is no infinity and no NaN. -/
def Literal.isFinite : Literal → Bool
  | number value => value.isFinite
  | string _ => true

/-- The value is no infinity and no NaN. -/
def Value.isFinite : Value → Bool
  | number value => value.isFinite
  | _ => true

theorem Literal.isFinite_value (literal : Literal) : literal.value.isFinite = literal.isFinite := by
  cases literal <;> rfl

/-- The token carries no infinity and no NaN. -/
def Token.isFinite (token : Token) : Bool := token.literal.all Literal.isFinite

theorem Token.Carries.isFinite {token : Token} {value : Value} (carried : token.Carries value)
    (finite : token.isFinite = true) : value.isFinite = true := by
  cases carried with
  | number _ carried =>
    rw [Token.isFinite, carried, Option.all_some] at finite
    rwa [Literal.isFinite_value]
  | string _ carried =>
    rw [Token.isFinite, carried, Option.all_some] at finite
    rwa [Literal.isFinite_value]
  | _ => rfl

namespace Expr

/-- No literal of the expression and no operator carries an infinity or a NaN. -/
def isFinite : Expr → Bool
  | binary left operator right => left.isFinite && operator.isFinite && right.isFinite
  | unary operator right => operator.isFinite && right.isFinite
  | literal value => value.isFinite
  | grouping inner => inner.isFinite

theorem Spells.isFinite {expr : Expr} {tokens : List Token} (spelled : expr.Spells tokens)
    (finite : ∀ token ∈ tokens, token.isFinite = true) : expr.isFinite = true := by
  induction spelled with
  | binary _ _ ihLeft ihRight =>
    rw [List.forall_mem_append, List.forall_mem_cons] at finite
    obtain ⟨finiteLeft, finiteOperator, finiteRight⟩ := finite
    rw [Expr.isFinite, ihLeft finiteLeft, finiteOperator, ihRight finiteRight]
    rfl
  | unary _ ih =>
    rw [List.forall_mem_cons] at finite
    rw [Expr.isFinite, finite.1, ih finite.2]
    rfl
  | literal carried => exact carried.isFinite (finite _ List.mem_cons_self)
  | grouping _ _ _ ih =>
    rw [List.forall_mem_cons, List.forall_mem_append] at finite
    exact ih finite.2.1

end Expr
end LoxSyntax
