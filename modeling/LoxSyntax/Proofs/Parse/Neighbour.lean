import LoxSyntax.Proofs.Parse.Beginning
import Mathlib.Data.List.Chain

/-! # Neighbouring tokens

Which tokens can stand next to each other in the spelling of an expression: behind a token that ends
an operand comes a binary operator or a closing parenthesis, behind any other comes a token that
begins an operand.
-/

namespace LoxSyntax

namespace Kind

/-- The kinds with which an operand can end. -/
def operandEnds : List Kind :=
  [rightParen, keyword .falseWord, keyword .trueWord, keyword .nilWord, number, string]

/-- The kinds behind which an operand comes. -/
def operandLeads : List Kind := leftParen :: bang :: binaryOperators

/-- The kinds that can come behind an operand, inside an expression. -/
def operandFollows : List Kind := rightParen :: binaryOperators

/-- The kinds can stand next to each other in an expression. -/
inductive Adjoins : Kind → Kind → Prop where
  | begin {kind next : Kind} (leads : kind ∈ operandLeads) (begins : next ∈ operandStarts) :
      Adjoins kind next
  | goOn {kind next : Kind} (ends : kind ∈ operandEnds) (follows : next ∈ operandFollows) :
      Adjoins kind next

private theorem mem_binaryOperators {kind : Kind} {level : Level}
    (joins : kind.binaryLevel? = some level) :
    kind ∈ binaryOperators := by
  apply Decidable.byContradiction
  intro other
  rw [(binaryLevel?_eq_none_iff kind).mpr other] at joins
  cases joins

private theorem mem_of_isUnaryOperator {kind : Kind} (stands : kind.isUnaryOperator = true) :
    kind ∈ operandStarts ∧ kind ∈ operandLeads := by
  cases kind <;> simp_all [isUnaryOperator, operandStarts, operandLeads, binaryOperators]

end Kind

theorem Token.Carries.mem_operandStarts {token : Token} {value : Value}
    (carried : token.Carries value) :
    token.kind ∈ Kind.operandStarts ∧ token.kind ∈ Kind.operandEnds := by
  cases carried <;> simp_all [Kind.operandStarts, Kind.operandEnds]

/-- The tokens begin and end as an operand does, and neighbours among them go together. -/
structure Joined (tokens : List Token) : Prop where
  nonempty : tokens ≠ []
  begins : ∀ token ∈ tokens.head?, token.kind ∈ Kind.operandStarts
  ends : ∀ token ∈ tokens.getLast?, token.kind ∈ Kind.operandEnds
  chain : tokens.IsChain fun token next => token.kind.Adjoins next.kind

namespace Joined

variable {before behind : List Token} {operator opening closing token : Token}

theorem singleton (begins : token.kind ∈ Kind.operandStarts) (ends : token.kind ∈ Kind.operandEnds) :
    Joined [token] where
  nonempty := List.cons_ne_nil _ _
  begins := by rintro _ ⟨⟩; exact begins
  ends := by rintro _ ⟨⟩; exact ends
  chain := .singleton token

/-- A token behind which an operand comes, with one behind it. -/
theorem chain_cons (leads : token.kind ∈ Kind.operandLeads) (joined : Joined behind) :
    (token :: behind).IsChain fun token next => token.kind.Adjoins next.kind :=
  List.isChain_cons.mpr ⟨fun next first => .begin leads (joined.begins next first), joined.chain⟩

theorem binary (left : Joined before) (operates : operator.kind ∈ Kind.binaryOperators)
    (right : Joined behind) : Joined (before ++ operator :: behind) where
  nonempty := by simp
  begins := by
    rw [List.head?_append_of_ne_nil _ left.nonempty]
    exact left.begins
  ends := by
    rw [List.append_cons, List.getLast?_append_of_ne_nil _ right.nonempty]
    exact right.ends
  chain := by
    have leads : operator.kind ∈ Kind.operandLeads :=
      List.mem_cons_of_mem _ (List.mem_cons_of_mem _ operates)
    refine List.isChain_append.mpr ⟨left.chain, chain_cons leads right, ?_⟩
    rintro token last _ ⟨⟩
    exact .goOn (left.ends token last) (List.mem_cons_of_mem _ operates)

theorem unary (stands : operator.kind.isUnaryOperator = true) (right : Joined behind) :
    Joined (operator :: behind) where
  nonempty := List.cons_ne_nil _ _
  begins := by rintro _ ⟨⟩; exact (Kind.mem_of_isUnaryOperator stands).1
  ends := by
    rw [List.getLast?_cons_of_ne_nil right.nonempty]
    exact right.ends
  chain := chain_cons (Kind.mem_of_isUnaryOperator stands).2 right

theorem grouping (opens : opening.kind = .leftParen) (closes : closing.kind = .rightParen)
    (inside : Joined behind) : Joined (opening :: (behind ++ [closing])) where
  nonempty := List.cons_ne_nil _ _
  begins := by rintro _ ⟨⟩; rw [opens]; decide
  ends := by
    rw [← List.cons_append, List.getLast?_concat]
    rintro _ ⟨⟩
    rw [closes]
    decide
  chain := by
    have leads : opening.kind ∈ Kind.operandLeads := by rw [opens]; decide
    rw [← List.cons_append]
    refine List.isChain_append.mpr ⟨chain_cons leads inside, .singleton closing, ?_⟩
    rintro token last _ ⟨⟩
    rw [List.getLast?_cons_of_ne_nil inside.nonempty] at last
    exact .goOn (inside.ends token last) (by rw [closes]; decide)

end Joined

/-- Neighbours in the spelling of an expression go together. -/
theorem Expr.Spells.joined {expr : Expr} {tokens : List Token} (spelled : expr.Spells tokens)
    (ladder : expr.Ladder) : Joined tokens := by
  induction spelled with
  | binary spelledLeft spelledRight ihLeft ihRight =>
    cases ladder with
    | binary joins _ _ ladderLeft ladderRight =>
      exact (ihLeft ladderLeft).binary (Kind.mem_binaryOperators joins) (ihRight ladderRight)
  | unary spelledRight ih =>
    cases ladder with
    | unary stands _ ladderRight => exact (ih ladderRight).unary stands
  | literal carried => exact .singleton carried.mem_operandStarts.1 carried.mem_operandStarts.2
  | grouping opens closes spelledInner ih =>
    cases ladder with
    | grouping ladderInner => exact (ih ladderInner).grouping opens closes

end LoxSyntax
