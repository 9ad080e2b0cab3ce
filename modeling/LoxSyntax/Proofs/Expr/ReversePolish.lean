import LoxSyntax.Expr.Notation
import LoxSyntax.Proofs.Parse.Relined

/-! # Reverse Polish text as steps

A reverse Polish text is one word for each operand and each operator of its expression. Read as the
steps of a stack machine these rebuild the expression, without its groupings and with its operators
on no line in particular (`Expr.build_steps`). A word does not tell how many operands an operator
takes, so the text tells the steps only where the words do.
-/

namespace LoxSyntax

/-- What a word of a reverse Polish text stands for. -/
inductive Step where
  | operand (value : Value)
  | operator (token : Token) (isUnary : Bool)
deriving DecidableEq

namespace Step

def word : Step → String
  | operand value => value.text
  | operator token _ => token.lexeme

/-- Does the step with the expressions on the stack, the last one first. -/
def build (stack : List Expr) : Step → List Expr
  | operand value => .literal value :: stack
  | operator token true =>
    match stack with
    | right :: others => .unary token right :: others
    | [] => []
  | operator token false =>
    match stack with
    | right :: left :: others => .binary left token right :: others
    | few => few

def isOperand : Step → Bool
  | operand _ => true
  | operator _ _ => false

def isBinary : Step → Bool
  | operand _ => false
  | operator _ isUnary => !isUnary

/-- Of a minus sign, whether it is unary. -/
def sign? : Step → Option Bool
  | operand _ => none
  | operator token isUnary => if token.kind = .minus then some isUnary else none

end Step

namespace Expr

/-- The expression with every grouping replaced by what it holds. -/
def ungrouped : Expr → Expr
  | binary left operator right => binary left.ungrouped operator right.ungrouped
  | unary operator right => unary operator right.ungrouped
  | literal value => literal value
  | grouping inner => inner.ungrouped

/-- Some literal of the expression is a string. -/
def hasString : Expr → Bool
  | binary left _ right => left.hasString || right.hasString
  | unary _ right => right.hasString
  | literal (.string _) => true
  | literal _ => false
  | grouping inner => inner.hasString

/-- The operands and operators in the order of the reverse Polish text. -/
def steps : Expr → List Step
  | binary left operator right => left.steps ++ (right.steps ++ [.operator operator.lineless false])
  | unary operator right => right.steps ++ [.operator operator.lineless true]
  | literal value => [.operand value]
  | grouping inner => inner.steps

/-- Of each minus sign, in the order of the reverse Polish text, whether it is unary. -/
def signs (expr : Expr) : List Bool := expr.steps.filterMap Step.sign?

theorem build_steps (expr : Expr) (stack : List Expr) :
    expr.steps.foldl Step.build stack = expr.ungrouped.lineless :: stack := by
  induction expr generalizing stack with
  | binary left operator right ihLeft ihRight =>
    rw [steps, List.foldl_append, List.foldl_append, ihLeft, ihRight]
    rfl
  | unary operator right ih =>
    rw [steps, List.foldl_append, ih]
    rfl
  | literal value => rfl
  | grouping inner ih => exact ih stack

theorem steps_ungrouped_lineless (expr : Expr) : expr.ungrouped.lineless.steps = expr.steps := by
  induction expr with
  | binary left operator right ihLeft ihRight =>
    simp only [ungrouped, lineless, steps, ihLeft, ihRight]
    rfl
  | unary operator right ih =>
    simp only [ungrouped, lineless, steps, ih]
    rfl
  | literal value => rfl
  | grouping inner ih => exact ih

/-- Two expressions have the same steps if they are the same up to groupings and lines. -/
theorem steps_eq_iff {expr other : Expr} :
    expr.steps = other.steps ↔ expr.ungrouped.lineless = other.ungrouped.lineless := by
  constructor
  · intro same
    have built := expr.build_steps []
    rw [same, other.build_steps] at built
    exact (List.cons.inj built).1.symm
  · intro same
    rw [← steps_ungrouped_lineless, same, steps_ungrouped_lineless]

theorem steps_ne_nil (expr : Expr) : expr.steps ≠ [] := by
  induction expr with
  | binary => simp [steps]
  | unary => simp [steps]
  | literal => simp [steps]
  | grouping inner ih => exact ih

section Steps

variable {left right : Expr} {operator : Token} {P : Step → Prop}

theorem forall_mem_steps_binary : (∀ step ∈ (binary left operator right).steps, P step) ↔
    (∀ step ∈ left.steps, P step) ∧ (∀ step ∈ right.steps, P step) ∧
      P (.operator operator.lineless false) := by
  simp only [steps, List.forall_mem_append, List.forall_mem_singleton]

theorem forall_mem_steps_unary : (∀ step ∈ (unary operator right).steps, P step) ↔
    (∀ step ∈ right.steps, P step) ∧ P (.operator operator.lineless true) := by
  simp only [steps, List.forall_mem_append, List.forall_mem_singleton]

theorem forall_mem_steps_literal {value : Value} :
    (∀ step ∈ (literal value).steps, P step) ↔ P (.operand value) :=
  List.forall_mem_singleton

end Steps

/-- The text is the words with single spaces between them. -/
theorem reversePolish_eq (expr : Expr) :
    expr.reversePolish = " ".intercalate (expr.steps.map Step.word) := by
  induction expr with
  | binary left operator right ihLeft ihRight =>
    have leftWords : left.steps.map Step.word ≠ [] := by simp [left.steps_ne_nil]
    have rightWords : right.steps.map Step.word ≠ [] := by simp [right.steps_ne_nil]
    rw [reversePolish, ihLeft, ihRight, steps, List.map_append, List.map_append,
      String.intercalate_append_of_ne_nil leftWords (by simp [rightWords]),
      String.intercalate_append_of_ne_nil rightWords (by simp)]
    simp [Step.word, Token.lineless, String.append_assoc]
  | unary operator right ih =>
    have words : right.steps.map Step.word ≠ [] := by simp [right.steps_ne_nil]
    rw [reversePolish, ih, steps, List.map_append,
      String.intercalate_append_of_ne_nil words (by simp)]
    simp [Step.word, Token.lineless]
  | literal value => simp [reversePolish, steps, Step.word]
  | grouping inner ih => exact ih

/-- The words can be told from the text where none of them has a space. -/
theorem splitOn_reversePolish {expr : Expr}
    (spaceless : ∀ step ∈ expr.steps, ' ' ∉ step.word.toList) :
    expr.reversePolish.toList.splitOn ' ' = (expr.steps.map Step.word).map String.toList := by
  have space : " ".toList = [' '] := by decide
  rw [reversePolish_eq, String.toList_intercalate, space]
  apply List.splitOn_intercalate
  · intro word member
    obtain ⟨text, inText, rfl⟩ := List.mem_map.mp member
    obtain ⟨step, inSteps, rfl⟩ := List.mem_map.mp inText
    exact spaceless step inSteps
  · simp [expr.steps_ne_nil]

theorem words_eq_of_reversePolish {expr other : Expr}
    (spaceless : ∀ step ∈ expr.steps, ' ' ∉ step.word.toList)
    (spacelessOther : ∀ step ∈ other.steps, ' ' ∉ step.word.toList)
    (same : expr.reversePolish = other.reversePolish) :
    expr.steps.map Step.word = other.steps.map Step.word := by
  have split := splitOn_reversePolish spaceless
  rw [same, splitOn_reversePolish spacelessOther] at split
  exact ((List.map_inj_right fun _ _ => String.toList_inj.mp).mp split).symm

/-- A binary operator takes one operand more than it gives. -/
theorem count_operands (expr : Expr) :
    expr.steps.countP Step.isOperand = expr.steps.countP Step.isBinary + 1 := by
  induction expr with
  | binary left operator right ihLeft ihRight =>
    simp only [steps, List.countP_append, ihLeft, ihRight, List.countP_singleton, Step.isOperand,
      Step.isBinary, Bool.not_false, Bool.false_eq_true, ↓reduceIte]
    omega
  | unary operator right ih =>
    simp only [steps, List.countP_append, ih, List.countP_singleton, Step.isOperand,
      Step.isBinary, Bool.not_true, Bool.false_eq_true, ↓reduceIte]
  | literal value => rfl
  | grouping inner ih => exact ih

end Expr
end LoxSyntax
