import LoxSyntax.Expr.Basic

/-! # Precedence levels

The levels of the expression grammar, loosest first. Operators of the four binary levels associate
to the left, those of the unary level stand before their operand.
-/

namespace LoxSyntax

inductive Level where
  | equality | comparison | term | factor | unary | primary
deriving DecidableEq

namespace Level

/-- The place of a level in the ladder, the loosest being 0. -/
def rank : Level → Nat
  | equality => 0
  | comparison => 1
  | term => 2
  | factor => 3
  | unary => 4
  | primary => 5

/-- The binary levels, tightest first. -/
def binaryLevels : List Level := [factor, term, comparison, equality]

end Level

namespace Kind

def binaryLevel? : Kind → Option Level
  | bangEqual => some .equality
  | equalEqual => some .equality
  | greater => some .comparison
  | greaterEqual => some .comparison
  | less => some .comparison
  | lessEqual => some .comparison
  | minus => some .term
  | plus => some .term
  | slash => some .factor
  | star => some .factor
  | _ => none

def isUnaryOperator : Kind → Bool
  | bang => true
  | minus => true
  | _ => false

end Kind

/-- The level of an expression's outermost construct. -/
def Expr.level? : Expr → Option Level
  | binary _ operator _ => operator.kind.binaryLevel?
  | unary _ _ => some .unary
  | literal _ => some .primary
  | grouping _ => some .primary

end LoxSyntax
