/-! # Ranges of code points

A Unicode property is a list of closed ranges in ascending order. Looking a code point up stops at
the first range that reaches it.
-/

namespace LoxSyntax.Unicode

/-- The number lies in one of the ascending ranges. -/
def liesIn : List (Nat × Nat) → Nat → Bool
  | [], _ => false
  | (first, last) :: ranges, n =>
    if n < first then false else if n ≤ last then true else liesIn ranges n

end LoxSyntax.Unicode
