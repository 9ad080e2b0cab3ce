import LoxSyntax.Proofs.Parse.Spelling

/-! # Nesting

Groupings and unary operators nest; binary operators do not. An expression nests as deep as its
worst path from the root to a leaf, and its spelling shows where: each `(`, `!` and unary `-` raises
the number of constructs that are open at once. `Expr.firstBeyond_eq_none_iff` ties the two views
together: some token raises the number beyond a limit exactly if some path is longer than it.
-/

namespace LoxSyntax

/-- A token of a spelling that opens a grouping or a unary operator. -/
structure Opening where
  /-- How many tokens of the spelling stand before it. -/
  index : Nat
  /-- How many groupings and unary operators are open once it is read, its own included. -/
  depth : Nat
deriving DecidableEq

/-- The same token, seen from around the expression: behind more tokens and inside more
constructs. -/
def Opening.within (tokens constructs : Nat) (opening : Opening) : Opening :=
  ⟨opening.index + tokens, opening.depth + constructs⟩

namespace Expr

/-- The most groupings and unary operators on a path from the root to a leaf. -/
def nesting : Expr → Nat
  | binary left _ right => max left.nesting right.nesting
  | unary _ right => right.nesting + 1
  | literal _ => 0
  | grouping inner => inner.nesting + 1

/-- The openings of the spelling, in order. -/
def openings : Expr → List Opening
  | binary left _ right => left.openings ++ right.openings.map (.within (left.width + 1) 0)
  | unary _ right => ⟨0, 1⟩ :: right.openings.map (.within 1 1)
  | literal _ => []
  | grouping inner => ⟨0, 1⟩ :: inner.openings.map (.within 1 1)

/-- The first opening that raises the number of open constructs to one more than allowed. -/
def firstBeyond (allowance : Nat) (expr : Expr) : Option Opening :=
  expr.openings.find? fun opening => opening.depth == allowance + 1

theorem firstBeyond_literal (allowance : Nat) (value : Value) :
    (literal value).firstBeyond allowance = none := rfl

theorem firstBeyond_binary (allowance : Nat) (left right : Expr) (operator : Token) :
    (binary left operator right).firstBeyond allowance =
      (left.firstBeyond allowance).or
        ((right.firstBeyond allowance).map (.within (left.width + 1) 0)) := by
  rw [firstBeyond, openings, List.find?_append, List.find?_map]
  rfl

/-- What a construct adds to the openings of its operand: its own, and one level around them. -/
private theorem find?_nested (allowance : Nat) (openings : List Opening) :
    ((⟨0, 1⟩ :: openings.map (Opening.within 1 1)).find? fun opening =>
        opening.depth == allowance + 1 + 1) =
      (openings.find? fun opening => opening.depth == allowance + 1).map (Opening.within 1 1) := by
  simp [List.find?_map, Opening.within, Function.comp_def]

theorem firstBeyond_unary (allowance : Nat) (operator : Token) (right : Expr) :
    (unary operator right).firstBeyond (allowance + 1) =
      (right.firstBeyond allowance).map (.within 1 1) :=
  find?_nested allowance right.openings

theorem firstBeyond_grouping (allowance : Nat) (inner : Expr) :
    (grouping inner).firstBeyond (allowance + 1) =
      (inner.firstBeyond allowance).map (.within 1 1) :=
  find?_nested allowance inner.openings

theorem firstBeyond_unary_zero (operator : Token) (right : Expr) :
    (unary operator right).firstBeyond 0 = some ⟨0, 1⟩ := rfl

theorem firstBeyond_grouping_zero (inner : Expr) :
    (grouping inner).firstBeyond 0 = some ⟨0, 1⟩ := rfl

/-- Some token opens one construct too many exactly if some path holds too many. -/
theorem firstBeyond_eq_none_iff (allowance : Nat) (expr : Expr) :
    expr.firstBeyond allowance = none ↔ expr.nesting ≤ allowance := by
  induction expr generalizing allowance with
  | binary left operator right ihLeft ihRight =>
    rw [firstBeyond_binary, Option.or_eq_none_iff, Option.map_eq_none_iff, ihLeft, ihRight, nesting]
    omega
  | unary operator right ih =>
    cases allowance with
    | zero => simp [firstBeyond_unary_zero, nesting]
    | succ allowance => rw [firstBeyond_unary, Option.map_eq_none_iff, ih, nesting]; omega
  | literal value => simp [firstBeyond_literal, nesting]
  | grouping inner ih =>
    cases allowance with
    | zero => simp [firstBeyond_grouping_zero, nesting]
    | succ allowance => rw [firstBeyond_grouping, Option.map_eq_none_iff, ih, nesting]; omega

/-- An opening is never the last token of a spelling. -/
theorem index_lt_width {expr : Expr} {opening : Opening} (member : opening ∈ expr.openings) :
    opening.index + 1 < expr.width := by
  induction expr generalizing opening with
  | binary left operator right ihLeft ihRight =>
    rcases List.mem_append.mp member with member | member
    · have bound := ihLeft member
      simp only [width]
      omega
    · obtain ⟨inner, innerMember, rfl⟩ := List.mem_map.mp member
      have bound := ihRight innerMember
      simp only [width, Opening.within]
      omega
  | literal value => cases member
  | unary operator right ih =>
    have positive := right.width_pos
    rcases List.mem_cons.mp member with rfl | member
    · simp only [width]
      omega
    · obtain ⟨inner, innerMember, rfl⟩ := List.mem_map.mp member
      have bound := ih innerMember
      simp only [width, Opening.within]
      omega
  | grouping inner ih =>
    have positive := inner.width_pos
    rcases List.mem_cons.mp member with rfl | member
    · simp only [width]
      omega
    · obtain ⟨innermost, innerMember, rfl⟩ := List.mem_map.mp member
      have bound := ih innerMember
      simp only [width, Opening.within]
      omega

/-- Each opening is an opening parenthesis or a unary operator of the spelling. -/
theorem Spells.opener {expr : Expr} {tokens : List Token} {opening : Opening}
    (spelled : expr.Spells tokens) (ladder : expr.Ladder) (member : opening ∈ expr.openings) :
    ∃ opener, tokens[opening.index]? = some opener ∧
      (opener.kind = .leftParen ∨ opener.kind.isUnaryOperator = true) := by
  induction spelled generalizing opening with
  | @binary left right operator before behind spelledLeft spelledRight ihLeft ihRight =>
    cases ladder with
    | binary _ _ _ ladderLeft ladderRight =>
      rcases List.mem_append.mp member with member | member
      · obtain ⟨opener, found, kind⟩ := ihLeft ladderLeft member
        have bound := (List.getElem?_eq_some_iff.mp found).1
        exact ⟨opener, (List.getElem?_append_left bound).trans found, kind⟩
      · obtain ⟨inner, innerMember, rfl⟩ := List.mem_map.mp member
        obtain ⟨opener, found, kind⟩ := ihRight ladderRight innerMember
        have length := spelledLeft.length_eq
        have past : before.length ≤ inner.index + (left.width + 1) := by omega
        have place : inner.index + (left.width + 1) - before.length = inner.index + 1 := by omega
        refine ⟨opener, ?_, kind⟩
        rw [Opening.within, List.getElem?_append_right past, place, List.getElem?_cons_succ, found]
  | @unary operator right behind spelledRight ih =>
    cases ladder with
    | unary stands _ ladderRight =>
      rcases List.mem_cons.mp member with rfl | member
      · exact ⟨operator, rfl, .inr stands⟩
      · obtain ⟨inner, innerMember, rfl⟩ := List.mem_map.mp member
        exact ih ladderRight innerMember
  | literal => cases member
  | @grouping paren closing inner between opens closes spelledInner ih =>
    cases ladder with
    | grouping ladderInner =>
      rcases List.mem_cons.mp member with rfl | member
      · exact ⟨paren, rfl, .inl opens⟩
      · obtain ⟨innermost, innerMember, rfl⟩ := List.mem_map.mp member
        obtain ⟨opener, found, kind⟩ := ih ladderInner innerMember
        have bound := (List.getElem?_eq_some_iff.mp found).1
        exact ⟨opener, (List.getElem?_append_left bound).trans found, kind⟩

theorem firstBeyond_index_lt {allowance : Nat} {expr : Expr} {opening : Opening}
    (found : expr.firstBeyond allowance = some opening) : opening.index + 1 < expr.width :=
  index_lt_width (List.mem_of_find?_eq_some found)

/-- The opening raises the number of open constructs to one more than allowed, and none before it
does. -/
structure ExceedsFirst (allowance : Nat) (expr : Expr) (opening : Opening) : Prop where
  member : opening ∈ expr.openings
  depth : opening.depth = allowance + 1
  earlier : ∀ other ∈ expr.openings, other.index < opening.index → other.depth ≤ allowance

private theorem depth_le_nesting {expr : Expr} {opening : Opening}
    (member : opening ∈ expr.openings) :
    opening.depth ≤ expr.nesting := by
  induction expr generalizing opening with
  | binary left operator right ihLeft ihRight =>
    rcases List.mem_append.mp member with member | member
    · have bound := ihLeft member
      simp only [nesting]
      omega
    · obtain ⟨inner, innerMember, rfl⟩ := List.mem_map.mp member
      have bound := ihRight innerMember
      simp only [nesting, Opening.within]
      omega
  | literal value => cases member
  | unary operator right ih =>
    rcases List.mem_cons.mp member with rfl | member
    · simp only [nesting]
      omega
    · obtain ⟨inner, innerMember, rfl⟩ := List.mem_map.mp member
      have bound := ih innerMember
      simp only [nesting, Opening.within]
      omega
  | grouping inner ih =>
    rcases List.mem_cons.mp member with rfl | member
    · simp only [nesting]
      omega
    · obtain ⟨innermost, innerMember, rfl⟩ := List.mem_map.mp member
      have bound := ih innerMember
      simp only [nesting, Opening.within]
      omega

/-- What holds of the openings inside a construct holds around it, one level deeper. -/
private theorem earlier_nested {allowance : Nat} {openings : List Opening} {opening : Opening}
    (earlier : ∀ other ∈ openings, other.index < opening.index → other.depth ≤ allowance) :
    ∀ other ∈ (⟨0, 1⟩ :: openings.map (Opening.within 1 1) : List Opening),
      other.index < (opening.within 1 1).index → other.depth ≤ allowance + 1 := by
  intro other member before
  rcases List.mem_cons.mp member with rfl | member
  · simp only
    omega
  · obtain ⟨inner, innerMember, rfl⟩ := List.mem_map.mp member
    simp only [Opening.within] at before ⊢
    have bound := earlier inner innerMember (by omega)
    omega

private theorem earlier_of_firstBeyond {allowance : Nat} {expr : Expr} {opening : Opening}
    (found : expr.firstBeyond allowance = some opening) :
    ∀ other ∈ expr.openings, other.index < opening.index → other.depth ≤ allowance := by
  induction expr generalizing allowance opening with
  | binary left operator right ihLeft ihRight =>
    rw [firstBeyond_binary] at found
    intro other member before
    cases reached : left.firstBeyond allowance with
    | some first =>
      obtain rfl : first = opening := by simpa [reached] using found
      have bound := firstBeyond_index_lt reached
      rcases List.mem_append.mp member with member | member
      · exact ihLeft reached other member before
      · obtain ⟨inner, _, rfl⟩ := List.mem_map.mp member
        simp only [Opening.within] at before
        omega
    -- All of the left operand stands before, and none of it is too deep.
    | none =>
      rw [reached, Option.none_or] at found
      obtain ⟨first, firstFound, rfl⟩ := Option.map_eq_some_iff.mp found
      rcases List.mem_append.mp member with member | member
      · exact Nat.le_trans (depth_le_nesting member)
          ((firstBeyond_eq_none_iff allowance left).mp reached)
      · obtain ⟨inner, innerMember, rfl⟩ := List.mem_map.mp member
        exact ihRight firstFound inner innerMember (Nat.lt_of_add_lt_add_right before)
  | literal value => cases found
  | unary operator right ih =>
    cases allowance with
    | zero =>
      cases found
      intro other _ before
      exact absurd before (Nat.not_lt_zero _)
    | succ allowance =>
      rw [firstBeyond_unary] at found
      obtain ⟨first, firstFound, rfl⟩ := Option.map_eq_some_iff.mp found
      exact earlier_nested (ih firstFound)
  | grouping inner ih =>
    cases allowance with
    | zero =>
      cases found
      intro other _ before
      exact absurd before (Nat.not_lt_zero _)
    | succ allowance =>
      rw [firstBeyond_grouping] at found
      obtain ⟨first, firstFound, rfl⟩ := Option.map_eq_some_iff.mp found
      exact earlier_nested (ih firstFound)

theorem exceedsFirst_of_firstBeyond {allowance : Nat} {expr : Expr} {opening : Opening}
    (found : expr.firstBeyond allowance = some opening) : expr.ExceedsFirst allowance opening where
  member := List.mem_of_find?_eq_some found
  depth := by simpa using List.find?_some found
  earlier := earlier_of_firstBeyond found

end Expr
end LoxSyntax
