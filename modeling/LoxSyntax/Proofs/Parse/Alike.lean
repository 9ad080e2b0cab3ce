import LoxSyntax.Proofs.Parse.Sense
import Mathlib.Data.List.Forall2

/-! # Readings of alike tokens

Where two lists agree in kinds and literals, a parser does the same with both: it stops at the same
index with the same tree, but each operator is taken from the list itself, or with the same fault,
but at the token of the list itself. Lexemes and lines take no part in the decision.
-/

namespace LoxSyntax

namespace Expr

/-- Read from this index on, the expressions are the same but for the operators, and each operator
is the token at one index in its own list. -/
inductive Alike (tokens others : List Token) : (start : Nat) → Expr → Expr → Prop where
  | binary {start : Nat} {left right left' right' : Expr} {operator other : Token}
      (alikeLeft : Alike tokens others start left left')
      (here : tokens[start + left.width]? = some operator)
      (there : others[start + left.width]? = some other)
      (alikeRight : Alike tokens others (start + left.width + 1) right right') :
      Alike tokens others start (.binary left operator right) (.binary left' other right')
  | unary {start : Nat} {right right' : Expr} {operator other : Token}
      (here : tokens[start]? = some operator) (there : others[start]? = some other)
      (alikeRight : Alike tokens others (start + 1) right right') :
      Alike tokens others start (.unary operator right) (.unary other right')
  | literal {start : Nat} (value : Value) :
      Alike tokens others start (.literal value) (.literal value)
  | grouping {start : Nat} {inner inner' : Expr}
      (alikeInner : Alike tokens others (start + 1) inner inner') :
      Alike tokens others start (.grouping inner) (.grouping inner')

private theorem SameSense.width_eq {expr other : Expr} (same : expr.SameSense other) :
    expr.width = other.width := by
  induction same with
  | binary _ _ _ ihLeft ihRight => simp only [width, ihLeft, ihRight]
  | unary _ _ ih => simp only [width, ih]
  | literal => rfl
  | grouping _ ih => simp only [width, ih]

/-- Expressions of the same sense are alike in the lists in which they stand at the same index. -/
theorem SameSense.alike {expr other : Expr} (same : expr.SameSense other)
    {before before' spelling spelling' behind behind' : List Token} (spelled : expr.Spells spelling)
    (spelled' : other.Spells spelling') (start : before.length = before'.length) :
    Alike (before ++ spelling ++ behind) (before' ++ spelling' ++ behind') before.length
      expr other := by
  induction same generalizing before before' spelling spelling' behind behind' with
  | @binary left right left' right' operator operator' sameLeft _ _ ihLeft ihRight =>
    cases spelled with
    | @binary _ _ _ first second spelledLeft spelledRight =>
      cases spelled' with
      | @binary _ _ _ first' second' spelledLeft' spelledRight' =>
        have width := spelledLeft.length_eq
        have width' := spelledLeft'.length_eq
        rw [← sameLeft.width_eq] at width'
        have alikeLeft := @ihLeft before before' first first' (operator :: second ++ behind)
          (operator' :: second' ++ behind') spelledLeft spelledLeft' start
        have alikeRight := @ihRight (before ++ first ++ [operator])
          (before' ++ first' ++ [operator']) second second' behind behind' spelledRight
          spelledRight' (by simp [start, width, width'])
        simp only [List.append_assoc, List.cons_append, List.nil_append, List.length_append,
          List.length_singleton, width, ← Nat.add_assoc] at alikeLeft alikeRight ⊢
        refine .binary alikeLeft ?_ ?_ alikeRight
        · rw [← width, List.getElem?_append_right (by omega), Nat.add_sub_cancel_left]
          simp
        · rw [start, ← width', List.getElem?_append_right (by omega), Nat.add_sub_cancel_left]
          simp
  | @unary right right' operator operator' _ _ ih =>
    cases spelled with
    | @unary _ _ behindOperator spelledRight =>
      cases spelled' with
      | @unary _ _ behindOperator' spelledRight' =>
        have alikeRight := @ih (before ++ [operator]) (before' ++ [operator']) behindOperator
          behindOperator' behind behind' spelledRight spelledRight' (by simp [start])
        simp only [List.append_assoc, List.cons_append, List.nil_append, List.length_append,
          List.length_singleton] at alikeRight ⊢
        refine .unary ?_ ?_ alikeRight
        · simp
        · simp [start]
  | literal value => exact .literal value
  | grouping _ ih =>
    cases spelled with
    | @grouping opening closing _ between opens closes spelledInner =>
      cases spelled' with
      | @grouping opening' closing' _ between' opens' closes' spelledInner' =>
        have alikeInner := @ih (before ++ [opening]) (before' ++ [opening']) between between'
          (closing :: behind) (closing' :: behind') spelledInner spelledInner' (by simp [start])
        simp only [List.append_assoc, List.cons_append, List.nil_append, List.length_append,
          List.length_singleton] at alikeInner ⊢
        exact .grouping alikeInner

end Expr

/-- Both readings give alike expressions from the start, or both give the fault of the token at one
index in its own list, for the same reason. -/
inductive ReadAlike (tokens others : List Token) (start : Nat) :
    Except Fault Expr → Except Fault Expr → Prop where
  | ok {expr other : Expr} (alike : Expr.Alike tokens others start expr other) :
      ReadAlike tokens others start (.ok expr) (.ok other)
  | error {index : Nat} {token other : Token} (here : tokens[index]? = some token)
      (there : others[index]? = some other) (reason : SyntaxReason) :
      ReadAlike tokens others start (.error (.atToken token reason))
        (.error (.atToken other reason))

/-- The token that a fault blames is the one that the reading stops before, unless it was consumed
for a literal. -/
inductive Rule.Blames (tokens rest : List Token) : Token → SyntaxReason → Prop where
  | next {reason : SyntaxReason} (valued : reason ≠ .literalWithoutValue) :
      Blames tokens rest (nextToken rest) reason
  | consumed {before : List Token} {token : Token} (split : tokens = before ++ token :: rest) :
      Blames tokens rest token .literalWithoutValue

private theorem Rule.exists_blames {allowance : Nat} {tokens rest : List Token} {fault : Fault}
    (failed : (expression allowance).run tokens = (.error fault, rest)) :
    ∃ token reason, fault = .atToken token reason ∧ Blames tokens rest token reason := by
  obtain ⟨before, behind, inner, rfl, _, met⟩ := expression_failsAtOperands allowance failed
  cases met with
  | misplaced start => exact ⟨_, _, rfl, .next (by decide)⟩
  | unclosed => exact ⟨_, _, rfl, .next (by decide)⟩
  | beyond => exact ⟨_, _, rfl, .next (by decide)⟩
  | valueless => exact ⟨_, _, rfl, .consumed rfl⟩

private theorem Fault.reason_eq_of_atToken {token other : Token} {reason reason' : SyntaxReason}
    (same : Fault.atToken token reason = .atToken other reason') : reason = reason' :=
  (Fault.badSyntax.inj same).2.2

namespace Rule

variable {allowance : Nat} {tokens others before before' rest behind : List Token}

/-- Faults for the same reason lie at the same index. -/
private theorem readAlike_of_blames {token other : Token} {reason : SyntaxReason}
    (start : before.length = before'.length) (inStep : InStep tokens rest others behind)
    (blames : Blames tokens rest token reason) (blames' : Blames others behind other reason) :
    ReadAlike (before ++ tokens) (before' ++ others) before.length
      (.error (.atToken token reason)) (.error (.atToken other reason)) := by
  obtain ⟨consumed, consumed', next, next', more, more', rfl, rfl, length, rfl, rfl⟩ :=
    inStep.exists_lengths
  cases blames with
  | next valued =>
    cases blames' with
    | next _ =>
      refine @ReadAlike.error _ _ _ (before.length + consumed.length) _ _ ?_ ?_ reason
      · simp [nextToken]
      · simp [nextToken, start, length]
    | consumed _ => exact absurd rfl valued
  | @consumed first _ split =>
    cases blames' with
    | next valued => exact absurd rfl valued
    | @consumed first' _ split' =>
      rw [List.append_cons first, List.append_cons first'] at *
      obtain ⟨rfl, _⟩ := List.append_inj' split rfl
      obtain ⟨rfl, _⟩ := List.append_inj' split' rfl
      simp only [List.length_append, List.length_singleton, Nat.add_right_cancel_iff] at length
      refine @ReadAlike.error _ _ _ (before.length + first.length) _ _ ?_ ?_ _
      · simp
      · simp [start, length]

/-- Readings along lists that keep step are alike. -/
private theorem readAlike_of_inStep {result : Except Fault Expr}
    (start : before.length = before'.length)
    (run : (expression allowance).run tokens = (result, rest))
    (inStep : InStep tokens rest others behind) :
    ∃ other, (expression allowance).run others = (other, behind) ∧
      ReadAlike (before ++ tokens) (before' ++ others) before.length result other := by
  obtain ⟨other, run', verdict⟩ := expression_keepsStep allowance run inStep
  refine ⟨other, run', ?_⟩
  cases verdict with
  | ok same =>
    obtain ⟨⟨spelling, rfl, spelled⟩, _⟩ := expression_sound allowance run
    obtain ⟨⟨spelling', rfl, spelled'⟩, _⟩ := expression_sound allowance run'
    rw [← List.append_assoc, ← List.append_assoc]
    exact .ok (same.alike spelled spelled' start)
  | error token other reason =>
    obtain ⟨blamed, because, known, blames⟩ := exists_blames run
    obtain ⟨blamed', because', known', blames'⟩ := exists_blames run'
    obtain rfl := Fault.reason_eq_of_atToken known
    obtain rfl := Fault.reason_eq_of_atToken known'
    rw [known, known']
    exact readAlike_of_blames start inStep blames blames'

end Rule

namespace Parser

/-- The parser before the token at this index. -/
def atIndex (tokens : List Token) (index : Nat) : Parser := ⟨(withEnd tokens).drop index, index⟩

theorem atCursor_atIndex {tokens : List Token} {index : Nat} (bound : index ≤ firstMarker tokens) :
    (atIndex tokens index).AtCursor tokens := by
  obtain ⟨marker, there, _⟩ := exists_firstMarker tokens
  obtain ⟨inside, _⟩ := List.getElem?_eq_some_iff.mp there
  refine ⟨rfl, Nat.lt_of_le_of_lt bound inside, ?_⟩
  intro token member
  obtain ⟨place, before, rfl⟩ := List.mem_take_iff_getElem.mp member
  obtain ⟨within, insideHere⟩ := Nat.lt_min.mp before
  have early : place < firstMarker tokens := Nat.lt_of_lt_of_le within bound
  rw [Ne, kind_eq_eof_iff (List.getElem?_eq_getElem insideHere) (Nat.le_of_lt early)]
  exact Nat.ne_of_lt early

theorem eq_atIndex {tokens : List Token} {parser : Parser} (cursor : parser.AtCursor tokens) :
    parser = atIndex tokens parser.position := by
  rw [atIndex, ← cursor.rest]

/-- An end marker is added to both lists or to neither. -/
theorem forall₂_withEnd {tokens others : List Token}
    (same : List.Forall₂ Token.SameSense tokens others) :
    List.Forall₂ Token.SameSense (withEnd tokens) (withEnd others) := by
  rcases List.eq_nil_or_concat tokens with rfl | ⟨before, last, rfl⟩
  · cases same
    exact .cons ⟨rfl, rfl⟩ .nil
  rcases List.eq_nil_or_concat others with rfl | ⟨before', last', rfl⟩
  · have length := same.length_eq
    simp at length
  have ends := List.forall₂_reverse_iff.mpr same
  simp only [List.concat_eq_append, List.reverse_append, List.reverse_singleton,
    List.singleton_append, List.forall₂_cons] at ends
  have marked (line line' : Nat) : (Token.eof line).SameSense (.eof line') := ⟨rfl, rfl⟩
  rw [List.concat_eq_append, List.concat_eq_append] at same ⊢
  simp only [withEnd, List.getLast?_concat, ends.1.kind]
  split
  · exact same
  · exact List.rel_append same (.cons (marked _ _) .nil)

private theorem inStep_drop {tokens others : List Token}
    (same : List.Forall₂ Token.SameSense tokens others)
    {index : Nat} (bound : index < tokens.length) :
    InStep tokens (tokens.drop index) others (others.drop index) := by
  induction same generalizing index with
  | nil => cases bound
  | cons head tail ih =>
    cases index with
    | zero => exact .arrive head
    | succ index => exact .pass head (ih (Nat.lt_of_succ_lt_succ bound))

/-- Parsers behind equally many tokens, with tokens ahead that keep step, read alike. -/
theorem tryParse_of_inStep {before before' behind : List Token} {parser running after : Parser}
    {result : Except Fault Expr} (start : before.length = before'.length)
    (place : parser.position = running.position) (read : parser.tryParse = (result, after))
    (inStep : InStep parser.rest after.rest running.rest behind) :
    ∃ other, running.tryParse = (other, ⟨behind, after.position⟩) ∧
      ReadAlike (before ++ parser.rest) (before' ++ running.rest) before.length result other := by
  have run := run_of_tryParse read
  obtain ⟨other, run', alike⟩ := Rule.readAlike_of_inStep start run inStep
  obtain ⟨consumed, consumed', _, _, _, _, split, split', length, _⟩ := inStep.exists_lengths
  refine ⟨other, ?_, alike⟩
  rw [tryParse_of_run split run] at read
  rw [tryParse_of_run split' run', ← (Prod.mk.inj read).2, place, length]

/-- The parser looks at kinds and literals only: from a token on that is not behind the first end
marker, it stops at the same index of both lists, and what it reads is alike. -/
theorem tryParse_alike {tokens others : List Token}
    (same : List.Forall₂ Token.SameSense tokens others) {start : Nat}
    (bound : start ≤ firstMarker tokens) : ∃ stop,
      (atIndex tokens start).tryParse.2 = atIndex tokens stop ∧
      (atIndex others start).tryParse.2 = atIndex others stop ∧
      ReadAlike (withEnd tokens) (withEnd others) start (atIndex tokens start).tryParse.1
        (atIndex others start).tryParse.1 := by
  have same := forall₂_withEnd same
  have cursor := atCursor_atIndex bound
  have length : ((withEnd tokens).take start).length = start :=
    List.length_take_of_le (Nat.le_of_lt cursor.bound)
  rcases read : (atIndex tokens start).tryParse with ⟨result, after⟩
  have cursorAfter := cursor.tryParse
  rw [read] at cursorAfter
  obtain ⟨further, moved⟩ : ∃ further, after.position = start + further := by
    cases read
    exact ⟨_, rfl⟩
  have rest : after.rest = ((withEnd tokens).drop start).drop further := by
    rw [cursorAfter.rest, moved, List.drop_drop]
  have inside : further < ((withEnd tokens).drop start).length := by
    have inside : after.position < (withEnd tokens).length := cursorAfter.bound
    rw [List.length_drop]
    omega
  have inStep := inStep_drop (List.forall₂_drop start same) inside
  rw [← rest, List.drop_drop, ← moved] at inStep
  have place : (atIndex tokens start).position = (atIndex others start).position := rfl
  obtain ⟨other, read', alike⟩ :=
    tryParse_of_inStep (List.forall₂_take start same).length_eq place read inStep
  rw [read']
  simp only [atIndex, List.take_append_drop, length] at alike
  exact ⟨after.position, eq_atIndex cursorAfter, rfl, alike⟩

end Parser
end LoxSyntax
