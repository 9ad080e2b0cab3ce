import LoxSyntax.Proofs.Expr.Ambiguity

/-! # What a parenthesized text tells

The parenthesized text of an expression that was read, and holds no string, tells the whole
expression but for its lines. A word of the text goes on to the next space or closing parenthesis,
so texts that agree from a place on agree word by word. Unary and binary use of a minus sign differ
in what stands behind the first operand: a closing parenthesis or a space.
-/

namespace LoxSyntax

/-- The character ends a word of a parenthesized text. -/
def endsWord (c : Char) : Bool := c = ' ' || c = ')'

/-- Nothing in the text ends a word. -/
def IsUnbroken (text : List Char) : Prop := ∀ c ∈ text, endsWord c = false

instance (text : List Char) : Decidable (IsUnbroken text) := List.decidableBAll _ text

/-- A word does not go on behind the place where the text begins. -/
def BreaksOff (rest : List Char) : Prop := ∀ c ∈ rest.head?, endsWord c = true

theorem breaksOff_cons {c : Char} (ends : endsWord c = true) (rest : List Char) :
    BreaksOff (c :: rest) := by
  rintro _ ⟨⟩
  exact ends

section Words

variable {word other rest more : List Char}

/-- A word is all that stands before the first character that ends it. -/
theorem takeWhile_word (unbroken : IsUnbroken word) (breaks : BreaksOff rest) :
    (word ++ rest).takeWhile (fun c => !endsWord c) = word := by
  have inside : ∀ c ∈ word, (!endsWord c) = true := by
    intro c member
    rw [unbroken c member]
    rfl
  rw [List.takeWhile_append_of_pos inside]
  cases rest with
  | nil => exact List.append_nil word
  | cons c rest =>
    have stops : (!endsWord c) = false := by
      rw [breaks c rfl]
      rfl
    rw [List.takeWhile_cons, stops]
    exact List.append_nil word

private theorem word_append_inj (unbroken : IsUnbroken word) (unbrokenOther : IsUnbroken other)
    (breaks : BreaksOff rest) (breaksOther : BreaksOff more)
    (same : word ++ rest = other ++ more) : word = other ∧ rest = more := by
  have words := takeWhile_word unbroken breaks
  rw [same, takeWhile_word unbrokenOther breaksOther] at words
  subst words
  exact ⟨rfl, List.append_cancel_left same⟩

/-- The word behind an opening parenthesis is told by the text. -/
theorem opening_inj (unbroken : IsUnbroken word) (unbrokenOther : IsUnbroken other)
    (same : '(' :: (word ++ ' ' :: rest) = '(' :: (other ++ ' ' :: more)) :
    word = other ∧ rest = more := by
  obtain ⟨words, behind⟩ := word_append_inj unbroken unbrokenOther (breaksOff_cons rfl rest)
    (breaksOff_cons rfl more) (List.cons.inj same).2
  exact ⟨words, (List.cons.inj behind).2⟩

private theorem group_unbroken : IsUnbroken "group".toList := by decide

end Words

namespace Step.Regular

variable {value : Value} {token another : Token} {isUnary other : Bool}

private theorem operand_unbroken (regular : Regular (.operand value)) :
    IsUnbroken value.text.toList := by
  cases regular with
  | number decoded =>
    rw [Value.text]
    rcases NumberLayout.write_cases decoded with ⟨numeral, _⟩ | ⟨_, inf⟩
    · intro c member
      rcases numeral.isDigit_or_eq_point c member with digit | rfl
      · have notDelimiter : c ≠ ' ' ∧ c ≠ ')' := by
          constructor <;> rintro rfl <;> cases digit
        simpa [endsWord] using notDelimiter
      · rfl
    · rw [inf]
      decide
  | constant known =>
    simp only [List.mem_cons, List.not_mem_nil, or_false] at known
    rcases known with rfl | rfl | rfl <;> decide

/-- No operand begins as an operation or a grouping does. -/
theorem operand_ne_paren {rest more : List Char} (regular : Regular (.operand value)) :
    value.text.toList ++ rest ≠ '(' :: more := by
  obtain ⟨_, first, others, shape, notMark⟩ := regular.operand_word
  intro same
  rw [shape, List.cons_append] at same
  obtain rfl : first = '(' := (List.cons.inj same).1
  exact notMark (by decide)

private theorem operator_unbroken (regular : Regular (.operator token isUnary)) :
    IsUnbroken token.lexeme.toList := by
  cases regular with
  | @operator kind text _ takes spelled =>
    have unbroken : ∀ spelling, kind.mark? = some spelling → IsUnbroken spelling := by
      intro spelling spelled
      cases isUnary <;> cases kind <;> cases takes <;> cases spelled <;> decide
    exact unbroken _ spelled

/-- The word of a grouping is no operator. -/
theorem operator_ne_group (regular : Regular (.operator token isUnary)) :
    token.lexeme.toList ≠ "group".toList := by
  cases regular with
  | operator takes spelled =>
    intro same
    have head : Head.of 'g' = .mark := (Head.of_mark? (spelled.trans (congrArg some same))).1
    exact absurd head (by decide)

/-- Operators are told by their lexemes. -/
theorem operator_injective (regular : Regular (.operator token isUnary))
    (rival : Regular (.operator another other))
    (same : token.lexeme.toList = another.lexeme.toList) : token = another := by
  cases regular with
  | @operator kind text _ _ spelled =>
    cases rival with
    | @operator kindRival textRival _ _ spelledRival =>
      obtain rfl : text = textRival := String.toList_inj.mp same
      obtain rfl := Kind.mark?_injective spelled spelledRival
      rfl

end Step.Regular

namespace Expr

section Text

variable (left right inner : Expr) (operator : Token) (rest : List Char)

private theorem parenthesized_binary_append :
    (binary left operator right).parenthesized.toList ++ rest =
      '(' :: (operator.lexeme.toList ++ ' ' :: (left.parenthesized.toList ++
        ' ' :: (right.parenthesized.toList ++ ')' :: rest))) := by
  simp [parenthesized]

private theorem parenthesized_unary_append :
    (unary operator right).parenthesized.toList ++ rest =
      '(' :: (operator.lexeme.toList ++ ' ' :: (right.parenthesized.toList ++ ')' :: rest)) := by
  simp [parenthesized]

private theorem parenthesized_grouping_append :
    (grouping inner).parenthesized.toList ++ rest =
      '(' :: ("group".toList ++ ' ' :: (inner.parenthesized.toList ++ ')' :: rest)) := by
  simp [parenthesized]

end Text

/-- The text of the expression tells it up to lines, whatever stands behind it and ends a word. -/
def IsTold (expr : Expr) : Prop :=
  ∀ {other : Expr} {rest more : List Char}, (∀ step ∈ expr.steps, step.Regular) →
    (∀ step ∈ other.steps, step.Regular) → BreaksOff rest → BreaksOff more →
    expr.parenthesized.toList ++ rest = other.parenthesized.toList ++ more →
    expr.lineless = other.lineless ∧ rest = more

section Told

variable {left right inner : Expr} {operator : Token}

private theorem isTold_literal (value : Value) : (literal value).IsTold := by
  intro other rest more regular rival breaks breaksOther same
  have operand := forall_mem_steps_literal.mp regular
  cases other with
  | literal another =>
    have operandOther := forall_mem_steps_literal.mp rival
    obtain ⟨text, behind⟩ := word_append_inj operand.operand_unbroken
      operandOther.operand_unbroken breaks breaksOther same
    rw [operand.operand_injective operandOther (String.toList_inj.mp text)]
    exact ⟨rfl, behind⟩
  | binary =>
    rw [parenthesized_binary_append] at same
    exact absurd same operand.operand_ne_paren
  | unary =>
    rw [parenthesized_unary_append] at same
    exact absurd same operand.operand_ne_paren
  | grouping =>
    rw [parenthesized_grouping_append] at same
    exact absurd same operand.operand_ne_paren

theorem IsTold.binary (toldLeft : left.IsTold) (toldRight : right.IsTold) :
    (binary left operator right).IsTold := by
  intro other rest more regular rival _ _ same
  obtain ⟨regularLeft, regularRight, regularOperator⟩ := forall_mem_steps_binary.mp regular
  rw [parenthesized_binary_append] at same
  cases other with
  | literal => exact absurd same.symm (forall_mem_steps_literal.mp rival).operand_ne_paren
  | binary leftOther operatorOther rightOther =>
    obtain ⟨rivalLeft, rivalRight, rivalOperator⟩ := forall_mem_steps_binary.mp rival
    rw [parenthesized_binary_append] at same
    obtain ⟨word, operands⟩ :=
      opening_inj regularOperator.operator_unbroken rivalOperator.operator_unbroken same
    obtain ⟨sameLeft, behindLeft⟩ := toldLeft regularLeft rivalLeft (breaksOff_cons rfl _)
      (breaksOff_cons rfl _) operands
    obtain ⟨sameRight, behindRight⟩ := toldRight regularRight rivalRight (breaksOff_cons rfl _)
      (breaksOff_cons rfl _) (List.cons.inj behindLeft).2
    have sameOperator := regularOperator.operator_injective rivalOperator word
    rw [lineless, lineless, sameLeft, sameOperator, sameRight]
    exact ⟨rfl, (List.cons.inj behindRight).2⟩
  | unary operatorOther rightOther =>
    obtain ⟨rivalRight, rivalOperator⟩ := forall_mem_steps_unary.mp rival
    rw [parenthesized_unary_append] at same
    obtain ⟨_, operands⟩ :=
      opening_inj regularOperator.operator_unbroken rivalOperator.operator_unbroken same
    -- Behind the first operand another one follows on one side only.
    obtain ⟨_, behind⟩ := toldLeft regularLeft rivalRight (breaksOff_cons rfl _)
      (breaksOff_cons rfl _) operands
    cases behind
  | grouping =>
    rw [parenthesized_grouping_append] at same
    obtain ⟨word, _⟩ := opening_inj regularOperator.operator_unbroken group_unbroken same
    exact absurd word regularOperator.operator_ne_group

theorem IsTold.unary (toldRight : right.IsTold) : (unary operator right).IsTold := by
  intro other rest more regular rival _ _ same
  obtain ⟨regularRight, regularOperator⟩ := forall_mem_steps_unary.mp regular
  rw [parenthesized_unary_append] at same
  cases other with
  | literal => exact absurd same.symm (forall_mem_steps_literal.mp rival).operand_ne_paren
  | binary leftOther operatorOther rightOther =>
    obtain ⟨rivalLeft, _, rivalOperator⟩ := forall_mem_steps_binary.mp rival
    rw [parenthesized_binary_append] at same
    obtain ⟨_, operands⟩ :=
      opening_inj regularOperator.operator_unbroken rivalOperator.operator_unbroken same
    obtain ⟨_, behind⟩ := toldRight regularRight rivalLeft (breaksOff_cons rfl _)
      (breaksOff_cons rfl _) operands
    cases behind
  | unary operatorOther rightOther =>
    obtain ⟨rivalRight, rivalOperator⟩ := forall_mem_steps_unary.mp rival
    rw [parenthesized_unary_append] at same
    obtain ⟨word, operands⟩ :=
      opening_inj regularOperator.operator_unbroken rivalOperator.operator_unbroken same
    obtain ⟨sameRight, behind⟩ := toldRight regularRight rivalRight (breaksOff_cons rfl _)
      (breaksOff_cons rfl _) operands
    have sameOperator := regularOperator.operator_injective rivalOperator word
    rw [lineless, lineless, sameOperator, sameRight]
    exact ⟨rfl, (List.cons.inj behind).2⟩
  | grouping =>
    rw [parenthesized_grouping_append] at same
    obtain ⟨word, _⟩ := opening_inj regularOperator.operator_unbroken group_unbroken same
    exact absurd word regularOperator.operator_ne_group

theorem IsTold.grouping (toldInner : inner.IsTold) : (grouping inner).IsTold := by
  intro other rest more regular rival _ _ same
  rw [parenthesized_grouping_append] at same
  cases other with
  | literal => exact absurd same.symm (forall_mem_steps_literal.mp rival).operand_ne_paren
  | binary =>
    obtain ⟨_, _, rivalOperator⟩ := forall_mem_steps_binary.mp rival
    rw [parenthesized_binary_append] at same
    obtain ⟨word, _⟩ := opening_inj group_unbroken rivalOperator.operator_unbroken same
    exact absurd word.symm rivalOperator.operator_ne_group
  | unary =>
    obtain ⟨_, rivalOperator⟩ := forall_mem_steps_unary.mp rival
    rw [parenthesized_unary_append] at same
    obtain ⟨word, _⟩ := opening_inj group_unbroken rivalOperator.operator_unbroken same
    exact absurd word.symm rivalOperator.operator_ne_group
  | grouping innerOther =>
    rw [parenthesized_grouping_append] at same
    obtain ⟨_, operand⟩ := opening_inj group_unbroken group_unbroken same
    obtain ⟨sameInner, behind⟩ := @toldInner innerOther _ _ regular rival (breaksOff_cons rfl _)
      (breaksOff_cons rfl _) operand
    rw [lineless, lineless, sameInner]
    exact ⟨rfl, (List.cons.inj behind).2⟩

end Told

theorem isTold (expr : Expr) : expr.IsTold := by
  induction expr with
  | binary left operator right ihLeft ihRight => exact ihLeft.binary ihRight
  | unary operator right ih => exact ih.unary
  | literal value => exact isTold_literal value
  | grouping inner ih => exact ih.grouping

/-- Two expressions without strings, each read from some source, are the same up to the lines of
their operators if they are written alike with parentheses. -/
theorem parenthesized_determines {expr other : Expr} {source rival : String}
    (read : expr.IsReadFrom source) (readOther : other.IsReadFrom rival)
    (stringless : expr.hasString = false) (stringlessOther : other.hasString = false)
    (same : expr.parenthesized = other.parenthesized) : expr.lineless = other.lineless := by
  have nothing : BreaksOff [] := by
    rintro _ ⟨⟩
  have texts : expr.parenthesized.toList ++ [] = other.parenthesized.toList ++ [] := by
    rw [same]
  exact (expr.isTold (read.regular stringless) (readOther.regular stringlessOther) nothing
    nothing texts).1

/-- `1 - -(2)` with its minus signs on a line. -/
def twoSigns (line : Nat) : Expr :=
  binary (whole 1) (minusOn line) (unary (minusOn line) (grouping (whole 2)))

/-- Both kinds of minus sign and a grouping, on the first line and on the second. -/
theorem parenthesized_determines_twoSigns :
    (twoSigns 1).IsReadFrom "1 - -(2)" ∧ (twoSigns 2).IsReadFrom "1\n- -(2)" ∧
      (twoSigns 1).parenthesized = (twoSigns 2).parenthesized ∧
      (twoSigns 1).lineless = (twoSigns 2).lineless := by
  have read : (twoSigns 1).IsReadFrom "1 - -(2)" := isReadFrom_of_ofSource (by decide +kernel)
  have readOther : (twoSigns 2).IsReadFrom "1\n- -(2)" :=
    isReadFrom_of_ofSource (by decide +kernel)
  have same : (twoSigns 1).parenthesized = (twoSigns 2).parenthesized := by decide +kernel
  exact ⟨read, readOther, same, parenthesized_determines read readOther rfl rfl same⟩

end Expr
end LoxSyntax
