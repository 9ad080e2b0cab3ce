import LoxSyntax.Proofs.Expr.Ambiguity
import LoxSyntax.Proofs.Expr.Finite
import LoxSyntax.Proofs.Scan.Separator

/-! # Written expressions scan back

Both texts of an expression that was read, and holds no string and no infinite number, scan without
a fault to the operators and values of the expression: in parentheses, or one after the other in
reverse Polish order. In a reverse Polish text a space stands between any two tokens. In a
parenthesized one none stands behind an opening parenthesis or before a closing one, and no token
goes on there.
-/

namespace LoxSyntax

/-- The token that spells a value: a number as it is written in a tree, a string in quotes. -/
def Value.token : Value → Token
  | number value => ⟨.number, NumberLayout.tree.write value, some (.number value), 1⟩
  | string value => ⟨.string, "\"" ++ value ++ "\"", some (.string value), 1⟩
  | bool true => .plain (.keyword .trueWord) "true" 1
  | bool false => .plain (.keyword .falseWord) "false" 1
  | nil => .plain (.keyword .nilWord) "nil" 1

theorem Value.carries_token (value : Value) : value.token.Carries value := by
  cases value with
  | number value => exact @Token.Carries.number _ (.number value) rfl rfl
  | string value => exact @Token.Carries.string _ (.string value) rfl rfl
  | bool value =>
    cases value
    · exact .falseWord rfl
    · exact .trueWord rfl
  | nil => exact .nilWord rfl

namespace Token

def openParen : Token := .plain .leftParen "(" 1

def closeParen : Token := .plain .rightParen ")" 1

/-- The word that marks a grouping. -/
def groupWord : Token := .plain .identifier "group" 1

/-- Parentheses around a word and its operands. -/
def enclosed (word : Token) (operands : List Token) : List Token :=
  openParen :: word :: operands ++ [closeParen]

theorem forall_mem_enclosed {P : Token → Prop} {word : Token} {operands : List Token}
    (opens : P openParen) (closes : P closeParen) (inFront : P word)
    (inside : ∀ token ∈ operands, P token) : ∀ token ∈ word.enclosed operands, P token := by
  rw [enclosed, List.forall_mem_append, List.forall_mem_cons, List.forall_mem_cons,
    List.forall_mem_singleton]
  exact ⟨⟨opens, inFront, inside⟩, closes⟩

end Token

namespace Expr

/-- The tokens of the expression with each operation in parentheses, behind its operator, and each
grouping behind the word for it. -/
def parenthesizedTokens : Expr → List Token
  | binary left operator right =>
    operator.enclosed (left.parenthesizedTokens ++ right.parenthesizedTokens)
  | unary operator right => operator.enclosed right.parenthesizedTokens
  | literal value => [value.token]
  | grouping inner => Token.groupWord.enclosed inner.parenthesizedTokens

/-- The tokens of the expression with each operator behind its operands, and no groupings. -/
def reversePolishTokens : Expr → List Token
  | binary left operator right =>
    left.reversePolishTokens ++ (right.reversePolishTokens ++ [operator])
  | unary operator right => right.reversePolishTokens ++ [operator]
  | literal value => [value.token]
  | grouping inner => inner.reversePolishTokens

section Tokens

variable {left right : Expr} {operator : Token} {P : Token → Prop}

theorem forall_mem_reversePolishTokens_binary :
    (∀ token ∈ (binary left operator right).reversePolishTokens, P token) ↔
      (∀ token ∈ left.reversePolishTokens, P token) ∧
        (∀ token ∈ right.reversePolishTokens, P token) ∧ P operator := by
  simp only [reversePolishTokens, List.forall_mem_append, List.forall_mem_singleton]

theorem forall_mem_reversePolishTokens_unary :
    (∀ token ∈ (unary operator right).reversePolishTokens, P token) ↔
      (∀ token ∈ right.reversePolishTokens, P token) ∧ P operator := by
  simp only [reversePolishTokens, List.forall_mem_append, List.forall_mem_singleton]

/-- The parenthesized tokens add parentheses and the words of groupings. -/
theorem forall_mem_parenthesizedTokens {expr : Expr} (opens : P .openParen)
    (closes : P .closeParen) (group : P .groupWord)
    (others : ∀ token ∈ expr.reversePolishTokens, P token) :
    ∀ token ∈ expr.parenthesizedTokens, P token := by
  induction expr with
  | binary left operator right ihLeft ihRight =>
    obtain ⟨left, right, operator⟩ := forall_mem_reversePolishTokens_binary.mp others
    exact Token.forall_mem_enclosed opens closes operator
      (List.forall_mem_append.mpr ⟨ihLeft left, ihRight right⟩)
  | unary operator right ih =>
    obtain ⟨right, operator⟩ := forall_mem_reversePolishTokens_unary.mp others
    exact Token.forall_mem_enclosed opens closes operator (ih right)
  | literal value => exact others
  | grouping inner ih => exact Token.forall_mem_enclosed opens closes group (ih others)

end Tokens
end Expr

section Scanned

private theorem Step.Regular.operand_scanned {value : Value} (regular : Regular (.operand value))
    (finite : value.isFinite = true) : value.token.IsScanned := by
  cases regular with
  | number decoded =>
    rcases NumberLayout.write_cases decoded with ⟨numeral, back⟩ | ⟨infinite, _⟩
    · exact .number numeral back
    · rw [infinite] at finite
      exact absurd finite (by decide)
  | constant known =>
    simp only [List.mem_cons, List.not_mem_nil, or_false] at known
    rcases known with rfl | rfl | rfl
    · exact .keyword .trueWord
    · exact .keyword .falseWord
    · exact .keyword .nilWord

private theorem Step.Regular.operator_scanned {token : Token} {isUnary : Bool}
    (regular : Regular (.operator token.lineless isUnary)) : token.IsScanned := by
  have lineless : token.lineless.IsScanned := by
    generalize token.lineless = other at regular
    cases regular with
    | operator takes spelled => exact .mark spelled
  exact lineless

private theorem Token.isScanned_groupWord : groupWord.IsScanned := by
  have free : ∀ word : Keyword, word.text.toList ≠ "group".toList := by
    intro word
    cases word <;> decide
  have parts : ∀ c ∈ "roup".toList, isWordPart c = true := List.all_eq_true.mp (by decide)
  exact .identifier (by decide) parts free

namespace Expr

variable {expr : Expr}

theorem isScanned_of_mem_reversePolishTokens (regular : ∀ step ∈ expr.steps, step.Regular)
    (finite : expr.isFinite = true) : ∀ token ∈ expr.reversePolishTokens, token.IsScanned := by
  induction expr with
  | binary left operator right ihLeft ihRight =>
    obtain ⟨regularLeft, regularRight, regularOperator⟩ := forall_mem_steps_binary.mp regular
    simp only [isFinite, Bool.and_eq_true] at finite
    obtain ⟨⟨finiteLeft, _⟩, finiteRight⟩ := finite
    exact forall_mem_reversePolishTokens_binary.mpr ⟨ihLeft regularLeft finiteLeft,
      ihRight regularRight finiteRight, regularOperator.operator_scanned⟩
  | unary operator right ih =>
    obtain ⟨regularRight, regularOperator⟩ := forall_mem_steps_unary.mp regular
    simp only [isFinite, Bool.and_eq_true] at finite
    exact forall_mem_reversePolishTokens_unary.mpr
      ⟨ih regularRight finite.2, regularOperator.operator_scanned⟩
  | literal value =>
    have operand := forall_mem_steps_literal.mp regular
    exact List.forall_mem_singleton.mpr (operand.operand_scanned finite)
  | grouping inner ih => exact ih regular finite

theorem isScanned_of_mem_parenthesizedTokens (regular : ∀ step ∈ expr.steps, step.Regular)
    (finite : expr.isFinite = true) : ∀ token ∈ expr.parenthesizedTokens, token.IsScanned :=
  forall_mem_parenthesizedTokens (.mark rfl) (.mark rfl) Token.isScanned_groupWord
    (isScanned_of_mem_reversePolishTokens regular finite)

end Expr
end Scanned

private theorem Value.lexeme_token {value : Value}
    (stringless : (Expr.literal value).hasString = false) :
    value.token.lexeme = value.text := by
  cases value with
  | string value => cases stringless
  | bool value => cases value <;> rfl
  | _ => rfl

namespace Expr

variable {expr : Expr}

private theorem map_lexeme_reversePolishTokens (stringless : expr.hasString = false) :
    expr.reversePolishTokens.map Token.lexeme = expr.steps.map Step.word := by
  induction expr with
  | binary left operator right ihLeft ihRight =>
    obtain ⟨noneLeft, noneRight⟩ := Bool.or_eq_false_iff.mp stringless
    simp only [reversePolishTokens, steps, List.map_append, ihLeft noneLeft, ihRight noneRight]
    rfl
  | unary operator right ih =>
    simp only [reversePolishTokens, steps, List.map_append, ih stringless]
    rfl
  | literal value =>
    simp only [reversePolishTokens, steps, List.map_cons, Value.lexeme_token stringless]
    rfl
  | grouping inner ih => exact ih stringless

theorem readsAs_reversePolish (scanned : ∀ token ∈ expr.reversePolishTokens, token.IsScanned)
    (stringless : expr.hasString = false) :
    ReadsAs expr.reversePolish expr.reversePolishTokens := by
  have text := layOut_spaced expr.reversePolishTokens
  rw [map_lexeme_reversePolishTokens stringless, ← reversePolish_eq] at text
  have reads := (separated_spaced scanned (.inl rfl)).readsAs text.symm
  rwa [map_token_spaced] at reads

end Expr

section Layout

theorem isBlankGap_nil : IsBlankGap [] := by
  intro c member
  cases member

theorem isBlankGap_space : IsBlankGap [' '] := by
  simp [IsBlankGap, isBlank]

theorem layOut_append (written more : List WrittenToken) :
    layOut [] (written ++ more) = layOut [] written ++ layOut [] more := by
  simp [layOut]

/-- The layout of a word and its operands in parentheses. -/
def enclosedLayout (word : Token) (operands : List WrittenToken) (gap : List Char) :
    List WrittenToken :=
  ⟨.openParen, []⟩ :: ⟨word, [' ']⟩ :: operands ++ [⟨.closeParen, gap⟩]

/-- The layout of the parenthesized tokens, with the gap behind the last one. -/
def Expr.parenthesizedLayout : Expr → List Char → List WrittenToken
  | binary left operator right, gap => enclosedLayout operator
    (left.parenthesizedLayout [' '] ++ right.parenthesizedLayout []) gap
  | unary operator right, gap => enclosedLayout operator (right.parenthesizedLayout []) gap
  | literal value, gap => [⟨value.token, gap⟩]
  | grouping inner, gap => enclosedLayout .groupWord (inner.parenthesizedLayout []) gap

namespace WrittenToken

variable {entry next : WrittenToken}

private theorem Apart.of_gap (gap : entry.gap ≠ []) : entry.Apart next :=
  fun empty => absurd empty gap

private theorem Apart.of_openParen (opens : entry.token = .openParen) : entry.Apart next := by
  intro _ c _
  rw [opens]
  rfl

/-- No token goes on with a closing parenthesis. -/
theorem Apart.of_closeParen (closes : next.token = .closeParen) : entry.Apart next := by
  have stops : ∀ kind : Kind, kind.goesOn ')' = false := by
    intro kind
    cases kind <;> rfl
  intro _ c leads
  rw [closes] at leads
  cases leads
  exact stops _

end WrittenToken

section Enclosed

variable {operands : List WrittenToken} (word : Token) (gap : List Char)

private theorem isChain_enclosedLayout (apart : operands.IsChain WrittenToken.Apart) :
    (enclosedLayout word operands gap).IsChain WrittenToken.Apart := by
  refine List.isChain_append.mpr ⟨?_, .singleton _, ?_⟩
  · refine .cons_cons (.of_openParen rfl) (List.isChain_cons.mpr ⟨?_, apart⟩)
    exact fun next _ => .of_gap (List.cons_ne_nil _ _)
  · rintro entry _ _ ⟨⟩
    exact .of_closeParen rfl

private theorem map_token_enclosedLayout :
    (enclosedLayout word operands gap).map (·.token) = word.enclosed (operands.map (·.token)) := by
  simp [enclosedLayout, Token.enclosed]

private theorem layOut_enclosedLayout :
    layOut [] (enclosedLayout word operands gap) =
      '(' :: word.lexeme.toList ++ ' ' :: layOut [] operands ++ ')' :: gap := by
  simp [enclosedLayout, layOut, Token.openParen, Token.closeParen, Token.plain]

private theorem isBlankGap_enclosedLayout (blank : IsBlankGap gap)
    (inside : ∀ entry ∈ operands, IsBlankGap entry.gap) :
    ∀ entry ∈ enclosedLayout word operands gap, IsBlankGap entry.gap := by
  simp only [enclosedLayout, List.forall_mem_append, List.forall_mem_cons, List.not_mem_nil,
    false_implies, implies_true, and_true]
  exact ⟨⟨isBlankGap_nil, isBlankGap_space, inside⟩, blank⟩

end Enclosed

namespace Expr

variable {expr : Expr}

private theorem map_token_parenthesizedLayout (gap : List Char) :
    (expr.parenthesizedLayout gap).map (·.token) = expr.parenthesizedTokens := by
  induction expr generalizing gap with
  | binary left operator right ihLeft ihRight =>
    rw [parenthesizedLayout, map_token_enclosedLayout, List.map_append, ihLeft, ihRight,
      parenthesizedTokens]
  | unary operator right ih =>
    rw [parenthesizedLayout, map_token_enclosedLayout, ih, parenthesizedTokens]
  | literal value => rfl
  | grouping inner ih =>
    rw [parenthesizedLayout, map_token_enclosedLayout, ih, parenthesizedTokens]

private theorem layOut_parenthesizedLayout (gap : List Char) (stringless : expr.hasString = false) :
    layOut [] (expr.parenthesizedLayout gap) = expr.parenthesized.toList ++ gap := by
  induction expr generalizing gap with
  | binary left operator right ihLeft ihRight =>
    obtain ⟨noneLeft, noneRight⟩ := Bool.or_eq_false_iff.mp stringless
    rw [parenthesizedLayout, layOut_enclosedLayout, layOut_append, ihLeft _ noneLeft,
      ihRight _ noneRight]
    simp [parenthesized]
  | unary operator right ih =>
    rw [parenthesizedLayout, layOut_enclosedLayout, ih _ stringless]
    simp [parenthesized]
  | literal value =>
    simp [parenthesizedLayout, layOut, Value.lexeme_token stringless, parenthesized]
  | grouping inner ih =>
    rw [parenthesizedLayout, layOut_enclosedLayout, ih _ stringless]
    simp [parenthesized, Token.groupWord, Token.plain]

private theorem isBlankGap_of_mem_parenthesizedLayout {gap : List Char} (blank : IsBlankGap gap) :
    ∀ entry ∈ expr.parenthesizedLayout gap, IsBlankGap entry.gap := by
  induction expr generalizing gap with
  | binary left operator right ihLeft ihRight =>
    refine isBlankGap_enclosedLayout operator gap blank ?_
    rw [List.forall_mem_append]
    exact ⟨ihLeft isBlankGap_space, ihRight isBlankGap_nil⟩
  | unary operator right ih =>
    exact isBlankGap_enclosedLayout operator gap blank (ih isBlankGap_nil)
  | literal value =>
    simp only [parenthesizedLayout, List.forall_mem_singleton]
    exact blank
  | grouping inner ih => exact isBlankGap_enclosedLayout .groupWord gap blank (ih isBlankGap_nil)

/-- The gap is the one behind the last token. -/
theorem gap_of_mem_getLast?_parenthesizedLayout (gap : List Char) :
    ∀ entry ∈ (expr.parenthesizedLayout gap).getLast?, entry.gap = gap := by
  intro entry last
  have known : (expr.parenthesizedLayout gap).getLast?.map (·.gap) = some gap := by
    cases expr with
    | literal value => rfl
    | _ => exact congrArg _ List.getLast?_concat
  rw [last] at known
  exact Option.some.inj known

private theorem isChain_parenthesizedLayout (gap : List Char) :
    (expr.parenthesizedLayout gap).IsChain WrittenToken.Apart := by
  induction expr generalizing gap with
  | binary left operator right ihLeft ihRight =>
    refine isChain_enclosedLayout operator gap (List.isChain_append.mpr ⟨ihLeft _, ihRight _, ?_⟩)
    intro entry last next _
    have space := gap_of_mem_getLast?_parenthesizedLayout [' '] entry last
    exact .of_gap (by simp [space])
  | unary operator right ih => exact isChain_enclosedLayout operator gap (ih _)
  | literal value => exact .singleton _
  | grouping inner ih => exact isChain_enclosedLayout .groupWord gap (ih _)

theorem readsAs_parenthesized (scanned : ∀ token ∈ expr.parenthesizedTokens, token.IsScanned)
    (stringless : expr.hasString = false) :
    ReadsAs expr.parenthesized expr.parenthesizedTokens := by
  have text := expr.layOut_parenthesizedLayout [] stringless
  rw [List.append_nil] at text
  have tokens := expr.map_token_parenthesizedLayout []
  have readable : ∀ entry ∈ expr.parenthesizedLayout [], entry.Readable := by
    intro entry member
    refine .of_isBlankGap (scanned _ ?_) (isBlankGap_of_mem_parenthesizedLayout isBlankGap_nil
      entry member)
    rw [← tokens]
    exact List.mem_map_of_mem member
  have reads := readsAs_layOut Spacing.nil.skips readable (expr.isChain_parenthesizedLayout [])
    text.symm
  rwa [tokens] at reads

end Expr
end Layout

namespace Session

theorem isReadFrom_of_run {session : Session} {source : String} {expr : Expr}
    (ran : (session.run source).1.expression = some expr) : expr.IsReadFrom source := by
  rw [run_outcome] at ran
  apply Expr.isReadFrom_of_ofSource
  cases read : (Parser.ofSource source).tryParse.1 with
  | ok other => simpa [read, Except.toOption] using ran
  | error fault => simp [read, Except.toOption] at ran

/-- If a run gives an expression without strings and infinite numbers, both its texts scan without a
fault to an end marker behind just the operators and values of the expression: in parentheses with
a word for each grouping, or in reverse Polish order without groupings. -/
theorem run_scansBack {session : Session} {source : String} {expr : Expr}
    (ran : (session.run source).1.expression = some expr) (stringless : expr.hasString = false)
    (finite : expr.isFinite = true) :
    ReadsAs expr.parenthesized expr.parenthesizedTokens ∧
      ReadsAs expr.reversePolish expr.reversePolishTokens := by
  have read : expr.IsReadFrom source := isReadFrom_of_run ran
  have regular := read.regular stringless
  constructor
  · exact Expr.readsAs_parenthesized
      (Expr.isScanned_of_mem_parenthesizedTokens regular finite) stringless
  · exact Expr.readsAs_reversePolish
      (Expr.isScanned_of_mem_reversePolishTokens regular finite) stringless

/-- `!(-1 / 2) == nil`, in which most neighbours would run into one another without blanks. -/
def neighbours : Expr :=
  .binary
    (.unary (.plain .bang "!" 1) (.grouping (.binary (.unary (.plain .minus "-" 1) (Expr.whole 1))
      (.plain .slash "/" 1) (Expr.whole 2))))
    (.plain .equalEqual "==" 1) (.literal .nil)

theorem run_scansBack_neighbours :
    ((new {}).run "!(-1 / 2) == nil").1.expression = some neighbours ∧
      neighbours.parenthesized = "(== (! (group (/ (- 1) 2))) nil)" ∧
      ReadsAs neighbours.parenthesized neighbours.parenthesizedTokens ∧
      neighbours.reversePolish = "1 - 2 / ! nil ==" ∧
      ReadsAs neighbours.reversePolish neighbours.reversePolishTokens := by
  have ran : ((new {}).run "!(-1 / 2) == nil").1.expression = some neighbours := by
    decide +kernel
  have reads := run_scansBack ran rfl (by decide +kernel)
  exact ⟨ran, by decide +kernel, reads.1, by decide +kernel, reads.2⟩

end Session
end LoxSyntax
