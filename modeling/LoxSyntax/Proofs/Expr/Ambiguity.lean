import LoxSyntax.Proofs.Expr.ReversePolish
import LoxSyntax.Proofs.Number.ReadBack
import LoxSyntax.Proofs.Parse.Soundness
import LoxSyntax.Proofs.Session.Report
import Mathlib.Data.Bool.Count

/-! # What a reverse Polish text tells

Of the operators only the minus sign takes one operand or two, so this is all that the reverse
Polish text of an expression that was read leaves open, apart from groupings, lines and strings. It
does leave it open: `1 - -2` and `-(1 - 2)` are written alike.
-/

namespace LoxSyntax

namespace Kind

/-- The kind is an operator of one operand, or of two. -/
def takes (kind : Kind) (isUnary : Bool) : Bool :=
  if isUnary then kind.isUnaryOperator else kind.binaryLevel?.isSome

private theorem eq_minus_of_takes {kind : Kind} {isUnary other : Bool}
    (takes : kind.takes isUnary = true)
    (rival : kind.takes other = true) (differ : isUnary ≠ other) : kind = .minus := by
  cases kind <;> simp_all [Kind.takes, isUnaryOperator, binaryLevel?]

private theorem fixed_of_takes {kind : Kind} {isUnary : Bool} (takes : kind.takes isUnary = true) :
    kind ≠ .number ∧ kind ≠ .string ∧ kind ≠ .identifier ∧ kind.fixedText? = kind.mark? := by
  cases isUnary <;> cases kind <;> simp_all [Kind.takes, isUnaryOperator, binaryLevel?, fixedText?]

end Kind

namespace Step

/-- A step of an expression that is read and has no string. -/
inductive Regular : Step → Prop where
  | number {value : Binary64} {text : List Char}
      (decoded : Binary64.ofNumeral? text = some value) : Regular (.operand (.number value))
  | constant {value : Value} (known : value ∈ [.bool true, .bool false, .nil]) :
      Regular (.operand value)
  | operator {kind : Kind} {text : String} {isUnary : Bool} (takes : kind.takes isUnary = true)
      (spelled : kind.mark? = some text.toList) : Regular (.operator (.plain kind text 0) isUnary)

/-- Two steps are the same, but for how many operands a minus sign takes. -/
inductive Alike : Step → Step → Prop where
  | same (step : Step) : Alike step step
  | minus {token : Token} {isUnary other : Bool} (minus : token.kind = .minus) :
      Alike (.operator token isUnary) (.operator token other)

theorem sign?_of_minus {token : Token} (minus : token.kind = .minus) (isUnary : Bool) :
    (operator token isUnary).sign? = some isUnary := if_pos minus

end Step

section Words

variable {value other : Value} {step another : Step}

private theorem spaceless_of_mark? {kind : Kind} {text : List Char}
    (spelled : kind.mark? = some text) :
    ' ' ∉ text := by
  cases kind <;> cases spelled <;> decide

/-- No number is written as a constant is. -/
theorem write_ne_constant {x : Binary64} {text : List Char}
    (decoded : Binary64.ofNumeral? text = some x)
    (known : value ∈ [.bool true, .bool false, .nil]) :
    NumberLayout.tree.write x ≠ value.text := by
  intro same
  rcases NumberLayout.write_cases decoded with ⟨numeral, _⟩ | ⟨_, inf⟩
  · rw [same] at numeral
    simp only [List.mem_cons, List.not_mem_nil, or_false] at known
    rcases known with rfl | rfl | rfl <;> exact absurd numeral.head (by decide)
  · rw [same] at inf
    simp only [List.mem_cons, List.not_mem_nil, or_false] at known
    rcases known with rfl | rfl | rfl <;> exact absurd inf (by decide)

namespace Step.Regular

/-- An operand is written as one word that begins as no mark does. -/
theorem operand_word (regular : Regular (.operand value)) :
    ' ' ∉ value.text.toList ∧
      ∃ first others, value.text.toList = first :: others ∧ Head.of first ≠ .mark := by
  cases regular with
  | number decoded =>
    rcases NumberLayout.write_cases decoded with ⟨numeral, _⟩ | ⟨_, inf⟩
    · rw [Value.text]
      obtain ⟨first, others, shape⟩ := List.exists_cons_of_ne_nil numeral.ne_nil
      constructor
      · intro space
        rcases numeral.isDigit_or_eq_point ' ' space with digit | point
        · cases digit
        · exact absurd point (by decide)
      · rw [shape] at numeral
        refine ⟨first, others, shape, ?_⟩
        rw [Head.of_isDigit numeral.head]
        decide
    · rw [Value.text, inf]
      exact ⟨by decide, _, _, rfl, by decide⟩
  | constant known =>
    simp only [List.mem_cons, List.not_mem_nil, or_false] at known
    rcases known with rfl | rfl | rfl <;> exact ⟨by decide, _, _, rfl, by decide⟩

/-- Operands that are written alike are the same. -/
theorem operand_injective (regular : Regular (.operand value)) (rival : Regular (.operand other))
    (same : value.text = other.text) : value = other := by
  cases regular with
  | number decoded =>
    cases rival with
    | number decodedRival => rw [NumberLayout.write_injective decoded decodedRival same]
    | constant known => exact absurd same (write_ne_constant decoded known)
  | constant known =>
    cases rival with
    | number decoded => exact absurd same.symm (write_ne_constant decoded known)
    | constant knownRival =>
      have distinct : ∀ value ∈ [Value.bool true, .bool false, .nil],
          ∀ other ∈ [Value.bool true, .bool false, .nil], value.text = other.text →
            value = other := by
        decide
      exact distinct value known other knownRival same

private theorem operand_ne_operator (regular : Regular (.operand value)) {kind : Kind}
    {text : String}
    (spelled : kind.mark? = some text.toList) : value.text ≠ text := by
  rintro rfl
  obtain ⟨_, first, others, shape, notMark⟩ := regular.operand_word
  rw [shape] at spelled
  exact notMark (Head.of_mark? spelled).1

theorem spaceless (regular : step.Regular) : ' ' ∉ step.word.toList := by
  cases step with
  | operand value => exact regular.operand_word.1
  | operator token isUnary =>
    cases regular with
    | operator takes spelled => exact spaceless_of_mark? spelled

/-- Steps that are written alike are the same, minus signs apart. -/
theorem alike (regular : step.Regular) (rival : another.Regular) (same : step.word = another.word) :
    step.Alike another := by
  cases step with
  | operand value =>
    cases another with
    | operand other =>
      rw [regular.operand_injective rival same]
      exact .same _
    | operator token isUnary =>
      cases rival with
      | operator takes spelled => exact absurd same (regular.operand_ne_operator spelled)
  | operator token isUnary =>
    cases regular with
    | @operator kind text _ takes spelled =>
      cases another with
      | operand other => exact absurd same.symm (rival.operand_ne_operator spelled)
      | operator tokenRival isUnaryRival =>
        cases rival with
        | @operator kindRival _ _ takesRival spelledRival =>
          obtain rfl : text = _ := same
          obtain rfl := Kind.mark?_injective spelled spelledRival
          by_cases agree : isUnary = isUnaryRival
          · rw [agree]
            exact .same _
          · exact .minus (Kind.eq_minus_of_takes takes takesRival agree)

end Step.Regular
end Words

section Alike

variable {steps others : List Step}

/-- Step lists of the same words are alike, step by step. -/
theorem alike_of_words (regular : ∀ step ∈ steps, step.Regular)
    (rival : ∀ step ∈ others, step.Regular) (same : steps.map Step.word = others.map Step.word) :
    List.Forall₂ Step.Alike steps others := by
  induction steps generalizing others with
  | nil =>
    obtain rfl := List.map_eq_nil_iff.mp same.symm
    exact .nil
  | cons step steps ih =>
    cases others with
    | nil => cases same
    | cons another others =>
      obtain ⟨first, rest⟩ := List.cons.inj same
      obtain ⟨regularFirst, regularRest⟩ := List.forall_mem_cons.mp regular
      obtain ⟨rivalFirst, rivalRest⟩ := List.forall_mem_cons.mp rival
      exact .cons (regularFirst.alike rivalFirst first) (ih regularRest rivalRest rest)

private theorem count_operands_of_alike (alike : List.Forall₂ Step.Alike steps others) :
    steps.countP Step.isOperand = others.countP Step.isOperand := by
  induction alike with
  | nil => rfl
  | cons first _ ih =>
    cases first with
    | same => rw [List.countP_cons, List.countP_cons, ih]
    | minus => exact ih

/-- There are as many minus signs in both lists, and the binary operators that one has more than the
other are minus signs. -/
theorem count_signs_of_alike (alike : List.Forall₂ Step.Alike steps others) :
    (steps.filterMap Step.sign?).length = (others.filterMap Step.sign?).length ∧
      steps.countP Step.isBinary + (others.filterMap Step.sign?).count false =
        others.countP Step.isBinary + (steps.filterMap Step.sign?).count false := by
  induction alike with
  | nil => exact ⟨rfl, rfl⟩
  | @cons step _ _ _ first _ ih =>
    obtain ⟨length, binary⟩ := ih
    cases first with
    | same =>
      rw [List.countP_cons, List.countP_cons, List.filterMap_cons, List.filterMap_cons]
      cases step.sign? with
      | none =>
        refine ⟨length, ?_⟩
        dsimp only
        omega
      | some isUnary =>
        simp only [List.length_cons, List.count_cons, length, true_and]
        omega
    | @minus token isUnary other minus =>
      rw [List.countP_cons, List.countP_cons,
        List.filterMap_cons_some (Step.sign?_of_minus minus isUnary),
        List.filterMap_cons_some (Step.sign?_of_minus minus other)]
      simp only [List.length_cons, List.count_cons, length, true_and, Step.isBinary]
      cases isUnary <;> cases other <;> simp <;> omega

/-- Alike lists are the same if each minus sign takes as many operands in both. -/
theorem eq_of_signs (alike : List.Forall₂ Step.Alike steps others)
    (signs : steps.filterMap Step.sign? = others.filterMap Step.sign?) : steps = others := by
  induction alike with
  | nil => rfl
  | @cons step _ _ _ first _ ih =>
    cases first with
    | same =>
      rw [List.filterMap_cons, List.filterMap_cons] at signs
      cases sign : step.sign? with
      | none =>
        rw [sign] at signs
        rw [ih signs]
      | some isUnary =>
        rw [sign] at signs
        rw [ih (List.cons.inj signs).2]
    | @minus token isUnary other minus =>
      rw [List.filterMap_cons_some (Step.sign?_of_minus minus isUnary),
        List.filterMap_cons_some (Step.sign?_of_minus minus other)] at signs
      obtain ⟨agree, rest⟩ := List.cons.inj signs
      rw [agree, ih rest]

end Alike

/-- An operator is written by its mark and carries no literal. -/
theorem Token.WellFormed.regular {token : Token} {isUnary : Bool} (wellFormed : token.WellFormed)
    (takes : token.kind.takes isUnary = true) :
    (Step.operator token.lineless isUnary).Regular := by
  obtain ⟨kind, lexeme, literal, line⟩ := token
  obtain ⟨number, string, identifier, mark⟩ := Kind.fixed_of_takes takes
  have spelled : kind.mark? = some lexeme.toList :=
    mark.symm.trans (wellFormed.fixed number string identifier)
  obtain rfl : literal = none := wellFormed.bare number string
  exact .operator takes spelled

theorem Token.Carries.regular {token : Token} {value : Value} (carried : token.Carries value)
    (wellFormed : token.WellFormed) (stringless : (Expr.literal value).hasString = false) :
    (Step.operand value).Regular := by
  cases carried with
  | falseWord => exact .constant (by decide)
  | trueWord => exact .constant (by decide)
  | nilWord => exact .constant (by decide)
  | number kind carried =>
    obtain ⟨_, value, decoded, known, _⟩ := wellFormed.number kind
    obtain rfl := Option.some.inj (carried.symm.trans known)
    exact .number decoded
  | string kind carried =>
    obtain ⟨body, _, _, known⟩ := wellFormed.string kind
    obtain rfl := Option.some.inj (carried.symm.trans known)
    cases stringless

namespace Expr

variable {expr other : Expr} {tokens : List Token}

/-- All steps of an expression that well-formed tokens spell are regular, if it has no string. -/
theorem Spells.regular (spelled : expr.Spells tokens) (ladder : expr.Ladder)
    (wellFormed : ∀ token ∈ tokens, token.WellFormed) (stringless : expr.hasString = false) :
    ∀ step ∈ expr.steps, step.Regular := by
  induction spelled with
  | @binary left right operator before behind _ _ ihLeft ihRight =>
    obtain ⟨noneLeft, noneRight⟩ := Bool.or_eq_false_iff.mp stringless
    rw [List.forall_mem_append, List.forall_mem_cons] at wellFormed
    obtain ⟨wellFormedLeft, wellFormedOperator, wellFormedRight⟩ := wellFormed
    cases ladder with
    | binary joins _ _ ladderLeft ladderRight =>
      have takes : operator.kind.takes false = true := by
        simp [Kind.takes, joins]
      exact forall_mem_steps_binary.mpr ⟨ihLeft ladderLeft wellFormedLeft noneLeft,
        ihRight ladderRight wellFormedRight noneRight, wellFormedOperator.regular takes⟩
  | @unary operator right behind _ ih =>
    rw [List.forall_mem_cons] at wellFormed
    cases ladder with
    | unary stands _ ladderRight =>
      exact forall_mem_steps_unary.mpr
        ⟨ih ladderRight wellFormed.2 stringless, wellFormed.1.regular stands⟩
  | literal carried =>
    rw [List.forall_mem_singleton] at wellFormed
    exact forall_mem_steps_literal.mpr (carried.regular wellFormed stringless)
  | grouping _ _ _ ih =>
    rw [List.forall_mem_cons, List.forall_mem_append] at wellFormed
    cases ladder with
    | grouping ladderInner => exact ih ladderInner wellFormed.2.1 stringless

/-- A parser returns the expression for the source, whatever it has read before. -/
def IsReadFrom (expr : Expr) (source : String) : Prop :=
  ∃ parser after : Parser, parser.Reachable (Scan.ofSource source).tokens ∧
    parser.tryParse = (.ok expr, after)

theorem isReadFrom_of_ofSource {source : String}
    (read : (Parser.ofSource source).tryParse.1 = .ok expr) : expr.IsReadFrom source :=
  ⟨_, _, .start, Prod.ext read rfl⟩

theorem IsReadFrom.regular {source : String} (read : expr.IsReadFrom source)
    (stringless : expr.hasString = false) : ∀ step ∈ expr.steps, step.Regular := by
  obtain ⟨parser, after, reached, read⟩ := read
  obtain ⟨⟨consumed, split, spelled⟩, ladder, _⟩ := Parser.readFrom_of_tryParse read
  apply spelled.regular ladder _ stringless
  intro token member
  have ahead : token ∈ parser.rest := by
    rw [split]
    exact List.mem_append_left _ member
  rw [reached.cursor.rest] at ahead
  have known : token ∈ (Parser.ofSource source).rest := List.mem_of_mem_drop ahead
  rw [Parser.rest_ofSource] at known
  exact Scan.wellFormed_of_mem token known

/-- Expressions without strings that are read and written alike are made of the same steps, minus
signs apart. -/
theorem IsReadFrom.alike {source rival : String} (read : expr.IsReadFrom source)
    (readOther : other.IsReadFrom rival) (stringless : expr.hasString = false)
    (stringlessOther : other.hasString = false)
    (same : expr.reversePolish = other.reversePolish) :
    List.Forall₂ Step.Alike expr.steps other.steps := by
  have regular := read.regular stringless
  have rival := readOther.regular stringlessOther
  refine alike_of_words regular rival (words_eq_of_reversePolish ?_ ?_ same)
  · exact fun step member => (regular step member).spaceless
  · exact fun step member => (rival step member).spaceless

/-- As many operands need as many binary operators, so the binary minus signs are as many, too. -/
theorem count_signs (alike : List.Forall₂ Step.Alike expr.steps other.steps) (isUnary : Bool) :
    expr.signs.count isUnary = other.signs.count isUnary := by
  obtain ⟨length, binary⟩ := count_signs_of_alike alike
  have operands := count_operands_of_alike alike
  rw [expr.count_operands, other.count_operands] at operands
  have split := List.count_true_add_count_false expr.signs
  have splitOther := List.count_true_add_count_false other.signs
  simp only [signs] at split splitOther ⊢
  cases isUnary <;> omega

private theorem eq_replicate_of_notMem {signs : List Bool} {isUnary : Bool}
    (absent : isUnary ∉ signs) :
    signs = List.replicate signs.length !isUnary := by
  rw [List.eq_replicate_iff]
  refine ⟨rfl, fun sign member => ?_⟩
  rw [Bool.eq_not]
  rintro rfl
  exact absent member

/-- Two expressions without strings, each read from some source, that are written alike in reverse
Polish: they have equally many unary and equally many binary minus signs, and they are the same up
to groupings and lines exactly if each minus sign is unary in both or binary in both. So they are if
one of the two has no unary minus sign or no binary one. -/
theorem reversePolish_determines {source rival : String} (read : expr.IsReadFrom source)
    (readOther : other.IsReadFrom rival) (stringless : expr.hasString = false)
    (stringlessOther : other.hasString = false)
    (same : expr.reversePolish = other.reversePolish) :
    (∀ isUnary, expr.signs.count isUnary = other.signs.count isUnary) ∧
      (expr.ungrouped.lineless = other.ungrouped.lineless ↔ expr.signs = other.signs) ∧
      (∀ isUnary, isUnary ∉ expr.signs →
        expr.ungrouped.lineless = other.ungrouped.lineless) := by
  have alike := read.alike readOther stringless stringlessOther same
  have counts := count_signs alike
  have determined : expr.ungrouped.lineless = other.ungrouped.lineless ↔
      expr.signs = other.signs := by
    rw [← steps_eq_iff]
    exact ⟨fun steps => congrArg (List.filterMap Step.sign?) steps, eq_of_signs alike⟩
  refine ⟨counts, determined, fun isUnary absent => determined.mpr ?_⟩
  have absentOther : isUnary ∉ other.signs := by
    rw [← List.count_eq_zero, ← counts, List.count_eq_zero]
    exact absent
  have length : expr.signs.length = other.signs.length := (count_signs_of_alike alike).1
  rw [eq_replicate_of_notMem absent, eq_replicate_of_notMem absentOther, length]

/-- A literal of the whole number. -/
def whole (n : Nat) : Expr := .literal (.number (.ofDecimal false n 0))

/-- The minus sign on a line. -/
def minusOn (line : Nat) : Token := ⟨.minus, "-", none, line⟩

theorem reversePolish_determines_grouped :
    (binary (whole 1) (minusOn 1) (unary (minusOn 1) (grouping (whole 2)))).IsReadFrom "1 - -(2)" ∧
    (binary (whole 1) (minusOn 2) (unary (minusOn 2) (whole 2))).IsReadFrom "1\n- -2" ∧
    (binary (whole 1) (minusOn 1) (unary (minusOn 1) (grouping (whole 2)))).ungrouped.lineless =
      (binary (whole 1) (minusOn 2) (unary (minusOn 2) (whole 2))).ungrouped.lineless := by
  have read :
      (binary (whole 1) (minusOn 1) (unary (minusOn 1) (grouping (whole 2)))).IsReadFrom
        "1 - -(2)" :=
    isReadFrom_of_ofSource (by decide +kernel)
  have readOther :
      (binary (whole 1) (minusOn 2) (unary (minusOn 2) (whole 2))).IsReadFrom "1\n- -2" :=
    isReadFrom_of_ofSource (by decide +kernel)
  have determined := reversePolish_determines read readOther rfl rfl (by decide +kernel)
  exact ⟨read, readOther, determined.2.1.mpr rfl⟩

/-- `1 - -2` and `-(1 - 2)` are written alike, as `1 2 - -`. -/
theorem reversePolish_ambiguous :
    ¬ ∀ (source rival : String) (expr other : Expr), expr.IsReadFrom source →
      other.IsReadFrom rival → expr.hasString = false → other.hasString = false →
      expr.reversePolish = other.reversePolish →
      expr.ungrouped.lineless = other.ungrouped.lineless := by
  intro determined
  have difference :
      (binary (whole 1) (minusOn 1) (unary (minusOn 1) (whole 2))).IsReadFrom "1 - -2" :=
    isReadFrom_of_ofSource (by decide +kernel)
  have negation :
      (unary (minusOn 1) (grouping (binary (whole 1) (minusOn 1) (whole 2)))).IsReadFrom
        "-(1 - 2)" :=
    isReadFrom_of_ofSource (by decide +kernel)
  have equal := determined _ _ _ _ difference negation rfl rfl (by decide +kernel)
  cases equal

end Expr
end LoxSyntax
