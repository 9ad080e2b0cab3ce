import LoxSyntax.Proofs.Parse.Stage

/-! # The cursor of a parser

No reading consumes an end marker, whether it succeeds or fails. So wherever any number of readings
lead a parser, it stands at a token of its list, behind as many tokens as its position says and at
or before the first end marker: `Parser.Reachable.cursor`.
-/

namespace LoxSyntax

/-- The rest is left of the tokens after some of them, none an end marker, have been consumed. -/
def Passes (tokens rest : List Token) : Prop :=
  ∃ consumed, tokens = consumed ++ rest ∧ ∀ token ∈ consumed, token.kind ≠ .eof

namespace Passes

theorem refl (tokens : List Token) : Passes tokens tokens := by
  refine ⟨[], rfl, ?_⟩
  intro token member
  cases member

theorem trans {first second third : List Token} (one : Passes first second)
    (two : Passes second third) : Passes first third := by
  obtain ⟨before, rfl, beforeMarks⟩ := one
  obtain ⟨behind, rfl, behindMarks⟩ := two
  refine ⟨before ++ behind, (List.append_assoc ..).symm, ?_⟩
  intro token member
  rcases List.mem_append.mp member with member | member
  · exact beforeMarks token member
  · exact behindMarks token member

theorem cons {token : Token} {tokens rest : List Token} (kind : token.kind ≠ .eof)
    (passes : Passes tokens rest) : Passes (token :: tokens) rest := by
  obtain ⟨consumed, rfl, marks⟩ := passes
  exact ⟨token :: consumed, rfl, List.forall_mem_cons.mpr ⟨kind, marks⟩⟩

end Passes

theorem Kind.ne_eof_of_isUnaryOperator {kind : Kind} (stands : kind.isUnaryOperator = true) :
    kind ≠ .eof := by
  rintro rfl
  cases stands

theorem Kind.ne_eof_of_binaryLevel? {kind : Kind} {level : Level}
    (joins : kind.binaryLevel? = some level) : kind ≠ .eof := by
  rintro rfl
  cases joins

theorem Token.Carries.ne_eof {token : Token} {value : Value} (carried : token.Carries value) :
    token.kind ≠ .eof := by
  cases carried <;> simp_all

namespace Rule

/-- The rule consumes no end marker. -/
def SparesEnd (rule : Rule) : Prop := ∀ tokens, Passes tokens (rule.run tokens).2

private theorem joinRight_passes {operand : Rule} (spares : operand.SparesEnd) (level : Level)
    (left : Expr) (tokens : List Token) :
    Passes tokens (joinRight operand level left tokens).2 := by
  fun_induction joinRight operand level left tokens with
  | case1 => exact .refl _
  | case2 left operator rest joins right after reading _ ih =>
    have passes := spares rest
    rw [reading] at passes
    exact (passes.trans ih).cons (Kind.ne_eof_of_binaryLevel? joins)
  | case3 left operator rest joins fault after reading =>
    have passes := spares rest
    rw [reading] at passes
    exact passes.cons (Kind.ne_eof_of_binaryLevel? joins)
  | case4 => exact .refl _

private theorem chain_sparesEnd {operand : Rule} (spares : operand.SparesEnd) (level : Level) :
    (operand.chain level).SparesEnd := by
  intro tokens
  have passes := spares tokens
  cases reading : operand.run tokens with
  | mk result rest =>
    rw [reading] at passes
    cases result with
    | ok left =>
      rw [chain_run_of_ok reading]
      exact passes.trans (joinRight_passes spares level left rest)
    | error fault =>
      rw [chain_run_of_error reading]
      exact passes

theorem OperandOutcome.passes {inner : Option Rule} {tokens : List Token} {reading : Reading}
    (outcome : OperandOutcome inner tokens reading)
    (spares : ∀ rule, inner = some rule → rule.SparesEnd ∧ rule.ladder.SparesEnd) :
    Passes tokens reading.2 := by
  have read {rule : Rule} {tokens after : List Token} {result : Except Fault Expr}
      (spares : rule.SparesEnd) (run : rule.run tokens = (result, after)) :
      Passes tokens after := by
    have passes := spares tokens
    rwa [run] at passes
  have parenMarks {opening : Token} (opens : opening.kind = .leftParen) : opening.kind ≠ .eof := by
    rw [opens]
    decide
  cases outcome with
  | atEnd => exact .refl _
  | unary nested stands run =>
    exact (read (spares _ nested).1 run).cons (Kind.ne_eof_of_isUnaryOperator stands)
  | unaryFault nested stands run =>
    exact (read (spares _ nested).1 run).cons (Kind.ne_eof_of_isUnaryOperator stands)
  | @grouping rule opening closing _ after expr nested opens run closes =>
    have passes := (read (spares _ nested).2 run).cons (parenMarks opens)
    have parenPasses : Passes (closing :: after) after := by
      refine (Passes.refl after).cons ?_
      rw [closes]
      decide
    exact passes.trans parenPasses
  | groupingFault nested opens run => exact (read (spares _ nested).2 run).cons (parenMarks opens)
  | unclosed nested opens run => exact (read (spares _ nested).2 run).cons (parenMarks opens)
  | beyond limit opens =>
    rcases opens with opens | stands
    · exact (Passes.refl _).cons (parenMarks opens)
    · exact (Passes.refl _).cons (Kind.ne_eof_of_isUnaryOperator stands)
  | literal carried => exact (Passes.refl _).cons carried.ne_eof
  | valueless kind => exact (Passes.refl _).cons (by rcases kind with kind | kind <;> simp [kind])
  | misplaced => exact .refl _

theorem expression_sparesEnd (allowance : Nat) : (expression allowance).SparesEnd := by
  apply expression_induction (motive := fun _ _ rule => rule.SparesEnd)
  · intro allowance level rule _ spares
    exact chain_sparesEnd spares level
  · intro tokens
    apply (runOperand_outcome none tokens).passes
    intro rule impossible
    cases impossible
  · intro allowance operandSpares expressionSpares tokens
    refine (runOperand_outcome (some (operand allowance)) tokens).passes ?_
    rintro rule ⟨⟩
    exact ⟨operandSpares, expressionSpares⟩

end Rule

namespace Parser

/-- The parsers to which readings lead, from the first token of a list on. -/
inductive Reachable (tokens : List Token) : Parser → Prop where
  | start : Reachable tokens (ofTokens tokens)
  | tryParse {parser : Parser} (reached : Reachable tokens parser) :
      Reachable tokens parser.tryParse.2
  | parse {parser : Parser} (diagnostics : Diagnostics) (reached : Reachable tokens parser) :
      Reachable tokens (parser.parse diagnostics).2.1

theorem parse_cursor (parser : Parser) (diagnostics : Diagnostics) :
    (parser.parse diagnostics).2.1 = parser.tryParse.2 := by
  simp only [Parser.parse]
  split <;> simp_all

/-- Some end marker is the last token of the list that a parser reads. -/
theorem withEnd_eq_append (tokens : List Token) :
    ∃ before last, withEnd tokens = before ++ [last] ∧ last.kind = .eof := by
  unfold withEnd
  cases shown : tokens.getLast? with
  | none => exact ⟨[], .eof 1, rfl, rfl⟩
  | some last =>
    by_cases marked : last.kind = .eof
    · obtain ⟨before, rfl⟩ := List.getLast?_eq_some_iff.mp shown
      exact ⟨before, last, by simp [marked], marked⟩
    · exact ⟨tokens, .eof last.line, by simp [marked], rfl⟩

/-- A parser stands at a token of its list, behind as many tokens as its position says, and has
passed no end marker. -/
structure AtCursor (tokens : List Token) (parser : Parser) : Prop where
  rest : parser.rest = (withEnd tokens).drop parser.position
  bound : parser.position < (withEnd tokens).length
  marks : ∀ token ∈ (withEnd tokens).take parser.position, token.kind ≠ .eof

theorem atCursor_ofTokens (tokens : List Token) : (ofTokens tokens).AtCursor tokens where
  rest := rfl
  bound := by
    obtain ⟨before, last, split, _⟩ := withEnd_eq_append tokens
    simp [ofTokens, split]
  marks := by
    intro token member
    cases member

/-- A parser that passes no end marker keeps to its list, since the last token is one. -/
theorem AtCursor.advance {tokens consumed rest : List Token} {parser : Parser}
    (cursor : parser.AtCursor tokens) (split : parser.rest = consumed ++ rest)
    (marks : ∀ token ∈ consumed, token.kind ≠ .eof) :
    AtCursor tokens ⟨rest, parser.position + consumed.length⟩ := by
  have behind := cursor.rest.symm.trans split
  have passed : (withEnd tokens).take (parser.position + consumed.length) =
      (withEnd tokens).take parser.position ++ consumed := by
    rw [List.take_add, behind, List.take_left]
  have passedMarks : ∀ token ∈ (withEnd tokens).take (parser.position + consumed.length),
      token.kind ≠ .eof := by
    intro token member
    rw [passed] at member
    rcases List.mem_append.mp member with member | member
    · exact cursor.marks token member
    · exact marks token member
  refine ⟨?_, ?_, passedMarks⟩
  · rw [← List.drop_drop, behind, List.drop_left]
  · obtain ⟨before, last, shape, marked⟩ := withEnd_eq_append tokens
    apply Nat.lt_of_not_le
    intro beyond
    refine passedMarks last ?_ marked
    rw [List.take_of_length_le beyond, shape]
    exact List.mem_append_right _ (List.mem_singleton_self last)

theorem AtCursor.tryParse {tokens : List Token} {parser : Parser}
    (cursor : parser.AtCursor tokens) : parser.tryParse.2.AtCursor tokens := by
  obtain ⟨consumed, split, marks⟩ := Rule.expression_sparesEnd maxNesting parser.rest
  rw [tryParse_of_run split rfl]
  exact cursor.advance split marks

theorem Reachable.cursor {tokens : List Token} {parser : Parser}
    (reached : parser.Reachable tokens) : parser.AtCursor tokens := by
  induction reached with
  | start => exact atCursor_ofTokens tokens
  | tryParse reached ih => exact ih.tryParse
  | parse diagnostics reached ih =>
    rw [parse_cursor]
    exact ih.tryParse

/-- The index of the first end marker that a parser of the tokens can come to. -/
def firstMarker (tokens : List Token) : Nat := (withEnd tokens).findIdx (·.kind = .eof)

theorem exists_firstMarker (tokens : List Token) :
    ∃ marker, (withEnd tokens)[firstMarker tokens]? = some marker ∧ marker.kind = .eof := by
  obtain ⟨before, last, split, marked⟩ := withEnd_eq_append tokens
  have bound : firstMarker tokens < (withEnd tokens).length := by
    apply List.findIdx_lt_length_of_exists
    exact ⟨last, by simp [split], by simpa using marked⟩
  have found := List.findIdx_getElem (w := bound)
  exact ⟨_, List.getElem?_eq_getElem bound, of_decide_eq_true found⟩

theorem kind_eq_eof_iff {tokens : List Token} {index : Nat} {token : Token}
    (here : (withEnd tokens)[index]? = some token) (bound : index ≤ firstMarker tokens) :
    token.kind = .eof ↔ index = firstMarker tokens := by
  constructor
  · intro marked
    apply Nat.le_antisymm bound
    apply Nat.le_of_not_lt
    intro early
    have unmarked := List.not_of_lt_findIdx early
    obtain ⟨inside, rfl⟩ := List.getElem?_eq_some_iff.mp here
    simp [marked] at unmarked
  · rintro rfl
    obtain ⟨marker, there, marked⟩ := exists_firstMarker tokens
    obtain rfl := Option.some.inj (here.symm.trans there)
    exact marked

end Parser
end LoxSyntax
