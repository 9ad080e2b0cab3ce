import LoxSyntax.Proofs.Scan.WellFormed
import LoxSyntax.Proofs.Session.Report

/-! # Faults that no run reports

A number is scanned only where a numeral stands, and a numeral has a value. Since scanned numbers
and strings carry their values, the parser never meets one without. So two faults, that of a number
that cannot be read and that of a literal without a value, are reported by no run.
-/

namespace LoxSyntax

/-- The fault is reported neither as an unreadable number nor as a literal without a value. -/
structure Fault.Regular (fault : Fault) : Prop where
  numbers : ¬ "Invalid number".toList <+: fault.message.toList
  literals : fault.message ≠ "Literal token carries no value"

/-- The two messages are told from the others by their first characters. -/
theorem Fault.Regular.of_head {fault : Fault} {c : Char}
    (head : fault.message.toList.head? = some c) (notNumber : c ≠ 'I') (notLiteral : c ≠ 'L') :
    fault.Regular where
  numbers := by
    rintro ⟨rest, shown⟩
    have first : "Invalid number".toList.head? = some 'I' := by decide
    rw [← shown, List.head?_append_of_ne_nil _ (by decide), first] at head
    exact notNumber (Option.some.inj head).symm
  literals := by
    intro same
    have first : "Literal token carries no value".toList.head? = some 'L' := by decide
    rw [same, first] at head
    exact notLiteral (Option.some.inj head).symm

theorem Piece.Reports.regular {piece : Piece} {fault : Fault} (reports : piece.Reports fault) :
    fault.Regular := by
  have head : fault.message.toList.head? = some 'U' := by
    cases reports with
    | @stray c line =>
      have message : (Fault.unexpectedCharacter line c).message =
          "Unexpected character: " ++ c.toString := rfl
      have nonempty : "Unexpected character: ".toList ≠ [] := by decide
      rw [message, String.toList_append, List.head?_append_of_ne_nil _ nonempty]
      decide
    | openString => exact (by decide : "Unterminated string".toList.head? = some 'U')
    | openComment => exact (by decide : "Unterminated comment".toList.head? = some 'U')
  exact .of_head head (by decide) (by decide)

/-- Only a number or a string without a value is blamed for that. -/
theorem Rule.OperandFault.regular {allowance : Nat} {tokens rest : List Token} {fault : Fault}
    (met : OperandFault allowance tokens fault rest)
    (valued : ∀ token ∈ tokens, token.kind = .number ∨ token.kind = .string →
      token.literal ≠ none) : fault.Regular := by
  cases met with
  | misplaced =>
    exact .of_head (by decide : "Expected an expression".toList.head? = some 'E')
      (by decide) (by decide)
  | unclosed =>
    exact .of_head (by decide : "Expected \x60)\x60 after expression".toList.head? = some 'E')
      (by decide) (by decide)
  | beyond =>
    exact .of_head (by decide : "Too much nesting".toList.head? = some 'T')
      (by decide) (by decide)
  | valueless kind missing => exact absurd missing (valued _ List.mem_cons_self kind)

private theorem Parser.regular_of_mem_fault? {parser : Parser} {fault : Fault}
    (valued : ∀ token ∈ parser.rest, token.kind = .number ∨ token.kind = .string →
      token.literal ≠ none) (failed : fault ∈ parser.fault?) : fault.Regular := by
  obtain ⟨before, behind, inner, rest, split, met⟩ := exists_operandFault failed
  refine met.regular fun token member => valued token ?_
  rw [split]
  exact List.mem_append_right _ member

theorem Token.WellFormed.literal_ne_none {token : Token} (wellFormed : token.WellFormed)
    (valued : token.kind = .number ∨ token.kind = .string) : token.literal ≠ none := by
  rcases valued with number | string
  · obtain ⟨_, value, _, carried, _⟩ := wellFormed.number number
    simp [carried]
  · obtain ⟨body, _, _, carried⟩ := wellFormed.string string
    simp [carried]

private theorem regular_of_mem_sourceFaults {source : String} :
    ∀ fault ∈ sourceFaults source, fault.Regular := by
  intro fault member
  rcases List.mem_append.mp member with lexical | syntactic
  · obtain ⟨pieces, splits⟩ := Piece.exists_splits source.toList
    rw [(Scan.ofSource_of_splits splits).2] at lexical
    exact forall_mem_of_forall₂ (splits.reports _) (fun _ _ first => first.regular) fault lexical
  · refine Parser.regular_of_mem_fault? ?_ (Option.mem_toList.mp syntactic)
    rw [Parser.rest_ofSource]
    exact fun token member => (Scan.wellFormed_of_mem token member).literal_ne_none

namespace Session

/-- Kind, lexeme and literal of every token of a source agree. So a run reports neither a number
that cannot be read nor a literal without a value, whatever its session ran before. -/
theorem run_wellFormed (session : Session) (source : String) :
    (∀ token ∈ (session.run source).1.tokens, token.WellFormed) ∧
    ∃ reports, (session.run source).2.diagnostics.toList =
        session.diagnostics.toList ++ reports ∧
      ∀ report ∈ reports, ¬ "Invalid number".toList <+: report.message.toList ∧
        report.message ≠ "Literal token carries no value" := by
  constructor
  · rw [run_outcome]
    exact Scan.wellFormed_of_mem
  · refine ⟨_, toList_diagnostics_run session source, ?_⟩
    rw [List.forall_mem_map]
    intro fault member
    have regular := regular_of_mem_sourceFaults fault member
    exact ⟨regular.numbers, regular.literals⟩

end Session
end LoxSyntax
