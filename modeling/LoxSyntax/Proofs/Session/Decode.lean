import LoxSyntax.Proofs.Expr.Decode
import LoxSyntax.Proofs.Session.WellFormed

/-! # Outcomes decoded

What a run gives comes back from its encoding: the tokens and the expression that decode from an
outcome are those of the run, unless a numeral of the source is too large for a double.
-/

namespace LoxSyntax

/-- Only a number carries a number, and it carries that of its numeral. -/
theorem Token.WellFormed.isFinite {token : Token} (wellFormed : token.WellFormed)
    (finite : token.kind = .number →
      ∀ value ∈ Binary64.ofNumeral? token.lexeme.toList, value.isFinite = true) :
    token.isFinite = true := by
  by_cases number : token.kind = .number
  · obtain ⟨_, value, decoded, carried, _⟩ := wellFormed.number number
    rw [Token.isFinite, carried, Option.all_some]
    exact finite number value decoded
  by_cases string : token.kind = .string
  · obtain ⟨body, _, _, carried⟩ := wellFormed.string string
    rw [Token.isFinite, carried, Option.all_some]
    rfl
  · rw [Token.isFinite, wellFormed.bare number string]
    rfl

/-- An expression read from finite tokens is finite. -/
theorem Parser.isFinite_of_tryParse {parser after : Parser} {expr : Expr}
    (read : parser.tryParse = (.ok expr, after))
    (finite : ∀ token ∈ parser.rest, token.isFinite = true) : expr.isFinite = true := by
  obtain ⟨⟨consumed, split, spelled⟩, _⟩ := readFrom_of_tryParse read
  refine spelled.isFinite fun token member => finite token ?_
  rw [split]
  exact List.mem_append_left _ member

namespace Session

/-- An outcome holds nothing that is not finite, unless one of its tokens does. -/
theorem isFinite_of_run {session : Session} {source : String}
    (finite : ∀ token ∈ (session.run source).1.tokens, token.isFinite = true) :
    (session.run source).1.expression.all Expr.isFinite = true := by
  rw [run_outcome] at finite ⊢
  rcases read : (Parser.ofSource source).tryParse with ⟨_ | expr, after⟩
  · rfl
  · exact Parser.isFinite_of_tryParse read (by rwa [Parser.rest_ofSource])

/-- Tokens, expressions and diagnostics decode from their encodings just if their numbers are
finite, and no edit of an encoding shows. So if no numeral of a source is too large for a double,
the tokens and the expression of its outcome decode to those of the run. -/
theorem run_decodes :
    Json.Decodes Token.toJson Token.ofJson? Token.isFinite Token.Edit ∧
    Json.Decodes Expr.toJson Expr.ofJson? Expr.isFinite Expr.Edit ∧
    Json.Decodes Diagnostic.toJson Diagnostic.ofJson? (fun _ => true) Diagnostic.Edit ∧
    ∀ (session : Session) (source : String),
      (∀ token ∈ (session.run source).1.tokens, token.kind = .number →
        ∀ value ∈ Binary64.ofNumeral? token.lexeme.toList, value.isFinite = true) →
      ((session.run source).1.toJson.field? "tokens").bind (Json.list? Token.ofJson?) =
          some (session.run source).1.tokens ∧
        ((session.run source).1.toJson.field? "expression").bind (Json.optional? Expr.ofJson?) =
          some (session.run source).1.expression := by
  refine ⟨Token.decodes, Expr.decodes, Diagnostic.decodes, fun session source numerals => ?_⟩
  have finite : ∀ token ∈ (session.run source).1.tokens, token.isFinite = true := by
    intro token member
    refine Token.WellFormed.isFinite ?_ (numerals token member)
    rw [run_outcome] at member
    exact Scan.wellFormed_of_mem token member
  constructor
  · exact Token.decodes.list finite
  · have back := Json.optional?_toJson Expr.ofJson?_toJson Expr.toJson_ne_null
      (session.run source).1.expression
    rwa [isFinite_of_run finite, if_pos rfl] at back

/-- The encoding of a minus sign without its literal, its fields in another order and one more. -/
def lineFirst : Json :=
  .object [("line", .int 1), ("kind", .string "Minus"), ("note", .null), ("lexeme", .string "-")]

theorem run_decodes_negation :
    (∀ token ∈ ((new {}).run "-(1.5)").1.tokens, token.kind = .number →
      ∀ value ∈ Binary64.ofNumeral? token.lexeme.toList, value.isFinite = true) ∧
    (((new {}).run "-(1.5)").1.toJson.field? "tokens").bind (Json.list? Token.ofJson?) =
      some ((new {}).run "-(1.5)").1.tokens ∧
    (((new {}).run "-(1.5)").1.toJson.field? "expression").bind (Json.optional? Expr.ofJson?) =
      some ((new {}).run "-(1.5)").1.expression ∧
    Relation.ReflTransGen Token.Edit (Token.plain .minus "-" 1).toJson lineFirst ∧
    Token.ofJson? lineFirst = some (.plain .minus "-" 1) := by
  have finite : ∀ token ∈ ((new {}).run "-(1.5)").1.tokens, token.kind = .number →
      ∀ value ∈ Binary64.ofNumeral? token.lexeme.toList, value.isFinite = true := by
    decide +kernel
  obtain ⟨tokens, expression⟩ := run_decodes.2.2.2 (new {}) "-(1.5)" finite
  have dropped : Token.Edit (Token.plain .minus "-" 1).toJson
      (.object [("kind", .string "Minus"), ("lexeme", .string "-"), ("line", .int 1)]) :=
    @Token.Edit.dropLiteral [("kind", .string "Minus"), ("lexeme", .string "-")] [("line", .int 1)]
      (by decide)
  have reordered : Token.Edit
      (.object [("kind", .string "Minus"), ("lexeme", .string "-"), ("line", .int 1)])
      (.object [("line", .int 1), ("kind", .string "Minus"), ("lexeme", .string "-")]) :=
    .record (.reorder (by decide) (@List.perm_append_comm _ [_, _] [_]))
  have extended : Token.Edit
      (.object [("line", .int 1), ("kind", .string "Minus"), ("lexeme", .string "-")]) lineFirst :=
    .record (@Json.RecordEdit.extend _ [("line", .int 1), ("kind", .string "Minus")] _ _
      (by decide))
  have edits := ((Relation.ReflTransGen.single dropped).tail reordered).tail extended
  exact ⟨finite, tokens, expression, edits, run_decodes.1.of_finite rfl edits⟩

end Session
end LoxSyntax
