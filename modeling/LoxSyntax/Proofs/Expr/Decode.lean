import LoxSyntax.Expr.Json
import LoxSyntax.Proofs.Json.Record

/-! # Expressions decoded

An expression decodes from its encoding, unless it holds a number that JSON cannot write. The fields
of an operation are looked up by name, at any depth, so neither their order matters nor a field more
(`Expr.ofJson?_of_edit`).
-/

namespace LoxSyntax

theorem Value.ofJson?_toJson (value : Value) :
    ofJson? value.toJson = if value.isFinite then some value else none := by
  cases value with
  | number value =>
    change value.toJson.double?.map Value.number = _
    rw [Binary64.double?_toJson, Value.isFinite]
    split <;> rfl
  | string value => rfl
  | bool value => rfl
  | nil => rfl

namespace Expr

/-- The operations by tag, with the names of their fields. -/
def operations : List (String × List String) :=
  [("Binary", ["left", "operator", "right"]), ("Unary", ["operator", "right"])]

/-- A change to the encoding of an expression: to the fields of an operation, or to the encoding of
an operator or of a smaller expression inside. -/
inductive Edit : Json → Json → Prop where
  | record {tag : String} {names : List String} {fields others : List (String × Json)}
      (operation : (tag, names) ∈ operations) (edit : Json.RecordEdit names fields others) :
      Edit (.object [(tag, .object fields)]) (.object [(tag, .object others)])
  | operator {tag : String} {names : List String} {before behind : List (String × Json)}
      {json other : Json} (operation : (tag, names) ∈ operations) (edit : Token.Edit json other) :
      Edit (.object [(tag, .object (before ++ ("operator", json) :: behind))])
        (.object [(tag, .object (before ++ ("operator", other) :: behind))])
  | operand {tag name : String} {names : List String} {before behind : List (String × Json)}
      {json other : Json} (operation : (tag, names) ∈ operations) (isOperand : name ≠ "operator")
      (edit : Edit json other) :
      Edit (.object [(tag, .object (before ++ (name, json) :: behind))])
        (.object [(tag, .object (before ++ (name, other) :: behind))])
  | grouping {json other : Json} (edit : Edit json other) :
      Edit (.object [("Grouping", json)]) (.object [("Grouping", other)])

theorem operand?_eq (name : String) (fields : List (String × Json)) :
    operand? name fields = (fields.lookup name).bind ofJson? := by
  induction fields with
  | nil => rfl
  | cons field fields ih =>
    rw [operand?, List.lookup_cons]
    by_cases same : field.1 = name
    · rw [if_pos same, same, beq_self_eq_true, Option.bind_some]
    · rw [if_neg same, beq_false_of_ne (Ne.symm same), ih]

theorem ofJson?_binary (fields : List (String × Json)) :
    ofJson? (.object [("Binary", .object fields)]) = do
      let left ← (fields.lookup "left").bind ofJson?
      let operator ← (fields.lookup "operator").bind Token.ofJson?
      let right ← (fields.lookup "right").bind ofJson?
      return binary left operator right := by
  rw [ofJson?, operand?_eq, operand?_eq]

theorem ofJson?_unary (fields : List (String × Json)) :
    ofJson? (.object [("Unary", .object fields)]) = do
      let operator ← (fields.lookup "operator").bind Token.ofJson?
      let right ← (fields.lookup "right").bind ofJson?
      return unary operator right := by
  rw [ofJson?, operand?_eq]

theorem ofJson?_literal (payload : Json) :
    ofJson? (.object [("Literal", payload)]) = (Value.ofJson? payload).map literal := by
  rw [ofJson?]

theorem ofJson?_grouping (payload : Json) :
    ofJson? (.object [("Grouping", payload)]) = (ofJson? payload).map grouping := by
  rw [ofJson?]

theorem ofJson?_toJson (expr : Expr) :
    ofJson? expr.toJson = if expr.isFinite then some expr else none := by
  induction expr with
  | binary left operator right ihLeft ihRight =>
    rw [toJson, ofJson?_binary]
    change ((ofJson? left.toJson).bind fun left => (Token.ofJson? operator.toJson).bind
      fun operator => (ofJson? right.toJson).bind fun right =>
        some (binary left operator right)) = _
    rw [ihLeft, Token.ofJson?_toJson, ihRight, isFinite]
    cases left.isFinite <;> cases operator.isFinite <;> cases right.isFinite <;> rfl
  | unary operator right ih =>
    rw [toJson, ofJson?_unary]
    change ((Token.ofJson? operator.toJson).bind fun operator =>
      (ofJson? right.toJson).bind fun right => some (unary operator right)) = _
    rw [Token.ofJson?_toJson, ih, isFinite]
    cases operator.isFinite <;> cases right.isFinite <;> rfl
  | literal value =>
    rw [toJson, ofJson?_literal, Value.ofJson?_toJson, isFinite]
    split <;> rfl
  | grouping inner ih =>
    rw [toJson, ofJson?_grouping, ih, isFinite]
    split <;> rfl

/-- Operations whose fields of the known names decode to the same decode to the same. -/
theorem ofJson?_operation_congr {tag : String} {names : List String}
    {fields others : List (String × Json)} (operation : (tag, names) ∈ operations)
    (operator : (fields.lookup "operator").bind Token.ofJson? =
      (others.lookup "operator").bind Token.ofJson?)
    (operand : ∀ name ∈ names, name ≠ "operator" →
      (fields.lookup name).bind ofJson? = (others.lookup name).bind ofJson?) :
    ofJson? (.object [(tag, .object fields)]) = ofJson? (.object [(tag, .object others)]) := by
  simp only [operations, List.mem_cons, Prod.mk.injEq, List.not_mem_nil, or_false] at operation
  rcases operation with ⟨rfl, rfl⟩ | ⟨rfl, rfl⟩
  · rw [ofJson?_binary, ofJson?_binary, operator, operand "left" (by decide) (by decide),
      operand "right" (by decide) (by decide)]
  · rw [ofJson?_unary, ofJson?_unary, operator, operand "right" (by decide) (by decide)]

private theorem operator_mem_of_operation {tag : String} {names : List String}
    (operation : (tag, names) ∈ operations) : "operator" ∈ names := by
  have all : ∀ operation ∈ operations, "operator" ∈ operation.2 := by decide
  exact all _ operation

theorem ofJson?_of_edit {json other : Json} (edit : Edit json other) :
    ofJson? json = ofJson? other := by
  induction edit with
  | record operation edit =>
    refine ofJson?_operation_congr operation ?_ fun name known _ => ?_
    · rw [edit.lookup_eq (operator_mem_of_operation operation)]
    · rw [edit.lookup_eq known]
  | operator operation edit =>
    have same := Token.ofJson?_of_edit edit
    refine ofJson?_operation_congr operation (Json.lookup_bind_replace same _ _) ?_
    intro name _ isOperand
    rw [Json.lookup_passes isOperand, Json.lookup_passes isOperand]
  | operand operation isOperand _ ih =>
    refine ofJson?_operation_congr operation ?_ fun name _ _ => Json.lookup_bind_replace ih _ _
    rw [Json.lookup_passes isOperand.symm, Json.lookup_passes isOperand.symm]
  | grouping _ ih => rw [ofJson?_grouping, ofJson?_grouping, ih]

/-- Expressions decode back, whatever is changed in their encodings. -/
theorem decodes : Json.Decodes toJson ofJson? isFinite Edit :=
  .of_edit ofJson?_toJson ofJson?_of_edit

theorem toJson_ne_null (expr : Expr) : expr.toJson ≠ .null := by
  cases expr <;> exact Json.noConfusion

end Expr
end LoxSyntax
