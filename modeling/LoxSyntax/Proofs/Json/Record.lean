import LoxSyntax.Diagnostic.Json
import LoxSyntax.Proofs.Expr.Finite
import LoxSyntax.Token.Json
import Mathlib.Logic.Relation

/-! # Records decoded

A decoder of a record looks its fields up by name, so their order and further fields do not matter
to it (`Json.RecordEdit.lookup_eq`). Tokens and diagnostics are such records, and each decodes from
its encoding, unless it holds a number that JSON cannot write.
-/

namespace LoxSyntax

namespace Json

/-- A change to the fields of a record, whose decoder looks for these names: their order, or one
field more that is not looked for. -/
inductive RecordEdit (names : List String) :
    List (String × Json) → List (String × Json) → Prop where
  | reorder {fields others : List (String × Json)} (distinct : (fields.map Prod.fst).Nodup)
      (order : fields.Perm others) : RecordEdit names fields others
  | extend {before behind : List (String × Json)} {field : String × Json}
      (unknown : field.1 ∉ names) :
      RecordEdit names (before ++ behind) (before ++ field :: behind)

section Lookup

variable {fields others before behind : List (String × Json)} {name : String}

/-- A field of another name is passed over. -/
theorem lookup_passes {field : String × Json} (differ : name ≠ field.1) :
    (before ++ field :: behind).lookup name = (before ++ behind).lookup name := by
  rw [List.lookup_append, List.lookup_append, List.lookup_cons, beq_false_of_ne differ]

/-- Fields of distinct names are found in any order. -/
theorem lookup_eq_of_perm (distinct : (fields.map Prod.fst).Nodup) (order : fields.Perm others)
    (name : String) : fields.lookup name = others.lookup name := by
  induction order with
  | nil => rfl
  | cons field _ ih =>
    rw [List.map_cons, List.nodup_cons] at distinct
    rw [List.lookup_cons, List.lookup_cons, ih distinct.2]
  | swap field other fields =>
    have differ : other.1 ≠ field.1 := by
      intro same
      simp [same] at distinct
    by_cases found : name = field.1
    · have passes : name ≠ other.1 := by
        rw [found]
        exact differ.symm
      rw [List.lookup_cons, beq_false_of_ne passes, found]
      exact List.lookup_cons_self.trans List.lookup_cons_self.symm
    · exact (@lookup_passes [other] fields name field found).trans
        (@lookup_passes [] (other :: fields) name field found).symm
  | trans first _ ihFirst ihSecond =>
    exact (ihFirst distinct).trans (ihSecond ((first.map Prod.fst).nodup_iff.mp distinct))

theorem RecordEdit.lookup_eq {names : List String} (edit : RecordEdit names fields others)
    (known : name ∈ names) : fields.lookup name = others.lookup name := by
  cases edit with
  | reorder distinct order => exact lookup_eq_of_perm distinct order name
  | extend unknown =>
    refine (lookup_passes ?_).symm
    rintro rfl
    exact unknown known

/-- A field that is given one value for another, if the two decode to the same, shows nowhere. -/
theorem lookup_bind_replace {α : Type} {decode : Json → Option α} {json other : Json}
    (same : decode json = decode other) (name key : String) :
    ((before ++ (key, json) :: behind).lookup name).bind decode =
      ((before ++ (key, other) :: behind).lookup name).bind decode := by
  by_cases differ : name = key
  · subst differ
    rw [List.lookup_append, List.lookup_append, List.lookup_cons_self, List.lookup_cons_self]
    cases before.lookup name with
    | none => exact same
    | some found => rfl
  · rw [lookup_passes differ, lookup_passes differ]

end Lookup

section Reading

variable {α : Type} {toJson : α → Json} {ofJson? : Json → Option α} {isFinite : α → Bool}
  {Edit : Json → Json → Prop}

/-- The field of this name of an object. -/
def field? (name : String) : Json → Option Json
  | .object fields => fields.lookup name
  | _ => none

/-- A list, as an array of the encodings of its elements. -/
def list? (ofJson? : Json → Option α) : Json → Option (List α)
  | .array items => items.mapM ofJson?
  | _ => none

/-- A value that may be missing, `null` standing for none. -/
def optional? (ofJson? : Json → Option α) : Json → Option (Option α)
  | .null => some none
  | json => (ofJson? json).map some

theorem optional?_eq {json : Json} (notNull : json ≠ .null) :
    optional? ofJson? json = (ofJson? json).map some := by
  cases json with
  | null => exact absurd rfl notNull
  | _ => rfl

/-- A value that may be missing decodes from its encoding as it does where it may not be. -/
theorem optional?_toJson (encoding : ∀ value, ofJson? (toJson value) =
      if isFinite value then some value else none)
    (notNull : ∀ value, toJson value ≠ .null) (value : Option α) :
    optional? ofJson? ((value.map toJson).getD .null) =
      if value.all isFinite then some value else none := by
  cases value with
  | none => rfl
  | some value =>
    rw [Option.map_some, Option.getD_some, optional?_eq (notNull value), encoding, Option.all_some]
    split <;> rfl

/-- Finite values decode from their encodings and others do not, and decoding shows no edit. -/
structure Decodes (toJson : α → Json) (ofJson? : Json → Option α) (isFinite : α → Bool)
    (Edit : Json → Json → Prop) : Prop where
  encoding (value : α) : ofJson? (toJson value) = if isFinite value then some value else none
  edits {json other : Json} (edits : Relation.ReflTransGen Edit json other) :
    ofJson? json = ofJson? other

namespace Decodes

/-- What no single edit shows, no sequence of edits shows. -/
theorem of_edit
    (encoding : ∀ value, ofJson? (toJson value) = if isFinite value then some value else none)
    (same : ∀ {json other : Json}, Edit json other → ofJson? json = ofJson? other) :
    Decodes toJson ofJson? isFinite Edit where
  encoding := encoding
  edits edits := by
    induction edits with
    | refl => rfl
    | tail _ edit ih => exact ih.trans (same edit)

/-- A finite value decodes from its encoding, and from all that edits make of it. -/
theorem of_finite (decodes : Decodes toJson ofJson? isFinite Edit) {value : α}
    (finite : isFinite value = true) {json : Json}
    (edits : Relation.ReflTransGen Edit (toJson value) json) : ofJson? json = some value := by
  rw [← decodes.edits edits, decodes.encoding, if_pos finite]

theorem list (decodes : Decodes toJson ofJson? isFinite Edit) {values : List α}
    (finite : ∀ value ∈ values, isFinite value = true) :
    list? ofJson? (.array (values.map toJson)) = some values := by
  change (values.map toJson).mapM ofJson? = some values
  induction values with
  | nil => rfl
  | cons value values ih =>
    rw [List.forall_mem_cons] at finite
    rw [List.map_cons, List.mapM_cons, decodes.of_finite finite.1 .refl, ih finite.2]
    rfl

end Decodes
end Reading

end Json

theorem Binary64.double?_toJson (x : Binary64) :
    x.toJson.double? = if x.isFinite then some x else none := by
  unfold Binary64.toJson
  split <;> rfl

theorem Kind.ofJson?_toJson (kind : Kind) : ofJson? kind.toJson = some kind :=
  ofTag?_eq_some_iff.mpr rfl

theorem Literal.ofJson?_toJson (literal : Literal) :
    ofJson? literal.toJson = if literal.isFinite then some literal else none := by
  cases literal with
  | number value =>
    change value.toJson.double?.map Literal.number = _
    rw [Binary64.double?_toJson, Literal.isFinite]
    split <;> rfl
  | string value => rfl

theorem Literal.toJson_ne_null (literal : Literal) : literal.toJson ≠ .null := by
  cases literal <;> exact Json.noConfusion

namespace Token

/-- The names of the fields of a token. -/
def fieldNames : List String := ["kind", "lexeme", "literal", "line"]

/-- A change to the encoding of a token: to its fields, or a literal of `null` left out. -/
inductive Edit : Json → Json → Prop where
  | record {fields others : List (String × Json)}
      (edit : Json.RecordEdit fieldNames fields others) :
      Edit (.object fields) (.object others)
  | dropLiteral {before behind : List (String × Json)} (only : "literal" ∉ behind.map Prod.fst) :
      Edit (.object (before ++ ("literal", .null) :: behind)) (.object (before ++ behind))

/-- The literal of a token, by the field for it if there is one. -/
def literal? (field : Option Json) : Option (Option Literal) :=
  field.elim (some none) (Json.optional? Literal.ofJson?)

theorem ofJson?_object (fields : List (String × Json)) :
    ofJson? (.object fields) = do
      let kind ← (fields.lookup "kind").bind Kind.ofJson?
      let lexeme ← (fields.lookup "lexeme").bind Json.string?
      let literal ← literal? (fields.lookup "literal")
      let line ← (fields.lookup "line").bind Json.nat?
      return ⟨kind, lexeme, literal, line⟩ := by
  simp only [ofJson?, Json.record?, Option.bind_eq_bind, Option.bind_some, Option.bind_assoc]
  rcases fields.lookup "literal" with _ | payload
  · rfl
  · cases payload <;> rfl

theorem ofJson?_toJson (token : Token) :
    ofJson? token.toJson = if token.isFinite then some token else none := by
  obtain ⟨kind, lexeme, literal, line⟩ := token
  have literalBack := Json.optional?_toJson Literal.ofJson?_toJson Literal.toJson_ne_null literal
  rw [toJson, ofJson?_object]
  change ((Kind.ofJson? kind.toJson).bind fun kind =>
    (Json.optional? Literal.ofJson? ((literal.map Literal.toJson).getD .null)).bind fun literal =>
      some (⟨kind, lexeme, literal, line⟩ : Token)) = _
  rw [Kind.ofJson?_toJson, literalBack, isFinite]
  split <;> rfl

theorem ofJson?_of_edit {json other : Json} (edit : Edit json other) :
    ofJson? json = ofJson? other := by
  cases edit with
  | record edit =>
    have same : ∀ name ∈ fieldNames, _ := fun name known => edit.lookup_eq known
    rw [ofJson?_object, ofJson?_object, same "kind" (by decide), same "lexeme" (by decide),
      same "literal" (by decide), same "line" (by decide)]
  | @dropLiteral before behind only =>
    have same {name : String} (differ : name ≠ "literal") :
        (before ++ ("literal", .null) :: behind).lookup name = (before ++ behind).lookup name :=
      Json.lookup_passes differ
    have literal : literal? ((before ++ ("literal", .null) :: behind).lookup "literal") =
        literal? ((before ++ behind).lookup "literal") := by
      have absent : behind.lookup "literal" = none := by
        rw [List.lookup_eq_none_iff]
        intro field member
        simpa using fun same : "literal" = field.1 =>
          only (List.mem_map.mpr ⟨field, member, same.symm⟩)
      rw [List.lookup_append, List.lookup_append, List.lookup_cons_self, absent]
      cases before.lookup "literal" <;> rfl
    rw [ofJson?_object, ofJson?_object, literal, same (by decide), same (by decide),
      same (by decide)]

/-- Tokens decode back, whatever is changed in their encodings. -/
theorem decodes : Json.Decodes toJson ofJson? isFinite Edit :=
  .of_edit ofJson?_toJson ofJson?_of_edit

end Token

theorem Location.ofJson?_toJson (location : Location) :
    ofJson? location.toJson = some location := by
  cases location <;> rfl

namespace Diagnostic

/-- The names of the fields of a diagnostic. -/
def fieldNames : List String := ["line", "location", "message"]

/-- A change to the encoding of a diagnostic, which is to its fields. -/
inductive Edit : Json → Json → Prop where
  | record {fields others : List (String × Json)}
      (edit : Json.RecordEdit fieldNames fields others) :
      Edit (.object fields) (.object others)

theorem ofJson?_object (fields : List (String × Json)) :
    ofJson? (.object fields) = do
      let line ← (fields.lookup "line").bind Json.nat?
      let location ← (fields.lookup "location").bind Location.ofJson?
      let message ← (fields.lookup "message").bind Json.string?
      return ⟨line, location, message⟩ := by
  simp only [ofJson?, Json.record?, Option.bind_eq_bind, Option.bind_some, Option.bind_assoc]

theorem ofJson?_toJson (diagnostic : Diagnostic) :
    ofJson? diagnostic.toJson = some diagnostic := by
  obtain ⟨line, location, message⟩ := diagnostic
  change ((Location.ofJson? location.toJson).bind fun location =>
    some (⟨line, location, message⟩ : Diagnostic)) = _
  rw [Location.ofJson?_toJson, Option.bind_some]

theorem ofJson?_of_edit {json other : Json} (edit : Edit json other) :
    ofJson? json = ofJson? other := by
  cases edit with
  | record edit =>
    have same : ∀ name ∈ fieldNames, _ := fun name known => edit.lookup_eq known
    rw [ofJson?_object, ofJson?_object, same "line" (by decide), same "location" (by decide),
      same "message" (by decide)]

/-- Diagnostics, which hold no number but a line, decode back. -/
theorem decodes : Json.Decodes toJson ofJson? (fun _ => true) Edit :=
  .of_edit ofJson?_toJson ofJson?_of_edit

end Diagnostic
end LoxSyntax
