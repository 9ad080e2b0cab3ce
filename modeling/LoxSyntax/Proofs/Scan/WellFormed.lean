import LoxSyntax.Proofs.Scan.Layout

/-! # Well-formed tokens

Kind, lexeme and literal of a token that a scanner makes agree: the lexeme is of the form that the
kind asks for, numbers and strings carry the value that their lexeme stands for, and no other token
carries one.
-/

namespace LoxSyntax

namespace Binary64

theorem roundMagnitude_le_infinite (num den : Nat) : roundMagnitude num den ≤ infinite := by
  unfold roundMagnitude
  split
  · exact Nat.zero_le _
  · exact Nat.min_le_left _ _

/-- Magnitudes up to that of infinity leave the sign bit clear. -/
theorem toNat_bits_ofMagnitude {magnitude : Nat} (bound : magnitude ≤ infinite) :
    (ofMagnitude false magnitude).bits.toNat = magnitude := by
  have small : magnitude < 2 ^ 64 := Nat.lt_of_le_of_lt bound (by decide)
  exact Nat.mod_eq_of_lt small

theorem isNegative_ofMagnitude {magnitude : Nat} (bound : magnitude ≤ infinite) :
    (ofMagnitude false magnitude).isNegative = false := by
  have below : magnitude < Nat.pow 2 63 := Nat.lt_of_le_of_lt bound (by decide)
  rw [isNegative, toNat_bits_ofMagnitude bound]
  exact decide_eq_false (Nat.not_le_of_lt below)

private theorem isNaN_ofMagnitude {magnitude : Nat} (bound : magnitude ≤ infinite) :
    (ofMagnitude false magnitude).isNaN = false := by
  have below : magnitude < Nat.pow 2 63 := Nat.lt_of_le_of_lt bound (by decide)
  rw [isNaN, Binary64.magnitude, toNat_bits_ofMagnitude bound, Nat.mod_eq_of_lt below]
  exact decide_eq_false (Nat.not_lt_of_le bound)

/-- What a numeral stands for is some magnitude without a sign. -/
theorem exists_magnitude_of_ofNumeral? {text : List Char} {value : Binary64}
    (decoded : ofNumeral? text = some value) :
    ∃ magnitude ≤ infinite, value = ofMagnitude false magnitude := by
  have digits (whole fraction : List Char) :
      ∃ magnitude ≤ infinite, ofDigits whole fraction = ofMagnitude false magnitude :=
    ⟨_, roundMagnitude_le_infinite _ _, rfl⟩
  unfold ofNumeral? at decoded
  dsimp only at decoded
  split at decoded
  · split at decoded <;> cases decoded
    exact digits _ _
  · split at decoded <;> cases decoded
    exact digits _ _
  · cases decoded

end Binary64

/-- The text of a kind whose tokens are all written in one way. -/
def Kind.fixedText? : Kind → Option (List Char)
  | keyword word => some word.text.toList
  | eof => some []
  | kind => kind.mark?

private theorem Kind.fixedText?_of_mark? {kind : Kind} {text : List Char}
    (spelled : kind.mark? = some text) : kind.fixedText? = some text := by
  cases kind <;> cases spelled <;> rfl

namespace Lexeme

variable {kind : Kind} {literal : Option Literal} {text : List Char}

theorem of_number (lexeme : Lexeme .number literal text) :
    Numeral text ∧ ∃ value, Binary64.ofNumeral? text = some value ∧
      literal = some (.number value) := by
  cases lexeme with
  | mark spelled => cases spelled
  | number numeral decoded => exact ⟨numeral, _, decoded, rfl⟩

theorem of_string (lexeme : Lexeme .string literal text) :
    ∃ body, '"' ∉ body ∧ text = '"' :: (body ++ ['"']) ∧
      literal = some (.string (String.ofList body)) := by
  cases lexeme with
  | mark spelled => cases spelled
  | string inside => exact ⟨_, inside, rfl, rfl⟩

theorem of_identifier (lexeme : Lexeme .identifier literal text) :
    ∃ first others, text = first :: others ∧ isWordStart first = true ∧
      (∀ c ∈ others, isWordPart c = true) ∧ ∀ word : Keyword, word.text.toList ≠ text := by
  cases lexeme with
  | mark spelled => cases spelled
  | identifier starts parts free => exact ⟨_, _, rfl, starts, parts, free⟩

theorem fixedText? (lexeme : Lexeme kind literal text) (notNumber : kind ≠ .number)
    (notString : kind ≠ .string) (notIdentifier : kind ≠ .identifier) :
    kind.fixedText? = some text := by
  cases lexeme with
  | mark spelled => exact Kind.fixedText?_of_mark? spelled
  | number => exact absurd rfl notNumber
  | string => exact absurd rfl notString
  | keyword word => rfl
  | identifier => exact absurd rfl notIdentifier

theorem literal_eq_none (lexeme : Lexeme kind literal text) (notNumber : kind ≠ .number)
    (notString : kind ≠ .string) : literal = none := by
  cases lexeme with
  | number => exact absurd rfl notNumber
  | string => exact absurd rfl notString
  | _ => rfl

end Lexeme

namespace Token

/-- Kind, lexeme and literal of the token agree. -/
structure WellFormed (token : Token) : Prop where
  number : token.kind = .number → Numeral token.lexeme.toList ∧
    ∃ value, Binary64.ofNumeral? token.lexeme.toList = some value ∧
      token.literal = some (.number value) ∧ value.isNaN = false ∧ value.isNegative = false
  /-- A string carries what stands between its quotes, newlines included. -/
  string : token.kind = .string → ∃ body, '"' ∉ body ∧
    token.lexeme.toList = '"' :: (body ++ ['"']) ∧
    token.literal = some (.string (String.ofList body))
  identifier : token.kind = .identifier → ∃ first others,
    token.lexeme.toList = first :: others ∧ isWordStart first = true ∧
      (∀ c ∈ others, isWordPart c = true) ∧ ∀ word : Keyword, word.text ≠ token.lexeme
  /-- All other tokens of a kind are written in one way, the end marker by nothing. -/
  fixed : token.kind ≠ .number → token.kind ≠ .string → token.kind ≠ .identifier →
    token.kind.fixedText? = some token.lexeme.toList
  bare : token.kind ≠ .number → token.kind ≠ .string → token.literal = none

theorem wellFormed_eof (line : Nat) : (eof line).WellFormed where
  number := by simp [eof, plain]
  string := by simp [eof, plain]
  identifier := by simp [eof, plain]
  fixed _ _ _ := rfl
  bare _ _ := rfl

theorem IsScanned.wellFormed {token : Token} (scanned : token.IsScanned) : token.WellFormed where
  number kind := by
    rw [IsScanned, kind] at scanned
    obtain ⟨numeral, value, decoded, carried⟩ := scanned.of_number
    obtain ⟨magnitude, bound, rfl⟩ := Binary64.exists_magnitude_of_ofNumeral? decoded
    exact ⟨numeral, _, decoded, carried, Binary64.isNaN_ofMagnitude bound,
      Binary64.isNegative_ofMagnitude bound⟩
  string kind := by
    rw [IsScanned, kind] at scanned
    exact scanned.of_string
  identifier kind := by
    rw [IsScanned, kind] at scanned
    obtain ⟨first, others, text, starts, parts, free⟩ := scanned.of_identifier
    exact ⟨first, others, text, starts, parts, fun word same => free word (by rw [same])⟩
  fixed := scanned.fixedText?
  bare := scanned.literal_eq_none

end Token

/-- Every token of a source is well-formed. -/
theorem Scan.wellFormed_of_mem {source : String} :
    ∀ token ∈ (ofSource source).tokens, token.WellFormed := by
  obtain ⟨lexemes, line, tokens, scanned⟩ := exists_lexemes source
  rw [tokens, List.forall_mem_append]
  refine ⟨fun token member => (scanned token member).wellFormed, ?_⟩
  intro token member
  rw [List.mem_singleton.mp member]
  exact Token.wellFormed_eof line

end LoxSyntax
