import LoxSyntax.Proofs.Scan.Numeral

/-! # Lexemes

The lexical grammar without a scanner: which texts are tokens, of which kind and with which value.
A text is at most one token, since its first character decides what it can be: a digit begins a
number, a quote a string, a letter or an underscore a word, and all else a mark.
-/

namespace LoxSyntax

/-- The text of a mark of punctuation or an operator. -/
def Kind.mark? : Kind → Option (List Char)
  | leftParen => some ['(']
  | rightParen => some [')']
  | leftBrace => some ['\x7b']
  | rightBrace => some ['\x7d']
  | comma => some [',']
  | dot => some ['.']
  | minus => some ['-']
  | plus => some ['+']
  | semicolon => some [';']
  | slash => some ['/']
  | star => some ['*']
  | bang => some ['!']
  | bangEqual => some ['!', '=']
  | equal => some ['=']
  | equalEqual => some ['=', '=']
  | greater => some ['>']
  | greaterEqual => some ['>', '=']
  | less => some ['<']
  | lessEqual => some ['<', '=']
  | _ => none

/-- The text is a token of this kind with this value. -/
inductive Lexeme : Kind → Option Literal → List Char → Prop where
  | mark {kind : Kind} {text : List Char} (spelled : kind.mark? = some text) :
      Lexeme kind none text
  | number {text : List Char} {value : Binary64} (numeral : Numeral text)
      (decoded : Binary64.ofNumeral? text = some value) :
      Lexeme .number (some (.number value)) text
  | string {body : List Char} (inside : '"' ∉ body) :
      Lexeme .string (some (.string (String.ofList body))) ('"' :: (body ++ ['"']))
  | keyword (word : Keyword) : Lexeme (.keyword word) none word.text.toList
  | identifier {first : Char} {others : List Char} (starts : isWordStart first = true)
      (parts : ∀ c ∈ others, isWordPart c = true)
      (free : ∀ word : Keyword, word.text.toList ≠ first :: others) :
      Lexeme .identifier none (first :: others)

/-- The text is a token. -/
def IsLexeme (text : List Char) : Prop := ∃ kind literal, Lexeme kind literal text

namespace Kind

theorem ofChar?_eq_some_iff (c : Char) (kind : Kind) :
    ofChar? c = some kind ↔ kind.mark? = some [c] := by
  constructor
  · intro known
    unfold ofChar? at known
    split at known <;> cases known <;> rfl
  · intro spelled
    cases kind <;> cases spelled <;> rfl

theorem ofPair?_eq_some_iff (first second : Char) (kind : Kind) :
    ofPair? first second = some kind ↔ kind.mark? = some [first, second] := by
  constructor
  · intro known
    unfold ofPair? at known
    split at known <;> cases known <;> rfl
  · intro spelled
    cases kind <;> cases spelled <;> rfl

/-- A mark has one or two characters. -/
theorem mark?_shape {kind : Kind} {text : List Char} (spelled : kind.mark? = some text) :
    (∃ c, text = [c]) ∨ ∃ first second, text = [first, second] := by
  cases kind <;> cases spelled <;> first | exact .inl ⟨_, rfl⟩ | exact .inr ⟨_, _, rfl⟩

theorem mark?_injective {kind other : Kind} {text : List Char} (spelled : kind.mark? = some text)
    (same : other.mark? = some text) : kind = other := by
  rcases mark?_shape spelled with ⟨c, rfl⟩ | ⟨first, second, rfl⟩
  · exact Option.some.inj (((ofChar?_eq_some_iff c kind).mpr spelled).symm.trans
      ((ofChar?_eq_some_iff c other).mpr same))
  · exact Option.some.inj (((ofPair?_eq_some_iff first second kind).mpr spelled).symm.trans
      ((ofPair?_eq_some_iff first second other).mpr same))

end Kind

private theorem Keyword.text_shape (word : Keyword) :
    ∃ first others, word.text.toList = first :: others ∧ isWordStart first = true ∧
      ∀ c ∈ others, isWordPart c = true := by
  cases word <;> exact ⟨_, _, rfl, by decide, List.all_eq_true.mp (by decide)⟩

/-- What a token that begins with a character can be. -/
inductive Head where
  | digit | word | quote | mark
deriving DecidableEq

/-- The first character of a token decides what it is. -/
def Head.of (c : Char) : Head :=
  if c.isDigit then digit else if isWordStart c then word else if c = '"' then quote else mark

theorem isWordStart_of_isDigit {c : Char} (digit : c.isDigit = true) : isWordStart c = false := by
  have ascii : ∀ n < 128, (Char.ofNat n).isDigit = true → isWordStart (Char.ofNat n) = false := by
    decide
  have bound := Char.isDigit_iff_toNat.mp digit
  have known := ascii c.toNat (Nat.lt_of_le_of_lt bound.2 (by decide))
  rw [Char.ofNat_toNat] at known
  exact known digit

theorem isBlank_eq_true_iff (c : Char) :
    isBlank c = true ↔ c = ' ' ∨ c = '\r' ∨ c = '\t' ∨ c = '\n' := by
  simp [isBlank, or_assoc]

theorem Head.of_isBlank {c : Char} (blank : isBlank c = true) : Head.of c = .mark := by
  rcases (isBlank_eq_true_iff c).mp blank with rfl | rfl | rfl | rfl <;> decide

theorem Head.of_isDigit {c : Char} (digit : c.isDigit = true) : Head.of c = .digit := if_pos digit

theorem Head.of_isWordStart {c : Char} (starts : isWordStart c = true) : Head.of c = .word := by
  have notDigit : ¬ c.isDigit = true := by
    intro digit
    rw [isWordStart_of_isDigit digit] at starts
    cases starts
  rw [Head.of, if_neg notDigit, if_pos starts]

theorem Head.of_mark? {kind : Kind} {c : Char} {others : List Char}
    (spelled : kind.mark? = some (c :: others)) : Head.of c = .mark ∧ isBlank c = false := by
  cases kind <;> cases spelled <;> decide

namespace Lexeme

variable {kind other : Kind} {literal value : Option Literal} {c : Char} {text others : List Char}

theorem ne_nil (lexeme : Lexeme kind literal text) : text ≠ [] := by
  cases lexeme with
  | mark spelled =>
    rcases Kind.mark?_shape spelled with ⟨c, rfl⟩ | ⟨first, second, rfl⟩ <;> simp
  | number numeral => exact numeral.ne_nil
  | string => simp
  | keyword word =>
    obtain ⟨first, others, shape, _⟩ := word.text_shape
    simp [shape]
  | identifier => simp

/-- The token that a text can be, by the class of its first character. -/
inductive ByHead (c : Char) (others : List Char) : Kind → Option Literal → Prop where
  | digit {value : Binary64} (head : Head.of c = .digit) (numeral : Numeral (c :: others))
      (decoded : Binary64.ofNumeral? (c :: others) = some value) :
      ByHead c others .number (some (.number value))
  | word (head : Head.of c = .word) (starts : isWordStart c = true)
      (parts : ∀ part ∈ others, isWordPart part = true) :
      ByHead c others (.ofWord (String.ofList (c :: others))) none
  | quote {body : List Char} (head : Head.of c = .quote) (closed : others = body ++ ['"'])
      (inside : '"' ∉ body) : ByHead c others .string (some (.string (String.ofList body)))
  | mark {kind : Kind} (head : Head.of c = .mark) (spelled : kind.mark? = some (c :: others)) :
      ByHead c others kind none

theorem ofWord_eq_identifier {run : List Char} (free : ∀ word : Keyword, word.text.toList ≠ run) :
    Kind.ofWord (String.ofList run) = .identifier := by
  unfold Kind.ofWord
  cases found : Keyword.ofText? (String.ofList run) with
  | none => rfl
  | some word =>
    have same := Keyword.ofText?_eq_some_iff.mp found
    exact absurd (by rw [same, String.toList_ofList]) (free word)

theorem ofWord_text (word : Keyword) :
    Kind.ofWord (String.ofList word.text.toList) = .keyword word := by
  have found := Keyword.ofText?_eq_some_iff.mpr (Eq.refl word.text)
  rw [String.ofList_toList, Kind.ofWord, found]

/-- A word is a keyword or an identifier, whichever its whole run is. -/
theorem word (starts : isWordStart c = true) (parts : ∀ part ∈ others, isWordPart part = true) :
    Lexeme (.ofWord (String.ofList (c :: others))) none (c :: others) := by
  by_cases reserved : ∃ word : Keyword, word.text.toList = c :: others
  · obtain ⟨word, same⟩ := reserved
    rw [← same, ofWord_text word]
    exact .keyword word
  · have free : ∀ word : Keyword, word.text.toList ≠ c :: others :=
      fun word same => reserved ⟨word, same⟩
    rw [ofWord_eq_identifier free]
    exact .identifier starts parts free

theorem byHead (lexeme : Lexeme kind literal (c :: others)) : ByHead c others kind literal := by
  generalize shown : c :: others = text at lexeme
  cases lexeme with
  | mark spelled =>
    subst shown
    exact .mark (Head.of_mark? spelled).1 spelled
  | number numeral decoded =>
    subst shown
    exact .digit (Head.of_isDigit numeral.head) numeral decoded
  | string inside =>
    cases shown
    exact .quote (by decide) rfl inside
  | keyword word =>
    obtain ⟨first, others, shape, starts, parts⟩ := word.text_shape
    obtain ⟨rfl, rfl⟩ := List.cons.inj (shown.trans shape)
    rw [← ofWord_text word, shape]
    exact .word (Head.of_isWordStart starts) starts parts
  | identifier starts parts free =>
    cases shown
    rw [← ofWord_eq_identifier free]
    exact .word (Head.of_isWordStart starts) starts parts

/-- A text is at most one token. -/
theorem unique (lexeme : Lexeme kind literal text) (rival : Lexeme other value text) :
    kind = other ∧ literal = value := by
  match text, lexeme.ne_nil with
  | c :: others, _ =>
    cases lexeme.byHead with
    | digit head numeral decoded =>
      cases rival.byHead <;> simp_all
    | word head starts parts => cases rival.byHead <;> simp_all
    | quote head closed inside => cases rival.byHead <;> simp_all
    | mark head spelled =>
      cases rival.byHead with
      | mark _ same => exact ⟨Kind.mark?_injective spelled same, rfl⟩
      | _ => simp_all

end Lexeme
end LoxSyntax
