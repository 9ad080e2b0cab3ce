import LoxSyntax.Diagnostic.Fault
import LoxSyntax.Number.Numeral
import LoxSyntax.Unicode.Alphabetic
import LoxSyntax.Unicode.Numeric

/-! # Pieces of a source text

A source text falls into pieces: tokens, blanks, comments and what is wrong with it. `Piece.cut`
takes the piece at the front, and `Piece.cut_text` says that nothing is lost by it: the piece and
the rest are the text. Lines and positions are left to `LoxSyntax.Scan.Scanner`.
-/

namespace LoxSyntax

def isBlank (c : Char) : Bool := c = ' ' || c = '\r' || c = '\t' || c = '\n'

/-- A word begins with an alphabetic character of any script or an underscore. -/
def isWordStart (c : Char) : Bool := Unicode.isAlphabetic c || c = '_'

/-- A word goes on with alphabetic and numeric characters, underscores and hyphens. -/
def isWordPart (c : Char) : Bool :=
  Unicode.isAlphabetic c || Unicode.isNumeric c || c = '_' || c = '-'

/-- A piece of a source text, with all of its characters. -/
inductive Piece where
  | token (kind : Kind) (text : List Char) (literal : Option Literal)
  | blank (character : Char)
  | comment (text : List Char)
  | stray (character : Char)
  | badNumber (text : List Char)
  | openString (text : List Char)
  | openComment (text : List Char)
deriving DecidableEq

namespace Piece

def text : Piece → List Char
  | token _ text _ => text
  | blank character => [character]
  | comment text => text
  | stray character => [character]
  | badNumber text => text
  | openString text => text
  | openComment text => text

def token? (line : Nat) : Piece → Option Token
  | token kind text literal => some ⟨kind, String.ofList text, literal, line⟩
  | _ => none

/-- What is wrong with a piece that begins on the line. What is never closed is noticed on the
line where the text ends. -/
def fault? (line : Nat) : Piece → Option Fault
  | stray character => some (.unexpectedCharacter line character)
  | badNumber text => some (.invalidNumber line (String.ofList text))
  | openString text => some (.unterminatedString (line + text.count '\n'))
  | openComment text => some (.unterminatedComment (line + text.count '\n'))
  | _ => none

/-- Reads on inside a block comment and `depth` comments around it. Gives the characters read,
those of `seen` first and in reverse, and what follows the delimiter that closes the outermost
comment, or nothing if the text ends first. A delimiter is taken whole, so no character belongs to
two of them. -/
def readComment (depth : Nat) (seen : List Char) : List Char → List Char × Option (List Char)
  | '*' :: '/' :: rest =>
    match depth with
    | 0 => (('/' :: '*' :: seen).reverse, some rest)
    | outer + 1 => readComment outer ('/' :: '*' :: seen) rest
  | '/' :: '*' :: rest => readComment (depth + 1) ('*' :: '/' :: seen) rest
  | c :: rest => readComment depth (c :: seen) rest
  | [] => (seen.reverse, none)

def cutBlockComment (chars : List Char) : Piece × List Char :=
  match readComment 0 ['*', '/'] chars with
  | (text, some rest) => (comment text, rest)
  | (text, none) => (openComment text, [])

/-- The comment whose `//` stands before the characters. The newline is not part of it. -/
def cutLineComment (chars : List Char) : Piece × List Char :=
  (comment ('/' :: '/' :: chars.takeWhile (· != '\n')), chars.dropWhile (· != '\n'))

/-- The string whose first quote stands before the characters: it goes on to the next quote, over
any number of lines. -/
def cutString (chars : List Char) : Piece × List Char :=
  let body := chars.takeWhile (· != '"')
  match chars.dropWhile (· != '"') with
  | [] => (openString ('"' :: body), [])
  | quote :: rest =>
    (token .string ('"' :: body ++ [quote]) (some (.string (String.ofList body))), rest)

def spanNumeral (chars : List Char) : List Char × List Char :=
  let whole := chars.takeWhile Char.isDigit
  match chars.dropWhile Char.isDigit with
  | '.' :: digit :: rest =>
    if digit.isDigit then
      (whole ++ '.' :: digit :: rest.takeWhile Char.isDigit, rest.dropWhile Char.isDigit)
    else (whole, '.' :: digit :: rest)
  | rest => (whole, rest)

def cutNumber (chars : List Char) : Piece × List Char :=
  let (text, rest) := spanNumeral chars
  match Binary64.ofNumeral? text with
  | some value => (token .number text (some (.number value)), rest)
  | none => (badNumber text, rest)

/-- The word at the front of characters that begin with `first`: a keyword only if the whole word
is one. -/
def cutWord (first : Char) (chars : List Char) : Piece × List Char :=
  let text := first :: chars.takeWhile isWordPart
  (token (.ofWord (String.ofList text)) text none, chars.dropWhile isWordPart)

/-- The mark at the front: two characters if they are one operator, else one. A character that
begins no token is a piece by itself. -/
def cutMark (first : Char) (chars : List Char) : Piece × List Char :=
  let single := match Kind.ofChar? first with
    | some kind => (token kind [first] none, chars)
    | none => (stray first, chars)
  match chars with
  | [] => single
  | second :: rest =>
    match Kind.ofPair? first second with
    | some kind => (token kind [first, second] none, rest)
    | none => single

/-- The piece at the front of a text that begins with `first`, and the rest of the text. -/
def cut (first : Char) (chars : List Char) : Piece × List Char :=
  if isBlank first then (blank first, chars)
  else if first.isDigit then cutNumber (first :: chars)
  else if isWordStart first then cutWord first chars
  else
    match first, chars with
    | '"', chars => cutString chars
    | '/', '/' :: rest => cutLineComment rest
    | '/', '*' :: rest => cutBlockComment rest
    | first, chars => cutMark first chars

theorem readComment_text (depth : Nat) (seen chars : List Char) :
    (readComment depth seen chars).1 ++ (readComment depth seen chars).2.getD [] =
      seen.reverse ++ chars := by
  fun_induction readComment depth seen chars with
  | case1 => simp
  | case2 seen rest outer ih => simp [ih]
  | case3 depth seen rest ih => simp [ih]
  | case4 depth seen c rest _ _ ih => simp [ih]
  | case5 => simp

private theorem cutBlockComment_text (chars : List Char) :
    (cutBlockComment chars).1.text ++ (cutBlockComment chars).2 = '/' :: '*' :: chars := by
  have whole := readComment_text 0 ['*', '/'] chars
  simp only [cutBlockComment]
  split <;> simp_all [text]

private theorem cutLineComment_text (chars : List Char) :
    (cutLineComment chars).1.text ++ (cutLineComment chars).2 = '/' :: '/' :: chars := by
  simp [cutLineComment, text]

private theorem cutString_text (chars : List Char) :
    (cutString chars).1.text ++ (cutString chars).2 = '"' :: chars := by
  have whole := List.takeWhile_append_dropWhile (p := (· != '"')) (l := chars)
  simp only [cutString]
  split <;> simp_all [text]

theorem spanNumeral_append (chars : List Char) :
    (spanNumeral chars).1 ++ (spanNumeral chars).2 = chars := by
  have whole := List.takeWhile_append_dropWhile (p := Char.isDigit) (l := chars)
  simp only [spanNumeral]
  split
  · split <;> simp_all
  · simp_all

private theorem cutNumber_text (chars : List Char) :
    (cutNumber chars).1.text ++ (cutNumber chars).2 = chars := by
  have whole := spanNumeral_append chars
  simp only [cutNumber]
  split <;> simpa [text] using whole

theorem cutWord_text (first : Char) (chars : List Char) :
    (cutWord first chars).1.text ++ (cutWord first chars).2 = first :: chars := by
  simp [cutWord, text]

private theorem cutMark_text (first : Char) (chars : List Char) :
    (cutMark first chars).1.text ++ (cutMark first chars).2 = first :: chars := by
  simp only [cutMark]
  split <;> split <;> try split
  all_goals simp [text]

/-- A piece and what follows it are the text that it was cut from. -/
theorem cut_text (first : Char) (chars : List Char) :
    (cut first chars).1.text ++ (cut first chars).2 = first :: chars := by
  simp only [cut]
  split
  · simp [text]
  split
  · exact cutNumber_text _
  split
  · exact cutWord_text first chars
  split
  · exact cutString_text chars
  · exact cutLineComment_text _
  · exact cutBlockComment_text _
  · exact cutMark_text first chars

private theorem readComment_ne_nil (depth : Nat) (seen chars : List Char) (nonempty : seen ≠ []) :
    (readComment depth seen chars).1 ≠ [] := by
  fun_induction readComment depth seen chars <;> simp_all

private theorem cutNumber_text_ne_nil (first : Char) (chars : List Char)
    (digit : first.isDigit = true) :
    (cutNumber (first :: chars)).1.text ≠ [] := by
  have nonempty : (spanNumeral (first :: chars)).1 ≠ [] := by
    simp only [spanNumeral, List.takeWhile_cons, digit]
    split
    · split <;> simp
    · simp
  simp only [cutNumber]
  split <;> simpa [text] using nonempty

private theorem cutMark_text_ne_nil (first : Char) (chars : List Char) :
    (cutMark first chars).1.text ≠ [] := by
  simp only [cutMark]
  split <;> split <;> try split
  all_goals simp [text]

theorem cut_text_ne_nil (first : Char) (chars : List Char) :
    (cut first chars).1.text ≠ [] := by
  simp only [cut]
  split
  · simp [text]
  split
  · next digit => exact cutNumber_text_ne_nil first chars digit
  split
  · simp [cutWord, text]
  split
  · simp only [cutString]
    split <;> simp [text]
  · simp [cutLineComment, text]
  · have nonempty := readComment_ne_nil 0 ['*', '/'] ‹_› (by simp)
    simp only [cutBlockComment]
    split <;> simp_all [text]
  · exact cutMark_text_ne_nil first chars

/-- What follows a piece is shorter than the text that it was cut from. -/
theorem length_cut_le (first : Char) (chars : List Char) :
    (cut first chars).2.length ≤ chars.length := by
  have whole := congrArg List.length (cut_text first chars)
  have positive := List.length_pos_iff.mpr (cut_text_ne_nil first chars)
  simp only [List.length_append, List.length_cons] at whole
  omega

end Piece
end LoxSyntax
