import LoxSyntax.Proofs.Scan.Comment
import LoxSyntax.Proofs.Scan.Lexeme
import LoxSyntax.Scan.Scanner

/-! # Longest match

`Piece.Leads` is the lexical grammar as a rule for the front of a text: comments first, then the
longest token, then blanks and what is wrong. Cutting follows the rule and the rule leaves no
choice, so the two say the same of every text (`Piece.cut_eq_iff_leads`).
-/

namespace LoxSyntax

private theorem not_mem_takeWhile_ne (c : Char) (chars : List Char) :
    c ∉ chars.takeWhile (· != c) := by
  intro member
  have different := List.all_eq_true.mp List.all_takeWhile c member
  simp at different

theorem dropWhile_ne_cases (c : Char) (chars : List Char) :
    chars.dropWhile (· != c) = [] ∨ ∃ rest, chars.dropWhile (· != c) = c :: rest := by
  have stopped := List.head?_dropWhile_not (· != c) chars
  cases left : chars.dropWhile (· != c) with
  | nil => exact .inl rfl
  | cons first rest =>
    rw [left] at stopped
    obtain rfl : first = c := by simpa using stopped
    exact .inr ⟨rest, rfl⟩

private theorem takeWhile_ne_append {c : Char} {body rest : List Char} (inside : c ∉ body)
    (ends : rest = [] ∨ [c] <+: rest) :
    (body ++ rest).takeWhile (· != c) = body ∧ (body ++ rest).dropWhile (· != c) = rest := by
  have within : ∀ other ∈ body, (other != c) = true := by
    intro other member
    simpa using fun same : other = c => inside (same ▸ member)
  rw [List.takeWhile_append_of_pos within, List.dropWhile_append_of_pos within]
  rcases ends with rfl | ⟨others, rfl⟩ <;> simp

namespace Piece

/-- A comment begins at the front of the text. -/
def OpensComment (text : List Char) : Prop := ['/', '/'] <+: text ∨ ['/', '*'] <+: text

/-- The piece is what the lexical grammar puts at the front of the text, and `rest` follows it. -/
inductive Leads : Piece → List Char → List Char → Prop where
  | lineComment {body rest : List Char} (inside : '\n' ∉ body)
      (ends : rest = [] ∨ ['\n'] <+: rest) :
      Leads (.comment ('/' :: '/' :: body)) ('/' :: '/' :: (body ++ rest)) rest
  | blockComment {text rest : List Char} (closed : BlockComment text) :
      Leads (.comment text) (text ++ rest) rest
  | openComment {chars : List Char}
      (unclosed : ¬ ∃ text, BlockComment text ∧ text <+: '/' :: '*' :: chars) :
      Leads (.openComment ('/' :: '*' :: chars)) ('/' :: '*' :: chars) []
  | token {kind : Kind} {literal : Option Literal} {text rest : List Char}
      (lexeme : Lexeme kind literal text) (noComment : ¬ OpensComment (text ++ rest))
      (longest : ∀ other, IsLexeme other → other <+: text ++ rest →
        other.length ≤ text.length) :
      Leads (.token kind text literal) (text ++ rest) rest
  | blank {c : Char} {rest : List Char} (blank : isBlank c = true) :
      Leads (.blank c) (c :: rest) rest
  | openString {body : List Char} (inside : '"' ∉ body) :
      Leads (.openString ('"' :: body)) ('"' :: body) []
  | stray {c : Char} {rest : List Char} (notBlank : isBlank c = false) (notQuote : c ≠ '"')
      (noToken : ∀ text, IsLexeme text → ¬ text <+: c :: rest) :
      Leads (.stray c) (c :: rest) rest

/-- A piece and what follows it are the text. -/
theorem Leads.append {piece : Piece} {text rest : List Char} (leads : piece.Leads text rest) :
    piece.text ++ rest = text := by
  cases leads <;> simp [Piece.text]

theorem Leads.ne_nil {piece : Piece} {text rest : List Char} (leads : piece.Leads text rest) :
    text ≠ [] := by
  cases leads with
  | blockComment closed =>
    obtain ⟨body, rfl, _⟩ := closed
    simp
  | token lexeme => simp [lexeme.ne_nil]
  | _ => simp

theorem Leads.token_of_append {kind : Kind} {literal : Option Literal} {text rest chars : List Char}
    (lexeme : Lexeme kind literal text) (whole : text ++ rest = chars)
    (noComment : ¬ OpensComment chars)
    (longest : ∀ other, IsLexeme other → other <+: chars → other.length ≤ text.length) :
    Leads (.token kind text literal) chars rest := by
  subst whole
  exact .token lexeme noComment longest

theorem OpensComment.head {c : Char} {chars : List Char} (opens : OpensComment (c :: chars)) :
    c = '/' := by
  rcases opens with opens | opens <;> exact (List.cons_prefix_cons.mp opens).1.symm

section Cut

variable {first : Char} {chars : List Char}

private theorem not_opensComment_of_head (head : Head.of first ≠ .mark) :
    ¬ OpensComment (first :: chars) := by
  intro opens
  rw [opens.head] at head
  exact head (by decide)

/-- A token at the front begins with the first character. -/
theorem byHead_of_prefix {other : List Char} (token : IsLexeme other)
    (leads : other <+: first :: chars) :
    ∃ others kind literal, other = first :: others ∧ others <+: chars ∧
      Lexeme.ByHead first others kind literal := by
  obtain ⟨kind, literal, lexeme⟩ := token
  match other, lexeme.ne_nil with
  | c :: others, _ =>
    obtain ⟨rfl, behind⟩ := List.cons_prefix_cons.mp leads
    exact ⟨others, kind, literal, rfl, behind, lexeme.byHead⟩

private theorem cutNumber_leads (digit : first.isDigit = true) :
    (cutNumber (first :: chars)).1.Leads (first :: chars) (cutNumber (first :: chars)).2 := by
  have head := Head.of_isDigit digit
  have numeral : Numeral (spanNumeral (first :: chars)).1 := Numeral.spanNumeral digit
  obtain ⟨value, decoded⟩ := numeral.decodes
  simp only [cutNumber, decoded]
  refine .token_of_append (.number numeral decoded) (spanNumeral_append _)
    (not_opensComment_of_head (by simp [head])) ?_
  intro other token leads
  obtain ⟨others, kind, literal, rfl, _, byHead⟩ := byHead_of_prefix token leads
  cases byHead with
  | digit _ rival => exact rival.length_le_spanNumeral leads
  | _ => simp_all

private theorem cutWord_leads (starts : isWordStart first = true) :
    (cutWord first chars).1.Leads (first :: chars) (cutWord first chars).2 := by
  have head := Head.of_isWordStart starts
  have parts : ∀ part ∈ chars.takeWhile isWordPart, isWordPart part = true :=
    List.all_eq_true.mp List.all_takeWhile
  refine .token_of_append (.word starts parts) (cutWord_text first chars)
    (not_opensComment_of_head (by simp [head])) ?_
  intro other token leads
  obtain ⟨others, kind, literal, rfl, leads, byHead⟩ := byHead_of_prefix token leads
  cases byHead with
  | word _ _ rivalParts => exact Nat.succ_le_succ (length_le_takeWhile rivalParts leads)
  | _ => simp_all

private theorem cutString_leads : (cutString chars).1.Leads ('"' :: chars) (cutString chars).2 := by
  have head : Head.of '"' = .quote := by decide
  have whole := List.takeWhile_append_dropWhile (p := (· != '"')) (l := chars)
  have inside := not_mem_takeWhile_ne '"' chars
  rcases dropWhile_ne_cases '"' chars with left | ⟨rest, left⟩
  · rw [left, List.append_nil] at whole
    rw [whole] at inside
    simp only [cutString, left, whole]
    exact .openString inside
  · simp only [cutString, left]
    refine .token_of_append (.string inside) ?_ (not_opensComment_of_head (by simp [head])) ?_
    · rw [left] at whole
      simpa using whole
    · intro other token leads
      obtain ⟨others, kind, literal, rfl, leads, byHead⟩ := byHead_of_prefix token leads
      cases byHead with
      | @quote body _ closed rivalInside =>
        have different : ∀ c ∈ body, (c != '"') = true := by
          intro c member
          simpa using fun same : c = '"' => rivalInside (same ▸ member)
        have front : body <+: chars := by
          rw [closed] at leads
          exact (List.prefix_append body ['"']).trans leads
        have bound := length_le_takeWhile different front
        simp only [closed, List.length_cons, List.length_append]
        omega
      | _ => simp_all

private theorem cutLineComment_leads :
    (cutLineComment chars).1.Leads ('/' :: '/' :: chars) (cutLineComment chars).2 := by
  have ends : chars.dropWhile (· != '\n') = [] ∨ ['\n'] <+: chars.dropWhile (· != '\n') := by
    rcases dropWhile_ne_cases '\n' chars with left | ⟨rest, left⟩
    · exact .inl left
    · rw [left]
      exact .inr (List.prefix_append ['\n'] rest)
  have leads := Leads.lineComment (not_mem_takeWhile_ne '\n' chars) ends
  rw [List.takeWhile_append_dropWhile] at leads
  exact leads

private theorem cutBlockComment_leads :
    (cutBlockComment chars).1.Leads ('/' :: '*' :: chars) (cutBlockComment chars).2 := by
  by_cases closed : ∃ body, CommentBody body ∧ body <+: chars
  · obtain ⟨body, grammar, rest, rfl⟩ := closed
    rw [cutBlockComment_of_body grammar]
    exact Leads.blockComment ⟨body, rfl, grammar⟩
  · rw [cutBlockComment_of_none closed]
    refine .openComment ?_
    rintro ⟨_, ⟨body, rfl, grammar⟩, rest, same⟩
    refine closed ⟨body, grammar, rest, ?_⟩
    simpa using same

/-- Without a pair of characters that is an operator, a mark has one character. -/
theorem mark_eq_nil_of_noPair {others : List Char} {kind : Kind}
    (noPair : ∀ second rest, chars = second :: rest → Kind.ofPair? first second = none)
    (spelled : kind.mark? = some (first :: others)) (leads : others <+: chars) : others = [] := by
  rcases Kind.mark?_shape spelled with ⟨c, same⟩ | ⟨c, second, same⟩
  · exact (List.cons.inj same).2
  · obtain ⟨rfl, rfl⟩ := List.cons.inj same
    obtain ⟨rest, rfl⟩ := leads
    have known := (Kind.ofPair?_eq_some_iff first second kind).mpr spelled
    rw [noPair second rest rfl] at known
    cases known

theorem cutMark_of_noPair
    (noPair : ∀ second rest, chars = second :: rest → Kind.ofPair? first second = none) :
    cutMark first chars = match Kind.ofChar? first with
      | some kind => (token kind [first] none, chars)
      | none => (stray first, chars) := by
  cases chars with
  | nil => rfl
  | cons second rest =>
    have unknown := noPair second rest rfl
    cases known : Kind.ofChar? first <;> simp [cutMark, unknown, known]

private theorem cutMark_leads_of_pair {second : Char} {rest : List Char} {kind : Kind}
    (noComment : ¬ OpensComment (first :: second :: rest)) (head : Head.of first = .mark)
    (known : Kind.ofPair? first second = some kind) :
    (cutMark first (second :: rest)).1.Leads (first :: second :: rest)
      (cutMark first (second :: rest)).2 := by
  simp only [cutMark, known]
  refine .token_of_append (.mark ((Kind.ofPair?_eq_some_iff _ _ _).mp known)) rfl noComment ?_
  intro other token leads
  obtain ⟨others, kind, literal, rfl, _, byHead⟩ := byHead_of_prefix token leads
  cases byHead with
  | mark _ spelled =>
    rcases Kind.mark?_shape spelled with ⟨c, same⟩ | ⟨c, d, same⟩ <;> simp [same]
  | _ => simp_all

private theorem cutMark_leads_of_noPair (noComment : ¬ OpensComment (first :: chars))
    (head : Head.of first = .mark) (notBlank : isBlank first = false)
    (noPair : ∀ second rest, chars = second :: rest → Kind.ofPair? first second = none) :
    (cutMark first chars).1.Leads (first :: chars) (cutMark first chars).2 := by
  rw [cutMark_of_noPair noPair]
  cases known : Kind.ofChar? first with
  | some kind =>
    refine .token_of_append (.mark ((Kind.ofChar?_eq_some_iff _ _).mp known)) rfl noComment ?_
    intro other token leads
    obtain ⟨others, kind, literal, rfl, leads, byHead⟩ := byHead_of_prefix token leads
    cases byHead with
    | mark _ spelled =>
      have single := mark_eq_nil_of_noPair noPair spelled leads
      simp [single]
    | _ => simp_all
  | none =>
    have notQuote : first ≠ '"' := by
      rintro rfl
      revert head
      decide
    refine .stray notBlank notQuote ?_
    intro other token leads
    obtain ⟨others, kind, literal, rfl, leads, byHead⟩ := byHead_of_prefix token leads
    cases byHead with
    | mark _ spelled =>
      rw [mark_eq_nil_of_noPair noPair spelled leads] at spelled
      rw [(Kind.ofChar?_eq_some_iff first kind).mpr spelled] at known
      cases known
    | _ => simp_all

private theorem cutMark_leads (noComment : ¬ OpensComment (first :: chars))
    (head : Head.of first = .mark) (notBlank : isBlank first = false) :
    (cutMark first chars).1.Leads (first :: chars) (cutMark first chars).2 := by
  -- An operator of two characters is taken before the mark that is its first character.
  by_cases pair : ∃ second rest kind, chars = second :: rest ∧
      Kind.ofPair? first second = some kind
  · obtain ⟨second, rest, kind, rfl, known⟩ := pair
    exact cutMark_leads_of_pair noComment head known
  · refine cutMark_leads_of_noPair noComment head notBlank ?_
    intro second rest shown
    rw [Option.eq_none_iff_forall_ne_some]
    intro kind known
    exact pair ⟨second, rest, kind, shown, known⟩

/-- Cutting a text follows the lexical grammar. -/
theorem cut_leads (first : Char) (chars : List Char) :
    (cut first chars).1.Leads (first :: chars) (cut first chars).2 := by
  simp only [cut]
  split
  · next blank => exact .blank blank
  split
  · next digit => exact cutNumber_leads digit
  split
  · next starts => exact cutWord_leads starts
  · next notBlank notDigit notWord =>
    split
    · exact cutString_leads
    · exact cutLineComment_leads
    · exact cutBlockComment_leads
    · next notQuote notLine notBlock =>
      have noComment : ¬ OpensComment (first :: chars) := by
        rintro (⟨rest, shown⟩ | ⟨rest, shown⟩)
        · obtain ⟨rfl, rfl⟩ := List.cons.inj shown
          exact notLine rest rfl rfl
        · obtain ⟨rfl, rfl⟩ := List.cons.inj shown
          exact notBlock rest rfl rfl
      have head : Head.of first = .mark := by
        have unquoted : first ≠ '"' := fun quote => notQuote quote
        simp [Head.of, notDigit, notWord, unquoted]
      exact cutMark_leads noComment head (Bool.eq_false_iff.mpr notBlank)

end Cut

section Unique

variable {piece : Piece} {kind other : Kind} {literal value : Option Literal}
  {first c : Char} {chars text front rest after : List Char}

/-- Where a token begins and no comment does, the piece is a token. -/
theorem Leads.isToken (leads : piece.Leads chars rest) (token : IsLexeme text)
    (begins : text <+: chars) (noComment : ¬ OpensComment chars) :
    ∃ kind literal front, piece = .token kind literal front := by
  cases leads with
  | lineComment => exact absurd (.inl (List.prefix_append _ _)) noComment
  | blockComment closed =>
    obtain ⟨body, rfl, _⟩ := closed
    exact absurd (.inr (List.prefix_append _ _)) noComment
  | openComment => exact absurd (.inr (List.prefix_append _ _)) noComment
  | token => exact ⟨_, _, _, rfl⟩
  | blank blank =>
    have head := Head.of_isBlank blank
    obtain ⟨others, kind, literal, rfl, _, byHead⟩ := byHead_of_prefix token begins
    cases byHead with
    | mark _ spelled => simp [(Head.of_mark? spelled).2] at blank
    | _ => simp_all
  | @openString body inside =>
    have head : Head.of '"' = .quote := by decide
    obtain ⟨others, kind, literal, rfl, within, byHead⟩ := byHead_of_prefix token begins
    cases byHead with
    | quote _ closed =>
      rw [closed] at within
      exact absurd (within.mem (List.mem_append_right _ (List.mem_singleton_self _))) inside
    | _ => simp_all
  | stray _ _ noToken => exact absurd begins (noToken text token)

private theorem Leads.token_inv (leads : (Piece.token kind text literal).Leads chars rest) :
    Lexeme kind literal text ∧ text ++ rest = chars ∧
      ∀ other, IsLexeme other → other <+: chars → other.length ≤ text.length := by
  cases leads with
  | token lexeme _ longest => exact ⟨lexeme, rfl, longest⟩

/-- Of two longest tokens at the front neither is longer, so they are one. -/
theorem Leads.token_unique (leads : (Piece.token kind text literal).Leads chars rest)
    (rival : (Piece.token other front value).Leads chars after) :
    kind = other ∧ text = front ∧ literal = value ∧ rest = after := by
  obtain ⟨lexeme, whole, longest⟩ := leads.token_inv
  obtain ⟨rivalLexeme, rivalWhole, rivalLongest⟩ := rival.token_inv
  have shorter := rivalLongest text ⟨kind, literal, lexeme⟩ ⟨rest, whole⟩
  have longer := longest front ⟨other, value, rivalLexeme⟩ ⟨after, rivalWhole⟩
  have sameLength := Nat.le_antisymm shorter longer
  obtain ⟨rfl, rfl⟩ := List.append_inj (whole.trans rivalWhole.symm) sameLength
  obtain ⟨sameKind, sameValue⟩ := lexeme.unique rivalLexeme
  exact ⟨sameKind, rfl, sameValue, rfl⟩

/-- Where no token and no string begins and no blank stands, the piece is the character there. -/
theorem Leads.stray_unique (leads : piece.Leads (first :: chars) rest)
    (notBlank : isBlank first = false) (notQuote : first ≠ '"')
    (noToken : ∀ text, IsLexeme text → ¬ text <+: first :: chars) :
    piece = .stray first ∧ rest = chars := by
  have slash : IsLexeme ['/'] := ⟨.slash, none, .mark rfl⟩
  generalize whole : first :: chars = text at leads noToken
  cases leads with
  | lineComment => exact absurd (List.prefix_append ['/'] _) (noToken _ slash)
  | blockComment closed =>
    obtain ⟨body, rfl, _⟩ := closed
    exact absurd (List.prefix_append ['/'] _) (noToken _ slash)
  | openComment => exact absurd (List.prefix_append ['/'] _) (noToken _ slash)
  | token lexeme => exact absurd (List.prefix_append _ _) (noToken _ ⟨_, _, lexeme⟩)
  | blank blank =>
    obtain ⟨rfl, rfl⟩ := List.cons.inj whole
    rw [blank] at notBlank
    cases notBlank
  | openString => exact absurd (List.cons.inj whole).1 notQuote
  | stray =>
    obtain ⟨rfl, rfl⟩ := List.cons.inj whole
    exact ⟨rfl, rfl⟩

private theorem cut_lineComment (inside : '\n' ∉ front) (ends : rest = [] ∨ ['\n'] <+: rest) :
    cut '/' ('/' :: (front ++ rest)) = (.comment ('/' :: '/' :: front), rest) := by
  obtain ⟨taken, left⟩ := takeWhile_ne_append inside ends
  have shown : cut '/' ('/' :: (front ++ rest)) = cutLineComment (front ++ rest) := rfl
  rw [shown, cutLineComment, taken, left]

private theorem cut_openString (inside : '"' ∉ front) :
    cut '"' front = (.openString ('"' :: front), []) := by
  obtain ⟨taken, left⟩ := takeWhile_ne_append inside (.inl rfl)
  rw [List.append_nil] at taken left
  have shown : cut '"' front = cutString front := rfl
  rw [shown, cutString, taken, left]

/-- The lexical grammar leaves no choice: a text has one piece at its front, the one that is cut. -/
theorem cut_eq_of_leads (leads : piece.Leads (first :: chars) rest) :
    cut first chars = (piece, rest) := by
  generalize whole : first :: chars = text at leads
  have own := cut_leads first chars
  rw [whole] at own
  cases leads with
  | lineComment inside ends =>
    obtain ⟨rfl, rfl⟩ := List.cons.inj whole
    exact cut_lineComment inside ends
  | blockComment closed =>
    obtain ⟨body, rfl, grammar⟩ := closed
    obtain ⟨rfl, rfl⟩ := List.cons.inj whole
    exact cutBlockComment_of_body grammar
  | openComment unclosed =>
    obtain ⟨rfl, rfl⟩ := List.cons.inj whole
    refine cutBlockComment_of_none ?_
    rintro ⟨body, grammar, within⟩
    exact unclosed ⟨_, ⟨body, rfl, grammar⟩, (List.prefix_append_right_inj ['/', '*']).mpr within⟩
  | token lexeme noComment longest =>
    obtain ⟨ownKind, ownLiteral, front, shown⟩ :=
      own.isToken ⟨_, _, lexeme⟩ (List.prefix_append _ _) noComment
    rw [shown] at own
    obtain ⟨rfl, rfl, rfl, same⟩ := own.token_unique (.token lexeme noComment longest)
    exact Prod.ext shown same
  | blank blank =>
    obtain ⟨rfl, rfl⟩ := List.cons.inj whole
    exact if_pos blank
  | openString inside =>
    obtain ⟨rfl, rfl⟩ := List.cons.inj whole
    exact cut_openString inside
  | @stray c behind notBlank notQuote noToken =>
    obtain ⟨rfl, rfl⟩ := List.cons.inj whole
    obtain ⟨samePiece, sameRest⟩ := own.stray_unique notBlank notQuote noToken
    exact Prod.ext samePiece sameRest

/-- Cutting is the lexical grammar. -/
theorem cut_eq_iff_leads : cut first chars = (piece, rest) ↔ piece.Leads (first :: chars) rest := by
  constructor
  · intro taken
    have leads := cut_leads first chars
    rwa [taken] at leads
  · exact cut_eq_of_leads

end Unique

end Piece

namespace Scanner

variable {scanner : Scanner}

/-- An unfinished scanner passes over the piece before it, and hands out the token if it is one. -/
theorem next_of_leads {piece : Piece} {rest : List Char} (unfinished : scanner.finished = false)
    (leads : piece.Leads scanner.rest rest) :
    scanner.next = match piece.token? scanner.line with
      | some token => (some token, scanner.pass piece rest)
      | none => (scanner.pass piece rest).next := by
  rw [Scanner.next, unfinished, if_neg Bool.false_ne_true]
  split
  · next ahead => exact absurd ahead leads.ne_nil
  · next first chars ahead =>
    rw [ahead, ← Piece.cut_eq_iff_leads] at leads
    split
    next taken =>
    obtain ⟨rfl, rfl⟩ := Prod.mk.inj (leads.symm.trans taken)
    rfl

/-- At the end of the text an unfinished scanner hands out the end marker. -/
theorem next_of_end (unfinished : scanner.finished = false) (ended : scanner.rest = []) :
    scanner.next = (some (.eof scanner.line), { scanner with finished := true }) := by
  rw [Scanner.next, unfinished, if_neg Bool.false_ne_true]
  split
  · rfl
  · next ahead => simp [ended] at ahead

theorem next_of_finished (finished : scanner.finished = true) : scanner.next = (none, scanner) := by
  rw [Scanner.next, if_pos finished]

/-- Whatever text is before a scanner, the lexical grammar puts one piece at its front, and this is
the piece that the scanner takes: a token is handed out, all else is passed over. -/
theorem next_takes_longest (unfinished : scanner.finished = false) (more : scanner.rest ≠ []) :
    ∃ piece rest, piece.Leads scanner.rest rest ∧
      (∀ other after, other.Leads scanner.rest after → other = piece ∧ after = rest) ∧
      scanner.next = match piece.token? scanner.line with
        | some token => (some token, scanner.pass piece rest)
        | none => (scanner.pass piece rest).next := by
  obtain ⟨first, chars, ahead⟩ := List.exists_cons_of_ne_nil more
  have leads := Piece.cut_leads first chars
  rw [← ahead] at leads
  refine ⟨_, _, leads, ?_, next_of_leads unfinished leads⟩
  intro other after rival
  rw [ahead, ← Piece.cut_eq_iff_leads] at rival
  rw [rival]
  exact ⟨rfl, rfl⟩

/-- A point with no digit behind it is not part of a number, though the null character follows. -/
theorem next_takes_longest_numeral :
    (ofSource "3.\x00").finished = false ∧ (ofSource "3.\x00").rest ≠ [] ∧
      (ofSource "3.\x00").next.1 =
        some ⟨.number, "3", some (.number (.ofDecimal false 3 0)), 1⟩ := by
  have more : (ofSource "3.\x00").rest ≠ [] := by decide
  obtain ⟨piece, rest, leads, unique, step⟩ := @next_takes_longest (ofSource "3.\x00") rfl more
  have taken : Piece.cut '3' ['.', '\x00'] =
      (.token .number ['3'] (some (.number (.ofDecimal false 3 0))), ['.', '\x00']) := by rfl
  obtain ⟨rfl, rfl⟩ := unique _ _ (Piece.cut_eq_iff_leads.mp taken)
  refine ⟨rfl, more, ?_⟩
  rw [step]
  rfl

end Scanner
end LoxSyntax
