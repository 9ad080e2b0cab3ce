import LoxSyntax.Proofs.Scan.Layout

/-! # Tokens with separators between them

A separator is a blank and any blanks and complete comments behind it. No token goes on with a
blank, so tokens of any sources, written with separators between them, scan back to themselves, and
so do the tokens of one source with single spaces between them, whatever faults that source has.
-/

namespace LoxSyntax

/-- A blank, and any blanks and complete comments behind it. -/
def IsSeparator (gap : List Char) : Prop :=
  ∃ c rest, gap = c :: rest ∧ isBlank c = true ∧ Spacing rest

/-- The token is among those that some source scans to, on whatever line, and no end marker. -/
structure Token.IsEmitted (token : Token) : Prop where
  notEof : token.kind ≠ .eof
  emitted : ∃ source, ∃ other ∈ (Scan.ofSource source).tokens, other.lineless = token.lineless

/-- Each token is written with a separator before the next one, and the last one with nothing or one
more separator behind it. -/
structure Separated (written : List WrittenToken) : Prop where
  emitted : ∀ entry ∈ written, entry.token.IsEmitted
  between : written.IsChain fun entry _ => IsSeparator entry.gap
  behind : ∀ last ∈ written.getLast?, last.gap = [] ∨ IsSeparator last.gap

theorem Token.IsEmitted.isScanned {token : Token} (emitted : token.IsEmitted) :
    token.IsScanned := by
  obtain ⟨notEof, source, other, member, same⟩ := emitted
  obtain ⟨lexemes, line, tokens, scanned⟩ := Scan.exists_lexemes source
  have notMarker : other.kind ≠ .eof := by
    rwa [Token.kind_eq_of_lineless same]
  rw [tokens] at member
  rcases List.mem_append.mp member with member | member
  · have lineless : other.lineless.IsScanned := scanned other member
    rw [same] at lineless
    exact lineless
  · obtain rfl := List.mem_singleton.mp member
    exact absurd rfl notMarker

private theorem WrittenToken.Readable.of_isSeparator {entry : WrittenToken}
    (scanned : entry.token.IsScanned) (separator : IsSeparator entry.gap) : entry.Readable := by
  obtain ⟨c, rest, gap, blank, spacing⟩ := separator
  constructor
  case scanned => exact scanned
  case skips =>
    rw [gap]
    exact (Spacing.blank blank spacing).skips
  case ends =>
    rw [gap]
    rintro _ ⟨⟩
    exact Kind.goesOn_of_isBlank blank _

/-- A token stands alone: its lexeme scans to it. -/
theorem Token.IsScanned.readsAs {token : Token} (scanned : token.IsScanned) :
    ReadsAs token.lexeme [token] := by
  have readable : WrittenToken.Readable ⟨token, []⟩ := .of_isBlankGap scanned (by simp [IsBlankGap])
  have text : token.lexeme.toList = layOut [] [⟨token, []⟩] := by simp [layOut]
  exact readsAs_layOut Spacing.nil.skips (by simpa using readable) (.singleton _) text

theorem Token.isEmitted_iff_isScanned (token : Token) : token.IsEmitted ↔ token.IsScanned := by
  refine ⟨IsEmitted.isScanned, fun scanned => ⟨Lexeme.ne_eof scanned, ?_⟩⟩
  obtain ⟨_, lexemes, line, tokens, same⟩ := scanned.readsAs
  obtain ⟨other, rfl⟩ : ∃ other, lexemes = [other] :=
    List.length_eq_one_iff.mp (by simpa using congrArg List.length same)
  exact ⟨token.lexeme, other, by simp [tokens], by simpa using same⟩

namespace Separated

variable {written : List WrittenToken}

theorem gap (separated : Separated written) :
    ∀ entry ∈ written, entry.gap = [] ∨ IsSeparator entry.gap := by
  intro entry member
  obtain ⟨before, behind, split⟩ := List.append_of_mem member
  cases behind with
  | nil => exact separated.behind entry (by simp [split])
  | cons next behind =>
    have between := List.isChain_iff_forall_rel_of_append_cons_cons.mp separated.between
    exact .inr (between split)

theorem readable (separated : Separated written) : ∀ entry ∈ written, entry.Readable := by
  intro entry member
  have scanned := (separated.emitted entry member).isScanned
  rcases separated.gap entry member with empty | separator
  · exact .of_isBlankGap scanned (by simp [empty, IsBlankGap])
  · exact .of_isSeparator scanned separator

theorem apart (separated : Separated written) : written.IsChain WrittenToken.Apart := by
  refine separated.between.imp ?_
  rintro entry next ⟨c, rest, gap, _, _⟩ empty
  rw [gap] at empty
  cases empty

theorem readsAs {source : String} (separated : Separated written)
    (text : source.toList = layOut [] written) : ReadsAs source (written.map (·.token)) :=
  readsAs_layOut Spacing.nil.skips separated.readable separated.apart text

end Separated

/-- The tokens with single spaces between them, and `last` behind the last one. -/
def spaced (last : List Char) : List Token → List WrittenToken
  | [] => []
  | [token] => [⟨token, last⟩]
  | token :: next :: tokens => ⟨token, [' ']⟩ :: spaced last (next :: tokens)

section Spaced

variable {last : List Char} {tokens : List Token}

theorem map_token_spaced (last : List Char) (tokens : List Token) :
    (spaced last tokens).map (·.token) = tokens := by
  fun_induction spaced last tokens with
  | case1 => rfl
  | case2 => rfl
  | case3 token next tokens ih => rw [List.map_cons, ih]

private theorem gap_of_mem_getLast?_spaced :
    ∀ entry ∈ (spaced last tokens).getLast?, entry.gap = last := by
  fun_induction spaced last tokens with
  | case1 => simp
  | case2 token => simp
  | case3 token next tokens ih =>
    have nonempty : spaced last (next :: tokens) ≠ [] := by
      intro empty
      have none := map_token_spaced last (next :: tokens)
      rw [empty] at none
      cases none
    rwa [List.getLast?_cons_of_ne_nil nonempty]

theorem isSeparator_space : IsSeparator [' '] := ⟨' ', [], rfl, rfl, .nil⟩

theorem separated_spaced (scanned : ∀ token ∈ tokens, token.IsScanned)
    (behind : last = [] ∨ IsSeparator last) : Separated (spaced last tokens) where
  emitted := by
    rw [← map_token_spaced last tokens, List.forall_mem_map] at scanned
    intro entry member
    exact (Token.isEmitted_iff_isScanned entry.token).mpr (scanned entry member)
  between := by
    clear scanned
    fun_induction spaced last tokens with
    | case1 => exact .nil
    | case2 token => exact .singleton _
    | case3 token next tokens ih =>
      exact List.isChain_cons.mpr ⟨fun _ _ => isSeparator_space, ih⟩
  behind := by
    intro entry member
    rwa [gap_of_mem_getLast?_spaced entry member]

private theorem layOut_eq_append (front : List Char) (written : List WrittenToken) :
    layOut front written = front ++ layOut [] written := rfl

theorem layOut_spaced (tokens : List Token) :
    layOut [] (spaced [] tokens) = (" ".intercalate (tokens.map Token.lexeme)).toList := by
  rw [String.toList_intercalate, List.map_map]
  induction tokens using spaced.induct with
  | case1 => rfl
  | case2 token => simp [spaced, layOut]
  | case3 token next tokens ih =>
    rw [spaced, layOut_cons, layOut_eq_append, ih]
    simp

/-- The empty lexeme of an end marker leaves a space behind the last token. -/
theorem layOut_spaced_eof (tokens : List Token) (line : Nat) :
    layOut [] (spaced [' '] tokens) =
      (" ".intercalate ((tokens ++ [Token.eof line]).map Token.lexeme)).toList := by
  rw [String.toList_intercalate, List.map_map]
  induction tokens using spaced.induct with
  | case1 => rfl
  | case2 token => simp [spaced, layOut, Token.eof, Token.plain]
  | case3 token next tokens ih =>
    rw [spaced, layOut_cons, layOut_eq_append, ih]
    simp

end Spaced

namespace Scan

/-- Tokens of any sources, written with separators between them, scan to themselves and an end
marker, without a fault. So do the tokens of any one source with single spaces between them, whether
the empty lexeme of the end marker is written behind them or not. -/
theorem ofSource_separated :
    (∀ (source : String) (written : List WrittenToken), Separated written →
      source.toList = layOut [] written → ReadsAs source (written.map (·.token))) ∧
    ∀ source : String, ∃ lexemes line, (ofSource source).tokens = lexemes ++ [.eof line] ∧
      ReadsAs (" ".intercalate (lexemes.map Token.lexeme)) lexemes ∧
      ReadsAs (" ".intercalate ((ofSource source).tokens.map Token.lexeme)) lexemes := by
  refine ⟨fun source written separated text => separated.readsAs text, fun source => ?_⟩
  obtain ⟨lexemes, line, tokens, scanned⟩ := exists_lexemes source
  have bare := (separated_spaced scanned (.inl rfl)).readsAs (layOut_spaced lexemes).symm
  have marked := (separated_spaced scanned (.inr isSeparator_space)).readsAs
    (layOut_spaced_eof lexemes line).symm
  rw [map_token_spaced] at bare marked
  rw [tokens]
  exact ⟨lexemes, line, rfl, bare, marked⟩

/-- Tokens that would run into one another, with a line comment and a nested comment among the
separators. -/
def keptApart : List WrittenToken :=
  [⟨.plain .bang "!" 1, [' ']⟩, ⟨.plain .equal "=" 1, " //=\n".toList⟩,
    ⟨.plain .identifier "a" 2, "\n/*/**/*/".toList⟩, ⟨.plain .minus "-" 3, []⟩]

private theorem separated_keptApart : Separated keptApart where
  emitted := by
    simp only [keptApart, List.forall_mem_cons, List.not_mem_nil, false_implies, implies_true,
      and_true, Token.isEmitted_iff_isScanned]
    have free : ∀ word : Keyword, word.text.toList ≠ ['a'] := by
      intro word
      cases word <;> decide
    exact ⟨.mark rfl, .mark rfl, .identifier rfl (by simp) free, .mark rfl⟩
  between := by
    have nested : BlockComment "/*/**/*/".toList := ⟨_, rfl, .nested .close .close⟩
    have lineComment : Spacing "//=\n".toList := @Spacing.lineComment ['='] [] (by decide) .nil
    have blockComment : Spacing "/*/**/*/".toList := .blockComment nested .nil
    exact .cons_cons ⟨_, _, rfl, rfl, .nil⟩ (.cons_cons ⟨_, _, rfl, rfl, lineComment⟩
      (.cons_cons ⟨_, _, rfl, rfl, blockComment⟩ (.singleton _)))
  behind := by
    rintro _ ⟨⟩
    exact .inl rfl

theorem ofSource_separated_keptApart :
    Separated keptApart ∧ "! = //=\na\n/*/**/*/-".toList = layOut [] keptApart ∧
      ReadsAs "! = //=\na\n/*/**/*/-" (keptApart.map (·.token)) := by
  have text : "! = //=\na\n/*/**/*/-".toList = layOut [] keptApart := by decide
  exact ⟨separated_keptApart, text, ofSource_separated.1 _ _ separated_keptApart text⟩

end Scan
end LoxSyntax
