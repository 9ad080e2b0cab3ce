import LoxSyntax.Proofs.Scan.Boundary
import LoxSyntax.Proofs.Scan.Line

/-! # Scanning by lines

A newline ends whatever may end before it: no piece but a string or a comment that is never closed
reads on over the end of its text when a newline follows there. So a source can be cut at any
newline behind which nothing is open, and its parts scanned alone; the second part is only further
down.
-/

namespace LoxSyntax

/-- The same token further down. -/
def Token.movedDown (lines : Nat) (token : Token) : Token :=
  { token with line := token.line + lines }

/-- The same fault further down. -/
def Fault.movedDown (lines : Nat) : Fault → Fault
  | unterminatedString line => unterminatedString (line + lines)
  | unterminatedComment line => unterminatedComment (line + lines)
  | unexpectedCharacter line character => unexpectedCharacter (line + lines) character
  | invalidNumber line lexeme => invalidNumber (line + lines) lexeme
  | badSyntax line location reason => badSyntax (line + lines) location reason

/-- What stands at the front of a text before a newline ends within the text, or holds the newline
and all before it. -/
private theorem prefix_or_prefix_of_newline {front text more : List Char}
    (begins : front <+: text ++ '\n' :: more) : front <+: text ∨ text ++ ['\n'] <+: front := by
  have split : text ++ '\n' :: more = text ++ ['\n'] ++ more := by simp
  rw [split] at begins
  rcases List.prefix_or_prefix_of_prefix begins (List.prefix_append _ _) with within | beyond
  · rcases List.prefix_concat_iff.mp within with rfl | within
    · exact .inr (List.prefix_refl _)
    · exact .inl within
  · exact .inr beyond

/-- Only a string can hold a newline. -/
private theorem Lexeme.head_of_newline {kind : Kind} {literal : Option Literal} {first : Char}
    {others : List Char} (lexeme : Lexeme kind literal (first :: others))
    (newline : '\n' ∈ first :: others) : Head.of first = .quote := by
  cases lexeme.byHead with
  | quote head => exact head
  | digit _ numeral =>
    exact absurd (numeral.isDigit_or_eq_point _ newline) (by decide)
  | word _ starts parts =>
    rcases List.mem_cons.mp newline with rfl | newline
    · exact absurd starts (by decide)
    · exact absurd (parts _ newline) (by decide)
  | mark _ spelled =>
    exfalso
    revert newline
    cases kind <;> cases spelled <;> decide

private theorem Head.eq_quote {c : Char} (quote : Head.of c = .quote) : c = '"' := by
  unfold Head.of at quote
  split at quote
  · cases quote
  split at quote
  · cases quote
  split at quote
  · assumption
  · cases quote

namespace Piece

variable {piece : Piece} {text rest more : List Char} {pieces : List Piece}

private theorem OpensComment.of_newline (opens : OpensComment (text ++ '\n' :: more)) :
    OpensComment text := by
  have within {front : List Char} (noNewline : '\n' ∉ front)
      (begins : front <+: text ++ '\n' :: more) : front <+: text := by
    refine (prefix_or_prefix_of_newline begins).resolve_right ?_
    intro beyond
    exact noNewline (beyond.mem (List.mem_append_right _ (List.mem_singleton_self _)))
  rcases opens with opens | opens
  · exact .inl (within (by decide) opens)
  · exact .inr (within (by decide) opens)

/-- Unless a string begins there, no token at the front of a text reads on over a newline. -/
private theorem prefix_of_newline {first : Char} {chars front : List Char}
    (notQuote : Head.of first ≠ .quote) (token : IsLexeme front)
    (begins : front <+: first :: chars ++ '\n' :: more) : front <+: first :: chars := by
  refine (prefix_or_prefix_of_newline begins).resolve_right ?_
  rintro ⟨tail, rfl⟩
  obtain ⟨kind, literal, lexeme⟩ := token
  exact notQuote (lexeme.head_of_newline (by simp))

/-- Whatever is closed ends where it did when a newline follows the text. -/
private theorem Leads.before_newline (leads : piece.Leads text rest)
    (closed : piece.isUnclosed = false)
    (more : List Char) : piece.Leads (text ++ '\n' :: more) (rest ++ '\n' :: more) := by
  cases leads with
  | @lineComment body rest inside ends =>
    have endsLonger : rest ++ '\n' :: more = [] ∨ ['\n'] <+: rest ++ '\n' :: more := by
      rcases ends with rfl | begins
      · exact .inr (List.prefix_append ['\n'] more)
      · exact .inr (begins.trans (List.prefix_append _ _))
    have longer := Leads.lineComment inside endsLonger
    rwa [← List.append_assoc] at longer
  | blockComment comment =>
    rw [List.append_assoc]
    exact .blockComment comment
  | openComment => cases closed
  | @token kind literal text rest lexeme noComment longest =>
    rw [List.append_assoc]
    match text, lexeme.ne_nil with
    | first :: others, _ =>
      by_cases quote : Head.of first = .quote
      -- A string ends at its second quote, whatever follows.
      · cases lexeme.byHead with
        | quote => exact lexeme.leads fun _ _ => rfl
        | _ => simp_all
      · refine .token_of_append lexeme rfl ?_ ?_
        · rw [← List.append_assoc]
          exact fun opens => noComment opens.of_newline
        · rw [← List.append_assoc]
          intro other token begins
          exact longest other token (prefix_of_newline quote token begins)
  | blank blank => exact .blank blank
  | openString => cases closed
  | @stray c rest notBlank notQuote noToken =>
    refine .stray notBlank notQuote ?_
    intro other token begins
    have head : Head.of c ≠ .quote := fun quote => notQuote (Head.eq_quote quote)
    exact noToken other token (prefix_of_newline head token begins)

/-- The pieces of two texts with a newline between them are the pieces of each, if the first leaves
nothing open. -/
theorem Splits.append_newline {others : List Piece} (splits : Splits text pieces)
    (closed : ∀ piece ∈ pieces, piece.isUnclosed = false) (behind : Splits more others) :
    Splits (text ++ '\n' :: more) (pieces ++ .blank '\n' :: others) := by
  induction splits with
  | nil => exact .cons (.blank (by decide)) behind
  | cons leads _ ih =>
    obtain ⟨first, closed⟩ := List.forall_mem_cons.mp closed
    exact .cons (leads.before_newline first more) (ih closed)

/-- Pieces further down give the same further down. -/
private theorem collect_movedDown {α : Type} {give : Nat → Piece → Option α} {move : α → α}
    {lines : Nat}
    (moves : ∀ line piece, give (line + lines) piece = (give line piece).map move) (line : Nat)
    (pieces : List Piece) :
    collect give (line + lines) pieces = (collect give line pieces).map move := by
  induction pieces generalizing line with
  | nil => rfl
  | cons piece pieces ih =>
    rw [collect, collect, moves, Nat.add_right_comm, ih, List.map_append]
    cases give line piece <;> rfl

private theorem token?_movedDown (lines line : Nat) (piece : Piece) :
    piece.token? (line + lines) = (piece.token? line).map (.movedDown lines) := by
  cases piece <;> rfl

private theorem fault?_movedDown (lines line : Nat) (piece : Piece) :
    piece.fault? (line + lines) = (piece.fault? line).map (.movedDown lines) := by
  cases piece <;> simp [fault?, Fault.movedDown, Nat.add_right_comm]

private theorem Leads.closed_of_terminated {line : Nat} (leads : piece.Leads text rest)
    (terminated : ∀ fault ∈ piece.fault? line, fault.isUnterminated = false) :
    piece.isUnclosed = false := by
  rcases leads.reports line with ⟨_, fault, given, reports⟩ | ⟨sound, _⟩
  · rw [← reports.isUnterminated_eq]
    exact terminated fault given
  · cases piece <;> first | rfl | cases sound

/-- A text without an unterminated fault leaves nothing open. -/
theorem Splits.closed_of_terminated {line : Nat} (splits : Splits text pieces)
    (terminated : ∀ fault ∈ collect fault? line pieces, fault.isUnterminated = false) :
    ∀ piece ∈ pieces, piece.isUnclosed = false := by
  induction splits generalizing line with
  | nil => simp
  | cons leads _ ih =>
    obtain ⟨first, others⟩ := List.forall_mem_append.mp terminated
    have closed := leads.closed_of_terminated fun fault given =>
      first fault (Option.mem_toList.mpr given)
    exact List.forall_mem_cons.mpr ⟨closed, ih others⟩

/-- What a text and a second one below it give: each gives its own, the second further down. -/
theorem collect_append_newline {α : Type} {give : Nat → Piece → Option α} {move : α → α}
    (blank : ∀ line, give line (.blank '\n') = none)
    (moves : ∀ line piece, give (line + (text.count '\n' + 1)) piece = (give line piece).map move)
    (splits : Splits text pieces) (line : Nat) (others : List Piece) :
    collect give line (pieces ++ .blank '\n' :: others) =
      collect give line pieces ++ (collect give line others).map move := by
  have below : line + text.count '\n' + (Piece.blank '\n').text.count '\n' =
      line + (text.count '\n' + 1) := Nat.add_assoc _ _ _
  rw [collect_append, splits.flatMap_text, collect, blank, below, collect_movedDown moves]
  rfl

end Piece

namespace Scan

/-- Two sources with a newline between them scan to what the first scans to, but for its end marker,
and behind it to what the second scans to, moved down below the first. -/
theorem ofSource_append_newline (first second : String)
    (terminated : ∀ fault ∈ (ofSource first).faults, fault.isUnterminated = false) :
    ∃ lexemes line, (ofSource first).tokens = lexemes ++ [.eof line] ∧
      (ofSource (first ++ "\n" ++ second)).tokens =
        lexemes ++ (ofSource second).tokens.map (.movedDown (first.toList.count '\n' + 1)) ∧
      (ofSource (first ++ "\n" ++ second)).faults =
        (ofSource first).faults ++
          (ofSource second).faults.map (.movedDown (first.toList.count '\n' + 1)) := by
  obtain ⟨pieces, splits⟩ := Piece.exists_splits first.toList
  obtain ⟨others, splitsSecond⟩ := Piece.exists_splits second.toList
  obtain ⟨tokens, faults⟩ := ofSource_of_splits splits
  obtain ⟨tokensSecond, faultsSecond⟩ := ofSource_of_splits splitsSecond
  rw [faults] at terminated
  have joined := splits.append_newline (splits.closed_of_terminated terminated) splitsSecond
  have text : (first ++ "\n" ++ second).toList = first.toList ++ '\n' :: second.toList := by simp
  rw [← text] at joined
  obtain ⟨tokensJoined, faultsJoined⟩ := ofSource_of_splits joined
  refine ⟨_, _, tokens, ?_, ?_⟩
  · have behind : lineBehind (first ++ "\n" ++ second).toList =
        lineBehind second.toList + (first.toList.count '\n' + 1) := by
      rw [text]
      simp only [lineBehind, List.count_append, List.count_cons_self]
      omega
    rw [tokensJoined, tokensSecond,
      Piece.collect_append_newline (fun _ => rfl) (Piece.token?_movedDown _) splits, behind,
      List.map_append, List.append_assoc]
    rfl
  · rw [faultsJoined, faults, faultsSecond,
      Piece.collect_append_newline (fun _ => rfl) (Piece.fault?_movedDown _) splits]

/-- A point that ends a line takes no digit from the next one, and the stray characters on both
lines are reported, each on its own. -/
theorem ofSource_append_newline_stray :
    (∀ fault ∈ (ofSource "@3.").faults, fault.isUnterminated = false) ∧
      (ofSource ("@3." ++ "\n" ++ "4#")).tokens =
        [⟨.number, "3", some (.number (.ofDecimal false 3 0)), 1⟩, .plain .dot "." 1,
          ⟨.number, "4", some (.number (.ofDecimal false 4 0)), 2⟩, .eof 2] ∧
      (ofSource ("@3." ++ "\n" ++ "4#")).faults =
        [.unexpectedCharacter 1 '@', .unexpectedCharacter 2 '#'] := by
  have above : Piece.Splits "@3.".toList
      [.stray '@', .token .number ['3'] (some (.number (.ofDecimal false 3 0))),
        .token .dot ['.'] none] :=
    .cons (Piece.cut_eq_iff_leads.mp rfl)
      (.cons (Piece.cut_eq_iff_leads.mp rfl) (.cons (Piece.cut_eq_iff_leads.mp rfl) .nil))
  have below : Piece.Splits "4#".toList
      [.token .number ['4'] (some (.number (.ofDecimal false 4 0))), .stray '#'] :=
    .cons (Piece.cut_eq_iff_leads.mp rfl) (.cons (Piece.cut_eq_iff_leads.mp rfl) .nil)
  obtain ⟨tokens, faults⟩ := ofSource_of_splits above
  obtain ⟨tokensBelow, faultsBelow⟩ := ofSource_of_splits below
  have terminated : ∀ fault ∈ (ofSource "@3.").faults, fault.isUnterminated = false := by
    rw [faults]
    decide
  obtain ⟨lexemes, line, marked, joined, reported⟩ := ofSource_append_newline "@3." "4#" terminated
  obtain ⟨rfl, _⟩ := List.append_inj' (marked.symm.trans tokens) rfl
  refine ⟨terminated, ?_, ?_⟩
  · rw [joined, tokensBelow]
    rfl
  · rw [reported, faults, faultsBelow]
    rfl

end Scan
end LoxSyntax
