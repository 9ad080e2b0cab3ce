import LoxSyntax.Proofs.Scan.LongestMatch
import Mathlib.Data.List.Forall2

/-! # A scan loses nothing

A source text falls into pieces, and the pieces account for the whole scan: their texts are the
source, the tokens are the lexemes among them and the faults are what is wrong among them, each in
the order of the source. Only the last piece can be unclosed. The run behind it starts from any
unfinished scanner (`Scanner.drain_of_splits`).
-/

namespace LoxSyntax

/-- The end of the text was reached inside a string or a comment. -/
def Fault.isUnterminated : Fault → Bool
  | unterminatedString _ | unterminatedComment _ => true
  | _ => false

theorem Lexeme.ne_eof {kind : Kind} {literal : Option Literal} {text : List Char}
    (lexeme : Lexeme kind literal text) : kind ≠ .eof := by
  rintro rfl
  cases lexeme with
  | mark spelled => cases spelled

/-- What holds of every value that relates to some item holds of all values of related lists. -/
theorem forall_mem_of_forall₂ {α β : Type} {relates : α → β → Prop} {holds : β → Prop}
    {items : List α} {values : List β} (related : List.Forall₂ relates items values)
    (each : ∀ item value, relates item value → holds value) : ∀ value ∈ values, holds value := by
  induction related with
  | nil => simp
  | cons first _ ih => exact List.forall_mem_cons.mpr ⟨each _ _ first, ih⟩

namespace Piece

/-- The pieces of a text, each one what the grammar puts in front of what those before it left. -/
inductive Splits : List Char → List Piece → Prop where
  | nil : Splits [] []
  | cons {piece : Piece} {pieces : List Piece} {text rest : List Char}
      (leads : piece.Leads text rest) (others : Splits rest pieces) : Splits text (piece :: pieces)

/-- What the pieces give one after the other, each by the line on which it begins. -/
def collect {α : Type} (give : Nat → Piece → Option α) (line : Nat) : List Piece → List α
  | [] => []
  | piece :: pieces =>
    (give line piece).toList ++ collect give (line + piece.text.count '\n') pieces

/-- The piece is a token. -/
def isToken : Piece → Bool
  | token _ _ _ => true
  | _ => false

/-- Something is wrong with the piece. -/
def isFault : Piece → Bool
  | stray _ | badNumber _ | openString _ | openComment _ => true
  | _ => false

/-- The piece is a string or a comment that is never closed. -/
def isUnclosed : Piece → Bool
  | openString _ | openComment _ => true
  | _ => false

/-- The token is the lexeme of the piece, on whatever line. -/
inductive Emits : Piece → Token → Prop where
  | token {kind : Kind} {literal : Option Literal} {text : List Char} {line : Nat}
      (lexeme : Lexeme kind literal text) :
      Emits (.token kind text literal) ⟨kind, String.ofList text, literal, line⟩

/-- The fault says what is wrong with the piece, on whatever line. -/
inductive Reports : Piece → Fault → Prop where
  | stray {c : Char} {line : Nat} : Reports (.stray c) (.unexpectedCharacter line c)
  | openString {text : List Char} {line : Nat} :
      Reports (.openString text) (.unterminatedString line)
  | openComment {text : List Char} {line : Nat} :
      Reports (.openComment text) (.unterminatedComment line)

section Splits

variable {text rest : List Char} {piece : Piece} {pieces : List Piece}

theorem Leads.length_lt (leads : piece.Leads text rest) : rest.length < text.length := by
  match text, leads.ne_nil with
  | first :: chars, _ =>
    have bound := length_cut_le first chars
    rw [cut_eq_iff_leads.mpr leads] at bound
    exact Nat.lt_succ_of_le bound

theorem Leads.emits (leads : piece.Leads text rest) (line : Nat) :
    (piece.isToken = true ∧ ∃ token, piece.token? line = some token ∧ piece.Emits token) ∨
      (piece.isToken = false ∧ piece.token? line = none) := by
  cases leads with
  | token lexeme => exact .inl ⟨rfl, _, rfl, .token lexeme⟩
  | _ => exact .inr ⟨rfl, rfl⟩

theorem Leads.reports (leads : piece.Leads text rest) (line : Nat) :
    (piece.isFault = true ∧ ∃ fault, piece.fault? line = some fault ∧ piece.Reports fault) ∨
      (piece.isFault = false ∧ piece.fault? line = none) := by
  cases leads with
  | stray => exact .inl ⟨rfl, _, rfl, .stray⟩
  | openString => exact .inl ⟨rfl, _, rfl, .openString⟩
  | openComment => exact .inl ⟨rfl, _, rfl, .openComment⟩
  | _ => exact .inr ⟨rfl, rfl⟩

/-- What is collected belongs, in order, to the pieces that give something. -/
theorem forall₂_collect {α : Type} {relates : Piece → α → Prop} {keeps : Piece → Bool}
    {give : Nat → Piece → Option α} {line : Nat}
    (given : ∀ piece ∈ pieces, ∀ line,
      (keeps piece = true ∧ ∃ value, give line piece = some value ∧ relates piece value) ∨
        (keeps piece = false ∧ give line piece = none)) :
    List.Forall₂ relates (pieces.filter keeps) (collect give line pieces) := by
  induction pieces generalizing line with
  | nil => exact .nil
  | cons piece pieces ih =>
    obtain ⟨first, others⟩ := List.forall_mem_cons.mp given
    rcases first line with ⟨kept, value, found, related⟩ | ⟨dropped, none⟩
    · rw [List.filter_cons_of_pos kept, collect, found]
      exact .cons related (ih others)
    · rw [List.filter_cons_of_neg (Bool.eq_false_iff.mp dropped), collect, none]
      exact ih others

/-- Every text falls into pieces. -/
theorem exists_splits (text : List Char) : ∃ pieces, Splits text pieces := by
  match text with
  | [] => exact ⟨[], .nil⟩
  | first :: chars =>
    have leads := cut_leads first chars
    have shorter := leads.length_lt
    obtain ⟨pieces, others⟩ := exists_splits (cut first chars).2
    exact ⟨_, .cons leads others⟩
termination_by text.length
decreasing_by exact shorter

namespace Splits

theorem flatMap_text (splits : Splits text pieces) : pieces.flatMap Piece.text = text := by
  induction splits with
  | nil => rfl
  | cons leads _ ih => rw [List.flatMap_cons, ih, leads.append]

theorem eq_nil (splits : Splits [] pieces) : pieces = [] := by
  cases splits with
  | nil => rfl
  | cons leads => exact absurd rfl leads.ne_nil

/-- The first piece leads the text, and the others are what is left. -/
theorem exists_leads (splits : Splits text (piece :: pieces)) :
    ∃ rest, piece.Leads text rest ∧ Splits rest pieces := by
  cases splits with
  | cons leads others => exact ⟨_, leads, others⟩

/-- Each piece leads what remains from it on. -/
theorem leads_of_mem (splits : Splits text pieces) (member : piece ∈ pieces) :
    ∃ front rest, piece.Leads front rest := by
  induction splits with
  | nil => cases member
  | cons leads _ ih =>
    rcases List.mem_cons.mp member with rfl | member
    · exact ⟨_, _, leads⟩
    · exact ih member

theorem text_ne_nil (splits : Splits text pieces) (member : piece ∈ pieces) : piece.text ≠ [] := by
  obtain ⟨front, rest, leads⟩ := splits.leads_of_mem member
  intro empty
  have whole := leads.append
  have shorter := leads.length_lt
  rw [empty, List.nil_append] at whole
  rw [whole] at shorter
  exact Nat.lt_irrefl _ shorter

/-- An unclosed piece reaches to the end of the text, so no other follows it. -/
theorem pairwise_closed (splits : Splits text pieces) :
    pieces.Pairwise fun piece _ => piece.isUnclosed = false := by
  induction splits with
  | nil => exact .nil
  | cons leads others ih =>
    refine .cons ?_ ih
    intro other member
    cases leads with
    | openComment =>
      rw [others.eq_nil] at member
      cases member
    | openString =>
      rw [others.eq_nil] at member
      cases member
    | _ => rfl

/-- The tokens of a text are the lexemes among its pieces. -/
theorem emits (splits : Splits text pieces) (line : Nat) :
    List.Forall₂ Emits (pieces.filter isToken) (collect token? line pieces) := by
  apply forall₂_collect
  intro piece member line
  obtain ⟨front, rest, leads⟩ := splits.leads_of_mem member
  exact leads.emits line

/-- The faults of a text are what is wrong among its pieces. -/
theorem reports (splits : Splits text pieces) (line : Nat) :
    List.Forall₂ Reports (pieces.filter isFault) (collect fault? line pieces) := by
  apply forall₂_collect
  intro piece member line
  obtain ⟨front, rest, leads⟩ := splits.leads_of_mem member
  exact leads.reports line

end Splits

theorem Emits.ne_eof {token : Token} (emits : piece.Emits token) : token.kind ≠ .eof := by
  cases emits with
  | token lexeme => exact lexeme.ne_eof

theorem Reports.isUnterminated_eq {fault : Fault} (reports : piece.Reports fault) :
    fault.isUnterminated = piece.isUnclosed := by
  cases reports <;> rfl

theorem ne_eof_of_forall₂_emits {tokens : List Token} (emits : List.Forall₂ Emits pieces tokens) :
    ∀ token ∈ tokens, token.kind ≠ .eof :=
  forall_mem_of_forall₂ emits fun _ _ first => first.ne_eof

/-- Where only the last piece is unclosed, only the last fault is that of an unclosed piece. -/
theorem pairwise_of_forall₂_reports {faults : List Fault}
    (reports : List.Forall₂ Reports pieces faults)
    (closed : pieces.Pairwise fun piece _ => piece.isUnclosed = false) :
    faults.Pairwise fun fault _ => fault.isUnterminated = false := by
  induction reports with
  | nil => exact .nil
  | cons first others ih =>
    obtain ⟨firstClosed, closed⟩ := List.pairwise_cons.mp closed
    refine .cons ?_ (ih closed)
    intro later member
    cases others with
    | nil => cases member
    | cons => exact first.isUnterminated_eq.trans (firstClosed _ List.mem_cons_self)

theorem eq_nil_iff_of_forall₂_reports {faults : List Fault}
    (reports : List.Forall₂ Reports (pieces.filter isFault) faults) :
    faults = [] ↔ ∀ piece ∈ pieces, piece.isFault = false := by
  constructor
  · rintro rfl
    have none := List.forall₂_nil_right_iff.mp reports
    simpa using List.filter_eq_nil_iff.mp none
  · intro clean
    have none : pieces.filter isFault = [] := List.filter_eq_nil_iff.mpr (by simpa using clean)
    rw [none] at reports
    exact List.forall₂_nil_left_iff.mp reports

end Splits
end Piece

namespace Scanner

private theorem drain_congr {scanner other : Scanner} (same : scanner.next = other.next) :
    scanner.drain = other.drain := by
  rcases handed : other.next with ⟨token?, after⟩
  rw [handed] at same
  cases token? with
  | none => rw [drain_of_next_none same, drain_of_next_none handed]
  | some token => rw [drain_of_next_some same, drain_of_next_some handed]

theorem toList_faults_pass (scanner : Scanner) (piece : Piece) (rest : List Char) :
    (scanner.pass piece rest).faults.toList =
      scanner.faults.toList ++ (piece.fault? scanner.line).toList := by
  unfold pass
  cases piece.fault? scanner.line <;> simp

/-- The piece before a scanner comes first in what is still handed out. -/
theorem drain_of_leads {scanner : Scanner} {piece : Piece} {rest : List Char}
    (unfinished : scanner.finished = false) (leads : piece.Leads scanner.rest rest) :
    scanner.drain = ((piece.token? scanner.line).toList ++ (scanner.pass piece rest).drain.1,
      (scanner.pass piece rest).drain.2) := by
  have step := next_of_leads unfinished leads
  cases given : piece.token? scanner.line with
  | none =>
    rw [given] at step
    exact drain_congr step
  | some token =>
    rw [given] at step
    exact drain_of_next_some step

/-- An unfinished scanner hands out the tokens among the pieces before it and then the end marker,
and it collects the faults among them behind the ones it has. -/
theorem drain_of_splits {scanner : Scanner} {text : List Char} {pieces : List Piece}
    (splits : Piece.Splits text pieces) (unfinished : scanner.finished = false)
    (ahead : scanner.rest = text) :
    scanner.drain.1 = Piece.collect Piece.token? scanner.line pieces ++
        [.eof (scanner.line + text.count '\n')] ∧
      scanner.drain.2.faults.toList = scanner.faults.toList ++
        Piece.collect Piece.fault? scanner.line pieces := by
  induction splits generalizing scanner with
  | nil =>
    rw [drain_of_next_some (next_of_end unfinished ahead),
      drain_of_next_none (next_of_finished rfl)]
    simp [Piece.collect]
  | @cons piece pieces text rest leads _ ih =>
    subst ahead
    obtain ⟨tokens, faults⟩ := @ih (scanner.pass piece rest) unfinished rfl
    have lines : (scanner.pass piece rest).line = scanner.line + piece.text.count '\n' := rfl
    rw [drain_of_leads unfinished leads]
    constructor
    · rw [tokens, lines, ← leads.append, List.count_append, Piece.collect, List.append_assoc,
        Nat.add_assoc]
    · rw [faults, lines, toList_faults_pass, Piece.collect, List.append_assoc]

end Scanner

namespace Scan

/-- The pieces account for the source and for all that its scan says. -/
structure AccountedBy (scan : Scan) (source : List Char) (pieces : List Piece) : Prop where
  /-- Each piece is what the lexical grammar puts in front of what those before it left. -/
  splits : Piece.Splits source pieces
  whole : pieces.flatMap Piece.text = source
  nonempty : ∀ piece ∈ pieces, piece.text ≠ []
  /-- Only the last piece can be a string or a comment that is never closed. -/
  closed : pieces.Pairwise fun piece _ => piece.isUnclosed = false
  /-- The tokens are the lexemes among the pieces, and the end marker behind them. -/
  tokens : ∃ lexemes line, scan.tokens = lexemes ++ [.eof line] ∧
    (∀ token ∈ lexemes, token.kind ≠ .eof) ∧
    List.Forall₂ Piece.Emits (pieces.filter Piece.isToken) lexemes
  /-- The faults are what is wrong among the pieces. -/
  faults : List.Forall₂ Piece.Reports (pieces.filter Piece.isFault) scan.faults
  /-- Only the last fault can be an unterminated string or comment. -/
  terminated : scan.faults.Pairwise fun fault _ => fault.isUnterminated = false
  faultless : scan.faults = [] ↔ ∀ piece ∈ pieces, piece.isFault = false

/-- A scan loses no character of its source and says nothing that the source does not hold. -/
theorem ofSource_lossless (source : String) :
    ∃ pieces, (ofSource source).AccountedBy source.toList pieces := by
  obtain ⟨pieces, splits⟩ := Piece.exists_splits source.toList
  obtain ⟨tokens, faults⟩ := @Scanner.drain_of_splits (.ofSource source) _ _ splits rfl rfl
  have emits := splits.emits (Scanner.ofSource source).line
  have reports := splits.reports (Scanner.ofSource source).line
  have empty : (Scanner.ofSource source).faults.toList = [] := rfl
  rw [empty, List.nil_append] at faults
  rw [← faults] at reports
  refine ⟨pieces, ?_⟩
  constructor
  case splits => exact splits
  case whole => exact splits.flatMap_text
  case nonempty =>
    intro piece member
    exact splits.text_ne_nil member
  case closed => exact splits.pairwise_closed
  case tokens => exact ⟨_, _, tokens, Piece.ne_eof_of_forall₂_emits emits, emits⟩
  case faults => exact reports
  case terminated =>
    exact Piece.pairwise_of_forall₂_reports reports (splits.pairwise_closed.filter _)
  case faultless => exact Piece.eq_nil_iff_of_forall₂_reports reports

end Scan
end LoxSyntax
