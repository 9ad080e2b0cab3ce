import LoxSyntax.Proofs.Parse.Relined
import LoxSyntax.Proofs.Scan.Boundary
import LoxSyntax.Proofs.Scan.Line
import Mathlib.Data.List.Chain

/-! # Layouts of a token list

A layout writes tokens by their lexemes, with gaps before, between and behind them. It scans back to
the same tokens if the gaps are passed over and no character behind a lexeme goes on with it
(`readsAs_layOut`). Blanks go on with nothing, so only a lexeme directly behind another can. Blanks
and complete comments are passed over in any order (`Spacing.skips`).
-/

namespace LoxSyntax

/-- The token is one that a scanner makes, on whatever line. -/
def Token.IsScanned (token : Token) : Prop := Lexeme token.kind token.literal token.lexeme.toList

theorem Piece.Emits.isScanned {piece : Piece} {token : Token} (emits : piece.Emits token) :
    token.IsScanned := by
  cases emits with
  | token lexeme => simpa [Token.IsScanned] using lexeme

/-- A source scans to tokens and an end marker behind them. -/
theorem Scan.exists_lexemes (source : String) :
    ∃ lexemes line, (ofSource source).tokens = lexemes ++ [.eof line] ∧
      ∀ token ∈ lexemes, token.IsScanned := by
  obtain ⟨pieces, splits⟩ := Piece.exists_splits source.toList
  exact ⟨_, _, (ofSource_of_splits splits).1,
    forall_mem_of_forall₂ (splits.emits _) fun _ _ first => first.isScanned⟩

/-- The piece of a text that is the token. -/
def Token.piece (token : Token) : Piece := .token token.kind token.lexeme.toList token.literal

/-- A token as a layout writes it, with the gap behind it. -/
structure WrittenToken where
  token : Token
  gap : List Char
deriving DecidableEq

/-- The lexemes of the tokens in order, each with its gap behind it, and a gap before the first. -/
def layOut (front : List Char) (written : List WrittenToken) : List Char :=
  front ++ written.flatMap fun entry => entry.token.lexeme.toList ++ entry.gap

/-- The gap holds nothing but blanks. -/
def IsBlankGap (gap : List Char) : Prop := ∀ c ∈ gap, isBlank c = true

theorem Kind.goesOn_of_isBlank {c : Char} (blank : isBlank c = true) (kind : Kind) :
    kind.goesOn c = false := by
  rcases (isBlank_eq_true_iff c).mp blank with rfl | rfl | rfl | rfl <;> cases kind <;> rfl

/-- A gap is passed over in front of any text: it is pieces that neither are tokens nor faults. -/
def Skips (gap : List Char) : Prop :=
  ∀ {text : List Char} {pieces : List Piece}, Piece.Splits text pieces →
    ∃ skipped, Piece.Splits (gap ++ text) (skipped ++ pieces) ∧
      ∀ piece ∈ skipped, piece.isToken = false ∧ piece.isFault = false

/-- One piece that neither is a token nor a fault, in front of a gap that is passed over. -/
theorem Skips.cons {piece : Piece} {front gap : List Char}
    (leads : ∀ rest, piece.Leads (front ++ (gap ++ rest)) (gap ++ rest))
    (inert : piece.isToken = false ∧ piece.isFault = false) (skips : Skips gap) :
    Skips (front ++ gap) := by
  intro text pieces splits
  obtain ⟨skipped, splitsGap, spacing⟩ := skips splits
  refine ⟨piece :: skipped, ?_, List.forall_mem_cons.mpr ⟨inert, spacing⟩⟩
  rw [List.append_assoc]
  exact .cons (leads text) splitsGap

/-- Blanks, line comments with the newlines that end them, and closed block comments. -/
inductive Spacing : List Char → Prop where
  | nil : Spacing []
  | blank {c : Char} {rest : List Char} (blank : isBlank c = true) (others : Spacing rest) :
      Spacing (c :: rest)
  | lineComment {body rest : List Char} (inside : '\n' ∉ body) (others : Spacing rest) :
      Spacing ('/' :: '/' :: (body ++ '\n' :: rest))
  | blockComment {comment rest : List Char} (closed : BlockComment comment)
      (others : Spacing rest) : Spacing (comment ++ rest)

theorem Spacing.skips {gap : List Char} (spacing : Spacing gap) : Skips gap := by
  induction spacing with
  | nil =>
    intro text pieces splits
    exact ⟨[], splits, by simp⟩
  | @blank c rest blank _ skips =>
    exact @Skips.cons (.blank c) [c] rest (fun _ => .blank blank) ⟨rfl, rfl⟩ skips
  | @lineComment body rest inside _ skips =>
    have newline : Skips ('\n' :: rest) :=
      @Skips.cons (.blank '\n') ['\n'] rest (fun _ => .blank rfl) ⟨rfl, rfl⟩ skips
    have leads (more : List Char) :=
      Piece.Leads.lineComment inside (.inr (List.prefix_append ['\n'] (rest ++ more)))
    exact @Skips.cons (.comment _) ('/' :: '/' :: body) _ leads ⟨rfl, rfl⟩ newline
  | blockComment closed _ skips =>
    exact Skips.cons (fun _ => .blockComment closed) ⟨rfl, rfl⟩ skips

theorem IsBlankGap.spacing {gap : List Char} (blank : IsBlankGap gap) : Spacing gap := by
  induction gap with
  | nil => exact .nil
  | cons c gap ih =>
    obtain ⟨first, others⟩ := List.forall_mem_cons.mp blank
    exact .blank first (ih others)

namespace WrittenToken

/-- What stands directly behind a token does not go on with it. -/
def Apart (entry next : WrittenToken) : Prop :=
  entry.gap = [] → ∀ c ∈ next.token.lexeme.toList.head?, entry.token.kind.goesOn c = false

/-- The token can be read back: it is one that a scanner makes, and its gap is passed over and does
not go on with it. -/
structure Readable (entry : WrittenToken) : Prop where
  scanned : entry.token.IsScanned
  skips : Skips entry.gap
  ends : ∀ c ∈ entry.gap.head?, entry.token.kind.goesOn c = false

theorem Readable.of_isBlankGap {entry : WrittenToken} (scanned : entry.token.IsScanned)
    (blank : IsBlankGap entry.gap) : entry.Readable where
  scanned := scanned
  skips := blank.spacing.skips
  ends c leads := Kind.goesOn_of_isBlank (blank c (List.mem_of_mem_head? leads)) _

end WrittenToken

theorem layOut_cons (front : List Char) (entry : WrittenToken) (written : List WrittenToken) :
    layOut front (entry :: written) =
      front ++ (entry.token.lexeme.toList ++ layOut entry.gap written) := by
  simp [layOut]

/-- Nothing that a layout puts behind a token goes on with it. -/
theorem WrittenToken.Readable.ends_layOut {entry : WrittenToken} {written : List WrittenToken}
    (readable : entry.Readable) (others : ∀ other ∈ written, other.Readable)
    (apart : ∀ next ∈ written.head?, entry.Apart next) :
    ∀ c ∈ (layOut entry.gap written).head?, entry.token.kind.goesOn c = false := by
  intro c leads
  cases gap : entry.gap with
  | cons first gap' =>
    refine readable.ends c ?_
    rw [gap] at leads ⊢
    exact leads
  | nil =>
    cases written with
    | nil =>
      rw [gap] at leads
      cases leads
    | cons next written =>
      refine apart next rfl gap c ?_
      have nonempty := (others next List.mem_cons_self).scanned.ne_nil
      rwa [gap, layOut_cons, List.nil_append, List.head?_append_of_ne_nil _ nonempty] at leads

/-- The pieces of a layout are its tokens and what is passed over. -/
theorem splits_layOut {front : List Char} {written : List WrittenToken} (skips : Skips front)
    (readable : ∀ entry ∈ written, entry.Readable) (apart : written.IsChain WrittenToken.Apart) :
    ∃ pieces, Piece.Splits (layOut front written) pieces ∧
      pieces.filter Piece.isToken = written.map (·.token.piece) ∧
      ∀ piece ∈ pieces, piece.isFault = false := by
  -- The gap behind a token stands before the rest of the layout.
  induction written generalizing front with
  | nil =>
    obtain ⟨skipped, splits, spacing⟩ := skips .nil
    refine ⟨skipped ++ [], splits, ?_, ?_⟩
    · simpa using fun piece member => (spacing piece member).1
    · simpa using fun piece member => (spacing piece member).2
  | cons entry written ih =>
    obtain ⟨first, others⟩ := List.forall_mem_cons.mp readable
    obtain ⟨next, apart⟩ := List.isChain_cons.mp apart
    obtain ⟨pieces, splits, tokens, faultless⟩ := ih first.skips others apart
    have leads := first.scanned.leads (first.ends_layOut others next)
    obtain ⟨skipped, splitsAll, spacing⟩ := skips (.cons leads splits)
    refine ⟨skipped ++ entry.token.piece :: pieces, ?_, ?_, ?_⟩
    · rw [layOut_cons]
      exact splitsAll
    · have none : skipped.filter Piece.isToken = [] :=
        List.filter_eq_nil_iff.mpr fun piece member => by simp [(spacing piece member).1]
      rw [List.filter_append, none, List.nil_append, List.filter_cons_of_pos rfl, tokens,
        List.map_cons]
    · intro piece member
      rcases List.mem_append.mp member with member | member
      · exact (spacing piece member).2
      · rcases List.mem_cons.mp member with rfl | member
        · rfl
        · exact faultless piece member

/-- What the pieces of tokens emit are the tokens, on lines of their own. -/
theorem lineless_of_forall₂_emits {tokens lexemes : List Token}
    (emits : List.Forall₂ Piece.Emits (tokens.map Token.piece) lexemes) :
    lexemes.map Token.lineless = tokens.map Token.lineless := by
  rw [List.forall₂_map_left_iff] at emits
  induction emits with
  | nil => rfl
  | @cons token lexeme _ _ emits _ ih =>
    have same : lexeme.lineless = token.lineless := by
      unfold Token.piece at emits
      cases emits with
      | token => simp [Token.lineless]
    rw [List.map_cons, List.map_cons, same, ih]

/-- The source scans without a fault to the tokens, each on the line where it stands, and to one end
marker behind them. -/
structure ReadsAs (source : String) (tokens : List Token) : Prop where
  faultless : (Scan.ofSource source).faults = []
  tokens : ∃ lexemes line, (Scan.ofSource source).tokens = lexemes ++ [.eof line] ∧
    lexemes.map Token.lineless = tokens.map Token.lineless

/-- A layout whose tokens can be read back scans to them. -/
theorem readsAs_layOut {source : String} {front : List Char} {written : List WrittenToken}
    (skips : Skips front) (readable : ∀ entry ∈ written, entry.Readable)
    (apart : written.IsChain WrittenToken.Apart) (text : source.toList = layOut front written) :
    ReadsAs source (written.map (·.token)) := by
  obtain ⟨pieces, splits, tokenPieces, faultless⟩ := splits_layOut skips readable apart
  rw [← text] at splits
  obtain ⟨tokens, faults⟩ := Scan.ofSource_of_splits splits
  have emits := splits.emits (lineBehind [])
  have reports := splits.reports (lineBehind [])
  have tokenwise : written.map (·.token.piece) = (written.map (·.token)).map Token.piece := by
    rw [List.map_map]
    rfl
  rw [tokenPieces, tokenwise] at emits
  rw [← faults] at reports
  exact ⟨(Piece.eq_nil_iff_of_forall₂_reports reports).mpr faultless,
    _, _, tokens, lineless_of_forall₂_emits emits⟩

end LoxSyntax
