import LoxSyntax.Proofs.Scan.Lossless

/-! # Lines of a scan

A text goes on, behind what has been read of it, on one line more than there are newlines in that.
This is the line of every token and of every stray character, wherever the newlines stand: between
tokens, in strings or in comments. What is never closed is reported on the line where the text ends.
`Scanner.Passed` is the invariant: each piece that a scanner passes keeps it (`Passed.pass`), hence
each call of `next` does (`Passed.next`), hence any number of calls.
-/

namespace LoxSyntax

/-- The line on which a text goes on behind its beginning. -/
def lineBehind (before : List Char) : Nat := 1 + before.count '\n'

theorem lineBehind_append (before text : List Char) :
    lineBehind (before ++ text) = lineBehind before + text.count '\n' := by
  rw [lineBehind, lineBehind, List.count_append, Nat.add_assoc]

theorem lineBehind_le_of_prefix {before text : List Char} (leads : before <+: text) :
    lineBehind before ≤ lineBehind text := by
  obtain ⟨rest, rfl⟩ := leads
  rw [lineBehind_append]
  exact Nat.le_add_right _ _

/-- A piece of a text, and what stands before it. -/
structure PlacedPiece where
  before : List Char
  piece : Piece

/-- The piece and what stands before it. -/
def PlacedPiece.reach (placed : PlacedPiece) : List Char := placed.before ++ placed.piece.text

/-- What belongs to the items that are kept, one value for each and none for the others. -/
theorem forall₂_filterMap {α β : Type} {relates : α → β → Prop} {keeps : α → Bool}
    {give : α → Option β} {items : List α}
    (given : ∀ item ∈ items,
      (keeps item = true ∧ ∃ value, give item = some value ∧ relates item value) ∨
        (keeps item = false ∧ give item = none)) :
    List.Forall₂ relates (items.filter keeps) (items.filterMap give) := by
  induction items with
  | nil => exact .nil
  | cons item items ih =>
    obtain ⟨first, others⟩ := List.forall_mem_cons.mp given
    rcases first with ⟨kept, value, found, related⟩ | ⟨dropped, none⟩
    · rw [List.filter_cons_of_pos kept, List.filterMap_cons_some found]
      exact .cons related (ih others)
    · rw [List.filter_cons_of_neg (Bool.eq_false_iff.mp dropped), List.filterMap_cons_none none]
      exact ih others

namespace Piece

/-- The pieces one behind the other, the first of them behind the text. -/
def place (before : List Char) : List Piece → List PlacedPiece
  | [] => []
  | piece :: pieces => ⟨before, piece⟩ :: place (before ++ piece.text) pieces

section Place

variable {before text : List Char} {pieces : List Piece} {placed : PlacedPiece} {line : Nat}

theorem collect_append {α : Type} (give : Nat → Piece → Option α) (line : Nat)
    (pieces others : List Piece) :
    collect give line (pieces ++ others) = collect give line pieces ++
      collect give (line + (pieces.flatMap Piece.text).count '\n') others := by
  induction pieces generalizing line with
  | nil => rfl
  | cons piece pieces ih =>
    rw [List.cons_append, collect, collect, ih, List.flatMap_cons, List.count_append,
      List.append_assoc, Nat.add_assoc]

/-- A piece begins on the line on which the text goes on behind the pieces before it. -/
theorem collect_eq_filterMap {α : Type} (give : Nat → Piece → Option α) (before : List Char)
    (pieces : List Piece) :
    collect give (lineBehind before) pieces = (place before pieces).filterMap fun placed =>
      give (lineBehind placed.before) placed.piece := by
  induction pieces generalizing before with
  | nil => rfl
  | cons piece pieces ih =>
    rw [collect, place, ← lineBehind_append, ih]
    cases given : give (lineBehind before) piece <;> simp [given]

private theorem before_prefix_of_mem_place (member : placed ∈ place before pieces) :
    before <+: placed.before := by
  induction pieces generalizing before with
  | nil => cases member
  | cons piece pieces ih =>
    rcases List.mem_cons.mp member with rfl | member
    · exact List.prefix_refl _
    · exact (List.prefix_append _ _).trans (ih member)

/-- Each piece reaches no further than the next one begins. -/
theorem pairwise_place (before : List Char) (pieces : List Piece) :
    (place before pieces).Pairwise fun first later => first.reach <+: later.before := by
  induction pieces generalizing before with
  | nil => exact .nil
  | cons piece pieces ih =>
    refine .cons ?_ (ih _)
    intro later member
    exact before_prefix_of_mem_place member

/-- Each piece leads what remains of the text behind the pieces before it. -/
theorem Splits.leads_of_mem_place (splits : Splits text pieces)
    (member : placed ∈ place before pieces) :
    ∃ front rest, placed.piece.Leads front rest ∧ placed.before ++ front = before ++ text := by
  induction splits generalizing before with
  | nil => cases member
  | @cons piece pieces text rest leads _ ih =>
    rcases List.mem_cons.mp member with rfl | member
    · exact ⟨text, rest, leads, rfl⟩
    · obtain ⟨front, remains, leadsFront, whole⟩ := ih member
      refine ⟨front, remains, leadsFront, ?_⟩
      rw [whole, List.append_assoc, leads.append]

private theorem place_append (before : List Char) (pieces others : List Piece) :
    place before (pieces ++ others) =
      place before pieces ++ place (before ++ pieces.flatMap Piece.text) others := by
  induction pieces generalizing before with
  | nil => simp [place]
  | cons piece pieces ih => simp [place, ih]

private theorem line_of_token? {piece : Piece} {token : Token}
    (given : piece.token? line = some token) :
    token.line = line := by
  cases piece <;> cases given
  rfl

theorem lexeme_of_token? {piece : Piece} {token : Token} (given : piece.token? line = some token) :
    token.lexeme.toList = piece.text := by
  cases piece <;> cases given
  exact String.toList_ofList

/-- A fault lies on the line where its piece begins, or where the piece ends if it is never
closed. -/
theorem line_of_fault? {piece : Piece} {fault : Fault} (given : piece.fault? line = some fault) :
    fault.line = if piece.isUnclosed then line + piece.text.count '\n' else line := by
  cases piece <;> cases given <;> rfl

end Place
end Piece

namespace PlacedPiece

variable {placed : PlacedPiece} {source : List Char} {pieces ahead : List Piece}

/-- The token is the piece and bears the line on which the piece begins. -/
structure EmitsToken (placed : PlacedPiece) (token : Token) : Prop where
  emits : placed.piece.Emits token
  line : token.line = lineBehind placed.before

/-- The fault says what is wrong with the piece: on the line where a stray character stands, and on
the line where the source ends if the piece is never closed. -/
structure ReportsFault (source : List Char) (placed : PlacedPiece) (fault : Fault) : Prop where
  reports : placed.piece.Reports fault
  line : fault.line =
    if placed.piece.isUnclosed then lineBehind source else lineBehind placed.before

theorem leads_of_mem (splits : Piece.Splits source (pieces ++ ahead))
    (member : placed ∈ Piece.place [] pieces) :
    ∃ front rest, placed.piece.Leads front rest ∧ placed.before ++ front = source := by
  have placedAll : placed ∈ Piece.place [] (pieces ++ ahead) := by
    rw [Piece.place_append]
    exact List.mem_append_left _ member
  exact splits.leads_of_mem_place placedAll

/-- What is never closed reaches to the end of the source. -/
theorem reach_eq_of_isUnclosed {front rest : List Char} (leads : placed.piece.Leads front rest)
    (whole : placed.before ++ front = source) (unclosed : placed.piece.isUnclosed = true) :
    placed.reach = source := by
  have ends : rest = [] := by
    generalize placed.piece = piece at leads unclosed
    cases leads <;> first | rfl | cases unclosed
  rw [reach, ← whole, ← leads.append, ends, List.append_nil]

private theorem forall₂_emitsToken (splits : Piece.Splits source (pieces ++ ahead)) :
    List.Forall₂ EmitsToken ((Piece.place [] pieces).filter (·.piece.isToken))
      (Piece.collect Piece.token? (lineBehind []) pieces) := by
  rw [Piece.collect_eq_filterMap]
  apply forall₂_filterMap
  intro placed member
  obtain ⟨front, rest, leads, _⟩ := leads_of_mem splits member
  rcases leads.emits (lineBehind placed.before) with ⟨kept, token, given, emits⟩ | dropped
  · exact .inl ⟨kept, token, given, emits, Piece.line_of_token? given⟩
  · exact .inr dropped

private theorem forall₂_reportsFault (splits : Piece.Splits source (pieces ++ ahead)) :
    List.Forall₂ (ReportsFault source) ((Piece.place [] pieces).filter (·.piece.isFault))
      (Piece.collect Piece.fault? (lineBehind []) pieces) := by
  rw [Piece.collect_eq_filterMap]
  apply forall₂_filterMap
  intro placed member
  obtain ⟨front, rest, leads, whole⟩ := leads_of_mem splits member
  rcases leads.reports (lineBehind placed.before) with ⟨kept, fault, given, reports⟩ | dropped
  · refine .inl ⟨kept, fault, given, reports, ?_⟩
    rw [Piece.line_of_fault? given, ← lineBehind_append]
    cases unclosed : placed.piece.isUnclosed with
    | false => rfl
    | true =>
      rw [← reach, reach_eq_of_isUnclosed leads whole unclosed]
  · exact .inr dropped

end PlacedPiece

namespace Piece

/-- Tokens come on ascending lines. -/
theorem pairwise_collect_token? (before : List Char) (pieces : List Piece) :
    (collect token? (lineBehind before) pieces).Pairwise (·.line ≤ ·.line) := by
  rw [collect_eq_filterMap, List.pairwise_filterMap]
  refine (pairwise_place before pieces).imp ?_
  intro first later follows token given other otherGiven
  rw [line_of_token? given, line_of_token? otherGiven]
  exact lineBehind_le_of_prefix ((List.prefix_append _ _).trans follows)

/-- A fault lies where its piece begins or where it ends. -/
theorem line_of_fault?_bounds {before : List Char} {piece : Piece} {fault : Fault}
    (given : piece.fault? (lineBehind before) = some fault) :
    lineBehind before ≤ fault.line ∧ fault.line ≤ lineBehind (before ++ piece.text) := by
  have line := line_of_fault? given
  rw [lineBehind_append]
  split at line <;> omega

/-- Faults come on ascending lines. -/
theorem pairwise_collect_fault? (before : List Char) (pieces : List Piece) :
    (collect fault? (lineBehind before) pieces).Pairwise (·.line ≤ ·.line) := by
  rw [collect_eq_filterMap, List.pairwise_filterMap]
  refine (pairwise_place before pieces).imp ?_
  intro first later follows fault given other otherGiven
  have ends := (line_of_fault?_bounds given).2
  have begins := (line_of_fault?_bounds otherGiven).1
  have between := lineBehind_le_of_prefix follows
  rw [PlacedPiece.reach] at between
  omega

/-- No token begins behind the end of the text. -/
theorem line_le_of_mem_collect_token? {before : List Char} {pieces : List Piece} {token : Token}
    (member : token ∈ collect token? (lineBehind before) pieces) :
    token.line ≤ lineBehind (before ++ pieces.flatMap text) := by
  induction pieces generalizing before with
  | nil => cases member
  | cons piece pieces ih =>
    rw [collect, ← lineBehind_append] at member
    rw [List.flatMap_cons, ← List.append_assoc]
    rcases List.mem_append.mp member with member | member
    · rw [line_of_token? (Option.mem_toList.mp member), List.append_assoc]
      exact lineBehind_le_of_prefix (List.prefix_append _ _)
    · exact ih member

end Piece

/-- What a source scans to, by its pieces. -/
theorem Scan.ofSource_of_splits {source : String} {pieces : List Piece}
    (splits : Piece.Splits source.toList pieces) :
    (ofSource source).tokens = Piece.collect Piece.token? (lineBehind []) pieces ++
        [.eof (lineBehind source.toList)] ∧
      (ofSource source).faults = Piece.collect Piece.fault? (lineBehind []) pieces := by
  obtain ⟨tokens, faults⟩ := @Scanner.drain_of_splits (.ofSource source) _ _ splits rfl rfl
  exact ⟨tokens, faults⟩

namespace Scanner

/-- What a number of calls of `next` hand out, and the scanner behind them. -/
def handOut (scanner : Scanner) : (calls : Nat) → List Token × Scanner
  | 0 => ([], scanner)
  | calls + 1 =>
    let (tokens, before) := scanner.handOut calls
    let (token?, after) := before.next
    (tokens ++ token?.toList, after)

/-- The scanner stands behind the pieces and before those ahead, which are the source. It has handed
out the tokens among the pieces, and the end marker if it is finished. -/
structure Passed (source : List Char) (pieces ahead : List Piece) (tokens : List Token)
    (scanner : Scanner) : Prop where
  splits : Piece.Splits source (pieces ++ ahead)
  rest : Piece.Splits scanner.rest ahead
  position : scanner.position = (pieces.flatMap Piece.text).length
  line : scanner.line = lineBehind (pieces.flatMap Piece.text)
  tokens : tokens = Piece.collect Piece.token? (lineBehind []) pieces ++
    if scanner.finished then [.eof scanner.line] else []
  faults : scanner.faults.toList = Piece.collect Piece.fault? (lineBehind []) pieces
  ended : scanner.finished = true → ahead = []

namespace Passed

variable {source : List Char} {pieces ahead : List Piece} {tokens : List Token} {scanner : Scanner}

theorem start {source : String} (splits : Piece.Splits source.toList ahead) :
    (ofSource source).Passed source.toList [] ahead [] where
  splits := splits
  rest := splits
  position := rfl
  line := rfl
  tokens := rfl
  faults := rfl
  ended := Bool.noConfusion

/-- What the pieces give up to one more piece. -/
theorem collect_snoc {α : Type} (passed : scanner.Passed source pieces ahead tokens)
    (give : Nat → Piece → Option α) (piece : Piece) :
    Piece.collect give (lineBehind []) (pieces ++ [piece]) =
      Piece.collect give (lineBehind []) pieces ++ (give scanner.line piece).toList := by
  rw [Piece.collect_append, ← lineBehind_append, List.nil_append, ← passed.line]
  simp [Piece.collect]

/-- One piece is passed. -/
theorem pass {piece : Piece} {rest : List Char}
    (passed : scanner.Passed source pieces (piece :: ahead) tokens)
    (unfinished : scanner.finished = false) (behind : Piece.Splits rest ahead) :
    (scanner.pass piece rest).Passed source (pieces ++ [piece]) ahead
      (tokens ++ (piece.token? scanner.line).toList) where
  splits := by
    rw [List.append_assoc]
    exact passed.splits
  rest := behind
  position := by
    rw [Scanner.pass, passed.position]
    simp
  line := by
    rw [Scanner.pass, passed.line, List.flatMap_append, lineBehind_append]
    simp
  tokens := by
    rw [passed.collect_snoc, passed.tokens, finished_pass, unfinished]
    simp
  faults := by
    rw [toList_faults_pass, passed.faults, passed.collect_snoc]
  ended := by
    intro finished
    rw [finished_pass, unfinished] at finished
    cases finished

/-- Behind all pieces the end marker is handed out. -/
theorem finish (passed : scanner.Passed source pieces [] tokens)
    (unfinished : scanner.finished = false) :
    Passed source pieces [] (tokens ++ [.eof scanner.line]) { scanner with finished := true } where
  splits := passed.splits
  rest := passed.rest
  position := passed.position
  line := passed.line
  tokens := by
    rw [passed.tokens, unfinished]
    simp
  faults := passed.faults
  ended := fun _ => rfl

/-- The end marker stands on the line on which the source ends. -/
theorem tokens_eq (passed : scanner.Passed source pieces ahead tokens) :
    tokens = Piece.collect Piece.token? (lineBehind []) pieces ++
      if scanner.finished then [.eof (lineBehind source)] else [] := by
  rw [passed.tokens]
  cases finished : scanner.finished with
  | false => rfl
  | true =>
    have whole := passed.splits.flatMap_text
    rw [passed.ended finished, List.append_nil] at whole
    rw [passed.line, whole]

private theorem tokens_pairwise (passed : scanner.Passed source pieces ahead tokens) :
    tokens.Pairwise (·.line ≤ ·.line) := by
  rw [passed.tokens, List.pairwise_append]
  refine ⟨Piece.pairwise_collect_token? [] pieces, ?_, ?_⟩
  · cases scanner.finished <;> simp
  · intro token member last lastMember
    obtain ⟨_, rfl⟩ : scanner.finished = true ∧ last = .eof scanner.line := by
      simpa using lastMember
    have bound := Piece.line_le_of_mem_collect_token? member
    rw [List.nil_append, ← passed.line] at bound
    exact bound

end Passed

/-- Where a call of `next` ends, once it has passed pieces that are no tokens: at the end of the
source or behind a token. -/
inductive Stops (source : List Char) (tokens : List Token) (scanner : Scanner) : Prop where
  | atEnd {pieces : List Piece} {last : Scanner} (passed : last.Passed source pieces [] tokens)
      (unfinished : last.finished = false)
      (step : scanner.next = (some (.eof last.line), { last with finished := true }))
  | atToken {pieces ahead : List Piece} {piece : Piece} {rest : List Char} {last : Scanner}
      {token : Token} (passed : last.Passed source pieces (piece :: ahead) tokens)
      (unfinished : last.finished = false) (behind : Piece.Splits rest ahead)
      (given : piece.token? last.line = some token)
      (step : scanner.next = (some token, last.pass piece rest))

namespace Passed

variable {source : List Char} {pieces ahead : List Piece} {tokens : List Token} {scanner : Scanner}

/-- The pieces ahead are passed one after the other until one of them is a token. -/
theorem stops (passed : scanner.Passed source pieces ahead tokens)
    (unfinished : scanner.finished = false) : Stops source tokens scanner := by
  induction ahead generalizing pieces scanner with
  | nil =>
    have ended : scanner.rest = [] := passed.rest.flatMap_text.symm
    exact .atEnd passed unfinished (next_of_end unfinished ended)
  | cons piece ahead ih =>
    obtain ⟨rest, leads, behind⟩ := passed.rest.exists_leads
    have step := next_of_leads unfinished leads
    have onward := passed.pass unfinished behind
    cases given : piece.token? scanner.line with
    | some token =>
      rw [given] at step
      exact .atToken passed unfinished behind given step
    | none =>
      simp only [given, Option.toList_none, List.append_nil] at step onward
      cases ih onward unfinished with
      | atEnd passed unfinished stop => exact .atEnd passed unfinished (step.trans stop)
      | atToken passed unfinished behind given stop =>
        exact .atToken passed unfinished behind given (step.trans stop)

/-- One call of `next` passes pieces up to the next token, or up to the end. -/
theorem next (passed : scanner.Passed source pieces ahead tokens) :
    ∃ more left, scanner.next.2.Passed source more left (tokens ++ scanner.next.1.toList) := by
  cases finished : scanner.finished with
  | true =>
    rw [next_of_finished finished]
    exact ⟨pieces, ahead, by simpa using passed⟩
  | false =>
    cases passed.stops finished with
    | atEnd passed unfinished step =>
      rw [step]
      exact ⟨_, [], passed.finish unfinished⟩
    | atToken passed unfinished behind given step =>
      have onward := passed.pass unfinished behind
      rw [given] at onward
      rw [step]
      exact ⟨_, _, onward⟩

end Passed

private theorem passed_handOut (source : String) (calls : Nat) :
    ∃ pieces ahead, ((ofSource source).handOut calls).2.Passed source.toList pieces ahead
      ((ofSource source).handOut calls).1 := by
  induction calls with
  | zero =>
    obtain ⟨ahead, splits⟩ := Piece.exists_splits source.toList
    exact ⟨[], ahead, .start splits⟩
  | succ calls ih =>
    obtain ⟨pieces, ahead, passed⟩ := ih
    exact passed.next

/-- All lines are exact once the scanner has passed the pieces and handed out the tokens. -/
structure LinesExact (source : List Char) (pieces : List Piece) (handed : List Token)
    (scanner : Scanner) : Prop where
  /-- The pieces are those that the lexical grammar puts at the front of the source. -/
  splits : ∃ ahead, Piece.Splits source (pieces ++ ahead)
  current : scanner.stats.current = (pieces.flatMap Piece.text).length
  ended : scanner.finished = true → pieces.flatMap Piece.text = source
  /-- The tokens are the lexemes among the pieces, each on the line on which it begins, and behind
  them the end marker, if it has been handed out, on the line on which the source ends. -/
  tokens : ∃ lexemes, handed = lexemes ++
      (if scanner.finished then [.eof (lineBehind source)] else []) ∧
    List.Forall₂ PlacedPiece.EmitsToken
      ((Piece.place [] pieces).filter (·.piece.isToken)) lexemes
  /-- The faults are what is wrong among the pieces. -/
  faults : List.Forall₂ (PlacedPiece.ReportsFault source)
    ((Piece.place [] pieces).filter (·.piece.isFault)) scanner.faults.toList
  lines : scanner.stats.lines = lineBehind (source.take scanner.stats.current)
  tokensAscend : handed.Pairwise (·.line ≤ ·.line)
  faultsAscend : scanner.faults.toList.Pairwise (·.line ≤ ·.line)

/-- An unfinished scanner has a token to hand out, if only the end marker. -/
theorem exists_next_eq_some {scanner : Scanner} (unfinished : scanner.finished = false) :
    ∃ token after, scanner.next = (some token, after) := by
  fun_induction Scanner.next scanner with
  | case1 scanner finished =>
    rw [unfinished] at finished
    cases finished
  | case2 => exact ⟨_, _, rfl⟩
  | case3 => exact ⟨_, _, rfl⟩
  | case4 scanner _ _ _ _ _ _ _ _ _ ih => exact ih unfinished

/-- Each call leaves fewer tokens to hand out, until there are no more. -/
theorem finished_or_remaining_handOut_le (scanner : Scanner) (calls : Nat) :
    (scanner.handOut calls).2.finished = true ∨
      (scanner.handOut calls).2.remaining + calls ≤ scanner.remaining := by
  induction calls with
  | zero => exact .inr (Nat.le_refl _)
  | succ calls ih =>
    change (scanner.handOut calls).2.next.2.finished = true ∨
      (scanner.handOut calls).2.next.2.remaining + (calls + 1) ≤ scanner.remaining
    cases finished : (scanner.handOut calls).2.finished with
    | true =>
      rw [next_of_finished finished]
      exact .inl finished
    | false =>
      obtain ⟨token, after, handed⟩ := exists_next_eq_some finished
      have fewer := remaining_next_lt handed
      have bound := ih.resolve_left (by simp [finished])
      rw [handed]
      dsimp only
      exact .inr (by omega)

private theorem finished_handOut (source : String) {calls : Nat} (enough : source.length < calls) :
    ((ofSource source).handOut calls).2.finished = true := by
  have bound := finished_or_remaining_handOut_le (ofSource source) calls
  have atStart : (ofSource source).remaining = source.length + 1 := by
    rw [← String.length_toList]
    rfl
  cases finished : ((ofSource source).handOut calls).2.finished with
  | true => rfl
  | false =>
    rw [finished, remaining, finished, atStart] at bound
    have bound := bound.resolve_left Bool.false_ne_true
    rw [if_neg Bool.false_ne_true] at bound
    omega

/-- After any number of calls of `next`, every token, every fault and the counter of lines bear the
line that the newlines of the source put them on. As many calls as the source has characters, and
one more, are enough for all of it. -/
theorem handOut_linesExact (source : String) (calls : Nat) :
    (∃ pieces, ((ofSource source).handOut calls).2.LinesExact source.toList pieces
      ((ofSource source).handOut calls).1) ∧
    (source.length < calls → ((ofSource source).handOut calls).2.finished = true) := by
  obtain ⟨pieces, ahead, passed⟩ := passed_handOut source calls
  have whole := passed.splits.flatMap_text
  rw [List.flatMap_append] at whole
  refine ⟨⟨pieces, ?_⟩, finished_handOut source⟩
  constructor
  case splits => exact ⟨ahead, passed.splits⟩
  case current => exact passed.position
  case ended =>
    intro finished
    rw [passed.ended finished] at whole
    simpa using whole
  case tokens => exact ⟨_, passed.tokens_eq, PlacedPiece.forall₂_emitsToken passed.splits⟩
  case faults =>
    rw [passed.faults]
    exact PlacedPiece.forall₂_reportsFault passed.splits
  case lines =>
    have current : (ofSource source |>.handOut calls).2.stats.current = _ := passed.position
    rw [current, ← whole, List.take_left]
    exact passed.line
  case tokensAscend => exact passed.tokens_pairwise
  case faultsAscend =>
    rw [passed.faults]
    exact Piece.pairwise_collect_fault? [] pieces

end Scanner
end LoxSyntax
