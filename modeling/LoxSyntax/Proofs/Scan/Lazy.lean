import LoxSyntax.Proofs.Scan.Line

/-! # Scanning on demand

A scanner may be asked for the next token, for all that remain or for its counters, in any order.
What it hands out then is what one scan of the whole source gives, up to where it stands. Two things
carry this: what was handed out and what would still be drained make up the whole scan (`Standing`),
and a finished scanner answers every further call without moving (`answers_of_finished`).
-/

namespace LoxSyntax.Scanner

/-- What a scanner can be asked for. -/
inductive Call where
  | next
  | rest
  | stats
deriving DecidableEq

/-- What a scanner answers. -/
inductive Reply where
  | next (token? : Option Token)
  | rest (tokens : List Token)
  | stats (stats : ScanStats)
deriving DecidableEq

/-- The tokens that a reply hands out. -/
def Reply.handed : Reply → List Token
  | .next token? => token?.toList
  | .rest tokens => tokens
  | .stats _ => []

/-- One call, and the scanner behind it. -/
def answer (scanner : Scanner) : Call → Reply × Scanner
  | .next =>
    let (token?, after) := scanner.next
    (.next token?, after)
  | .rest =>
    let (tokens, after) := scanner.drain
    (.rest tokens, after)
  | .stats => (.stats scanner.stats, scanner)

/-- One call after another. -/
def answers (scanner : Scanner) : List Call → List Reply × Scanner
  | [] => ([], scanner)
  | call :: calls =>
    let (reply, after) := scanner.answer call
    let (replies, last) := after.answers calls
    (reply :: replies, last)

/-- The tokens that calls of a scanner hand out. -/
def handedBy (scanner : Scanner) (calls : List Call) : List Token :=
  (scanner.answers calls).1.flatMap Reply.handed

/-- The scanner behind calls. -/
def behind (scanner : Scanner) (calls : List Call) : Scanner := (scanner.answers calls).2

/-- What a scanner answers when it has nothing more to hand out. -/
def idleReply (scanner : Scanner) : Call → Reply
  | .next => .next none
  | .rest => .rest []
  | .stats => .stats scanner.stats

section Calls

variable {scanner : Scanner} {call : Call} {calls : List Call}

@[simp] theorem answer_next : scanner.answer .next = (.next scanner.next.1, scanner.next.2) := rfl

@[simp] theorem answer_rest : scanner.answer .rest = (.rest scanner.drain.1, scanner.drain.2) := rfl

@[simp] theorem answer_stats : scanner.answer .stats = (.stats scanner.stats, scanner) := rfl

theorem handedBy_cons : scanner.handedBy (call :: calls) =
    (scanner.answer call).1.handed ++ (scanner.answer call).2.handedBy calls :=
  List.flatMap_cons ..

theorem behind_cons : scanner.behind (call :: calls) = (scanner.answer call).2.behind calls := rfl

/-- A scanner is finished, or it can hand out one more token first. -/
theorem demand_induction {motive : Scanner → Prop}
    (finished : ∀ scanner, scanner.finished = true → motive scanner)
    (handed : ∀ scanner token after, scanner.next = (some token, after) → motive after →
      motive scanner) (scanner : Scanner) : motive scanner := by
  cases status : scanner.finished with
  | true => exact finished scanner status
  | false =>
    obtain ⟨token, after, given⟩ := exists_next_eq_some status
    have _fewer := remaining_next_lt given
    exact handed scanner token after given (demand_induction finished handed after)
termination_by scanner.remaining

theorem drain_of_finished (finished : scanner.finished = true) : scanner.drain = ([], scanner) :=
  drain_of_next_none (next_of_finished finished)

private theorem finished_drain (scanner : Scanner) : scanner.drain.2.finished = true := by
  induction scanner using demand_induction with
  | finished scanner finished => rwa [drain_of_finished finished]
  | handed scanner token after given ih => rwa [drain_of_next_some given]

/-- What every call of `next` keeps is kept by draining. -/
theorem drain_preserves {holds : List Token → Scanner → Prop}
    (step : ∀ {tokens scanner}, holds tokens scanner →
      holds (tokens ++ scanner.next.1.toList) scanner.next.2)
    {tokens : List Token} (start : holds tokens scanner) :
    holds (tokens ++ scanner.drain.1) scanner.drain.2 := by
  induction scanner using demand_induction generalizing tokens with
  | finished scanner finished => simpa [drain_of_finished finished] using start
  | handed scanner token after given ih =>
    have onward := step start
    rw [given] at onward
    rw [drain_of_next_some given]
    simpa using ih onward

/-- What every call of `next` keeps is kept by calls of any kind. -/
theorem answers_preserve {holds : List Token → Scanner → Prop}
    (step : ∀ {tokens scanner}, holds tokens scanner →
      holds (tokens ++ scanner.next.1.toList) scanner.next.2)
    {tokens : List Token} (start : holds tokens scanner) :
    holds (tokens ++ scanner.handedBy calls) (scanner.behind calls) := by
  induction calls generalizing scanner tokens with
  | nil => simpa [handedBy, behind, answers] using start
  | cons call calls ih =>
    rw [handedBy_cons, behind_cons, ← List.append_assoc]
    apply ih
    cases call with
    | next => exact step start
    | rest => exact drain_preserves step start
    | stats => simpa [Reply.handed] using start

/-- A finished scanner does not move. -/
theorem answers_of_finished (finished : scanner.finished = true) (calls : List Call) :
    scanner.answers calls = (calls.map scanner.idleReply, scanner) := by
  induction calls with
  | nil => rfl
  | cons call calls ih =>
    have idle : scanner.answer call = (scanner.idleReply call, scanner) := by
      cases call with
      | next => rw [answer_next, next_of_finished finished, idleReply]
      | rest => rw [answer_rest, drain_of_finished finished, idleReply]
      | stats => rfl
    rw [answers, idle]
    dsimp only
    rw [ih, List.map_cons]

private theorem behind_of_finished (finished : scanner.finished = true) (calls : List Call) :
    scanner.behind calls = scanner := by
  rw [behind, answers_of_finished finished]

/-- One call for all that remain finishes a scanner. -/
theorem finished_behind_of_rest_mem (asked : .rest ∈ calls) :
    (scanner.behind calls).finished = true := by
  induction calls generalizing scanner with
  | nil => cases asked
  | cons call calls ih =>
    rw [behind_cons]
    rcases List.mem_cons.mp asked with rfl | asked
    · have finished : (scanner.answer .rest).2.finished = true := scanner.finished_drain
      rwa [behind_of_finished finished]
    · exact ih asked

/-- Each call of `next` hands out a token until the scanner is finished. -/
theorem finished_behind_or_count_le (scanner : Scanner) (calls : List Call) :
    (scanner.behind calls).finished = true ∨
      calls.count .next ≤ (scanner.handedBy calls).length := by
  induction calls generalizing scanner with
  | nil => exact .inr (Nat.zero_le _)
  | cons call calls ih =>
    have others := ih (scanner.answer call).2
    rw [behind_cons, handedBy_cons, List.length_append]
    cases call with
    | next =>
      cases status : scanner.finished with
      | true =>
        have idle : scanner.next.2 = scanner := by rw [next_of_finished status]
        left
        rwa [answer_next, idle, behind_of_finished status]
      | false =>
        obtain ⟨token, after, given⟩ := exists_next_eq_some status
        rw [answer_next, given] at others ⊢
        refine others.imp_right fun bound => ?_
        have fits : (calls.count .next) + 1 ≤ (after.handedBy calls).length + 1 :=
          Nat.succ_le_succ bound
        simpa [Reply.handed, Nat.add_comm] using fits
    | rest =>
      left
      rw [answer_rest, behind_of_finished (finished_drain scanner)]
      exact finished_drain scanner
    | stats => exact others.imp_right fun bound => by simpa [Reply.handed] using bound

end Calls

namespace Passed

variable {source : List Char} {pieces ahead : List Piece} {tokens : List Token}
  {scanner after : Scanner} {token : Token}

theorem length_eq (passed : scanner.Passed source pieces ahead tokens) :
    scanner.position + scanner.rest.length = source.length := by
  rw [passed.position, ← passed.rest.flatMap_text, ← passed.splits.flatMap_text,
    List.flatMap_append, List.length_append]

private theorem rest_eq_nil (passed : scanner.Passed source pieces ahead tokens)
    (finished : scanner.finished = true) : scanner.rest = [] := by
  rw [← passed.rest.flatMap_text, passed.ended finished]
  rfl

theorem ne_eof (passed : scanner.Passed source pieces ahead tokens) :
    ∀ token ∈ Piece.collect Piece.token? (lineBehind []) (pieces ++ ahead), token.kind ≠ .eof :=
  Piece.ne_eof_of_forall₂_emits (passed.splits.emits _)

/-- No piece is an end marker, so only a finished scanner has handed one out. -/
theorem finished_of_eof_mem (passed : scanner.Passed source pieces ahead tokens)
    (member : token ∈ tokens) (marker : token.kind = .eof) : scanner.finished = true := by
  cases status : scanner.finished with
  | true => rfl
  | false =>
    rw [passed.tokens, status, if_neg Bool.false_ne_true, List.append_nil] at member
    have lexical := passed.ne_eof
    rw [Piece.collect_append] at lexical
    exact absurd marker (lexical token (List.mem_append_left _ member))

/-- The faults so far lead those of the whole source. -/
theorem faults_leads {source : String}
    (passed : scanner.Passed source.toList pieces ahead tokens) :
    scanner.faults.toList <+: (Scan.ofSource source).faults := by
  rw [passed.faults, (Scan.ofSource_of_splits passed.splits).2, Piece.collect_append]
  exact List.prefix_append _ _

/-- Behind a piece, the counters show where it stands. -/
theorem extract_pass {piece : Piece} (passed : scanner.Passed source pieces (piece :: ahead) tokens)
    (rest : List Char) :
    source.extract (scanner.pass piece rest).stats.start (scanner.pass piece rest).stats.current =
      piece.text := by
  have begins : (scanner.pass piece rest).stats.start = (pieces.flatMap Piece.text).length :=
    passed.position
  have ends : (scanner.pass piece rest).stats.current =
      (pieces.flatMap Piece.text).length + piece.text.length := by
    rw [← passed.position]
    rfl
  have whole := passed.splits.flatMap_text
  rw [List.flatMap_append, List.flatMap_cons] at whole
  rw [begins, ends, ← whole, List.extract_eq_take_drop, List.drop_left, Nat.add_sub_cancel_left,
    List.take_left]

/-- Right behind a token other than the end marker, the counters show where its lexeme stands. -/
theorem extract_lexeme (passed : scanner.Passed source pieces ahead tokens)
    (handed : scanner.next = (some token, after)) (lexeme : token.kind ≠ .eof) :
    source.extract after.stats.start after.stats.current = token.lexeme.toList := by
  cases status : scanner.finished with
  | true => simp [next_of_finished status] at handed
  | false =>
    cases passed.stops status with
    | atEnd _ _ step =>
      rw [handed] at step
      cases step
      exact absurd rfl lexeme
    | atToken passed _ _ given step =>
      rw [handed] at step
      cases step
      rw [passed.extract_pass, Piece.lexeme_of_token? given]

end Passed

/-- The tokens were handed out, and they and those still to be drained are what is drained from the
source. -/
structure Standing (source : String) (handed : List Token) (scanner : Scanner) : Prop where
  whole : (ofSource source).drain = (handed ++ scanner.drain.1, scanner.drain.2)
  passed : ∃ pieces ahead, scanner.Passed source.toList pieces ahead handed

namespace Standing

variable {source : String} {tokens : List Token} {scanner : Scanner}

theorem start (source : String) : Standing source [] (ofSource source) where
  whole := rfl
  passed := by
    obtain ⟨ahead, splits⟩ := Piece.exists_splits source.toList
    exact ⟨[], ahead, .start splits⟩

theorem next (standing : Standing source tokens scanner) :
    Standing source (tokens ++ scanner.next.1.toList) scanner.next.2 := by
  obtain ⟨whole, pieces, ahead, passed⟩ := standing
  cases status : scanner.finished with
  | true =>
    rw [next_of_finished status, Option.toList_none, List.append_nil]
    exact ⟨whole, pieces, ahead, passed⟩
  | false =>
    obtain ⟨token, after, given⟩ := exists_next_eq_some status
    have onward := passed.next
    rw [given] at onward ⊢
    rw [drain_of_next_some given] at whole
    exact ⟨by simpa using whole, onward⟩

/-- A finished scanner has handed out the whole scan. -/
theorem ofSource_eq (standing : Standing source tokens scanner)
    (finished : scanner.finished = true) :
    Scan.ofSource source = ⟨tokens, scanner.stats, scanner.faults.toList⟩ := by
  rw [Scan.ofSource, standing.whole, drain_of_finished finished, List.append_nil]

theorem tokens_eq (standing : Standing source tokens scanner) :
    (Scan.ofSource source).tokens = tokens ++ scanner.drain.1 :=
  congrArg Prod.fst standing.whole

/-- An unfinished scanner has not handed out as many tokens as the scan has. -/
theorem length_lt (standing : Standing source tokens scanner)
    (unfinished : scanner.finished = false) :
    tokens.length < (Scan.ofSource source).tokens.length := by
  obtain ⟨token, after, given⟩ := exists_next_eq_some unfinished
  rw [standing.tokens_eq, drain_of_next_some given]
  simp

end Standing

theorem standing_behind (source : String) (calls : List Call) :
    Standing source ((ofSource source).handedBy calls) ((ofSource source).behind calls) :=
  answers_preserve Standing.next (Standing.start source)

/-- Calls that hand out everything leave the scanner finished. -/
theorem finished_of_complete {source : String} {calls : List Call}
    (complete : .rest ∈ calls ∨ (Scan.ofSource source).tokens.length ≤ calls.count .next) :
    ((ofSource source).behind calls).finished = true := by
  rcases complete with asked | enough
  · exact finished_behind_of_rest_mem asked
  · cases status : ((ofSource source).behind calls).finished with
    | true => rfl
    | false =>
      have few := (standing_behind source calls).length_lt status
      have bound := (finished_behind_or_count_le (ofSource source) calls).resolve_left
        (by simp [status])
      omega

/-- What calls have handed out, and the scanner behind them, agree with one scan of the whole
source. -/
structure Agrees (source : String) (calls : List Call) (handed : List Token) (scanner : Scanner) :
    Prop where
  tokens : handed <+: (Scan.ofSource source).tokens
  faults : scanner.faults.toList <+: (Scan.ofSource source).faults
  /-- One call for all that remain gives the rest of the scan, and so do as many calls of `next` as
  the scan has tokens. -/
  complete : .rest ∈ calls ∨ (Scan.ofSource source).tokens.length ≤ calls.count .next →
    Scan.ofSource source = ⟨handed, scanner.stats, scanner.faults.toList⟩
  lexeme : ∀ token after, scanner.next = (some token, after) → token.kind ≠ .eof →
    source.toList.extract after.stats.start after.stats.current = token.lexeme.toList
  sourceLength : scanner.stats.sourceLength = source.length
  once : ∃ lexemes line, (Scan.ofSource source).tokens = lexemes ++ [.eof line] ∧
    ∀ token ∈ lexemes, token.kind ≠ .eof
  /-- With the end marker the scan is complete, and no further call changes anything. -/
  ended : ∀ token ∈ handed, token.kind = .eof →
    Scan.ofSource source = ⟨handed, scanner.stats, scanner.faults.toList⟩ ∧
    scanner.stats.current = scanner.stats.sourceLength ∧
    ∀ more, scanner.answers more = (more.map scanner.idleReply, scanner)

/-- However a scanner is asked, what it hands out and reports is what one scan of the whole source
gives, in order and up to where it stands. -/
theorem answers_agree (source : String) (calls : List Call) :
    Agrees source calls ((ofSource source).handedBy calls) ((ofSource source).behind calls) := by
  have standing := standing_behind source calls
  obtain ⟨pieces, ahead, passed⟩ := standing.passed
  constructor
  case tokens => exact ⟨_, standing.tokens_eq.symm⟩
  case faults => exact passed.faults_leads
  case complete =>
    intro complete
    exact standing.ofSource_eq (finished_of_complete complete)
  case lexeme =>
    intro token after given lexeme
    exact passed.extract_lexeme given lexeme
  case sourceLength =>
    rw [← String.length_toList]
    exact passed.length_eq
  case once =>
    exact ⟨_, _, (Scan.ofSource_of_splits passed.splits).1, passed.ne_eof⟩
  case ended =>
    intro token member marker
    have finished := passed.finished_of_eof_mem member marker
    refine ⟨standing.ofSource_eq finished, ?_, answers_of_finished finished⟩
    simp [stats, passed.rest_eq_nil finished]

end LoxSyntax.Scanner
