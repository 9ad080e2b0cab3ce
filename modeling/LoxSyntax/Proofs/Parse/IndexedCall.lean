import LoxSyntax.Proofs.Parse.IndexedRun
import LoxSyntax.Proofs.Session.Report

/-! # Calls of a parser by index

A parser by index answers every sequence of calls as the parser does, however the nestings are
counted that earlier calls have left open. At every moment its counters are in range, and what it
reads next is what a new parser reads in the tokens from there on.
-/

namespace LoxSyntax

namespace Parser

/-- Answers a call. -/
def answer (parser : Parser) (diagnostics : Diagnostics) :
    ParserCall → ParserReply × Parser × Diagnostics
  | .tryParse => (.tryParse parser.tryParse.1, parser.tryParse.2, diagnostics)
  | .parse =>
    let (expression, after, diagnostics) := parser.parse diagnostics
    (.parse expression, after, diagnostics)

/-- Answers calls one after the other. -/
def answers (parser : Parser) (diagnostics : Diagnostics) :
    List ParserCall → List ParserReply × Parser × Diagnostics
  | [] => ([], parser, diagnostics)
  | call :: calls =>
    let (reply, after, diagnostics) := parser.answer diagnostics call
    let (replies, last) := after.answers diagnostics calls
    (reply :: replies, last)

end Parser

/-- The counters stand where the parser stands, inside the tokens. -/
structure Track.Agrees (track : Track) (tokens : List Token) (parser : Parser) : Prop where
  ends : EndsInMarker tokens
  inside : track.now.current < tokens.length
  position : parser.position = track.now.current
  rest : parser.rest = tokens.drop track.now.current

theorem Track.agrees_start (tokens : List Token) :
    Track.Agrees ⟨⟨0, 0⟩, []⟩ (Parser.withEnd tokens) (Parser.ofTokens tokens) where
  ends := Parser.withEnd_eq_append tokens
  inside := (Parser.atCursor_ofTokens tokens).bound
  position := rfl
  rest := rfl

/-- The cursor is at the first end marker or before it, and the count is at most one above the
limit. -/
structure Counters.Bounded (tokens : List Token) (counters : Counters) : Prop where
  current : counters.current ≤ Parser.firstMarker tokens
  depth : counters.depth ≤ maxNesting + 1

namespace IndexedParser

private theorem read_returns {α : Type} {parser : IndexedParser} {reader : Nat → Reader α}
    {result : Except Fault α} {track : Track}
    (gives : Reader.Gives reader parser.track result track) :
    Returns (fun limit => parser.read (reader limit)) (result, { parser with track }) :=
  Returns.bind gives (returns_of_forall fun _ => rfl)

section Agrees

variable {tokens : List Token} {track : Track} {diagnostics : Diagnostics} {parser : Parser}

/-- A reading ends without a breach, as the parser that agrees reads. -/
private theorem exists_tryParse (agrees : track.Agrees tokens parser) (diagnostics : Diagnostics) :
    ∃ after : Track,
      Returns (IndexedParser.mk tokens track diagnostics).tryParse
        (parser.tryParse.1, ⟨tokens, after, diagnostics⟩) ∧
      after.Agrees tokens parser.tryParse.2 ∧ track.LeadsTo tokens after := by
  obtain ⟨result, after, gives, run, leads⟩ :=
    Reader.expression_mirrored agrees.ends agrees.inside
  have inside := leads.current_lt agrees.ends agrees.inside
  have moved : parser.position + (parser.rest.length - (tokens.drop after.now.current).length) =
      after.now.current := by
    have start := agrees.inside
    have consumed := leads.current_le
    rw [agrees.rest, agrees.position, List.length_drop, List.length_drop]
    omega
  rw [← agrees.rest] at run
  have read : parser.tryParse = (result, ⟨tokens.drop after.now.current, after.now.current⟩) := by
    simp only [Parser.tryParse, run, moved]
  rw [read]
  exact ⟨after, read_returns gives, ⟨agrees.ends, inside, rfl, rfl⟩, leads⟩

/-- A reading that reports does what one that does not report does, and reports its fault. -/
private theorem parse_returns {after : Track}
    (returns : Returns (IndexedParser.mk tokens track diagnostics).tryParse
      (parser.tryParse.1, ⟨tokens, after, diagnostics⟩)) :
    Returns (IndexedParser.mk tokens track diagnostics).parse (parser.tryParse.1.toOption,
      ⟨tokens, after, diagnostics.pushAll parser.fault?.toList⟩) := by
  refine returns.bind (returns_of_forall fun _ => ?_)
  rw [Parser.fault?]
  cases parser.tryParse.1 <;> rfl

private theorem exists_answer (agrees : track.Agrees tokens parser) (diagnostics : Diagnostics)
    (call : ParserCall) : ∃ after : Track,
      Returns ((IndexedParser.mk tokens track diagnostics).answer call)
        ((parser.answer diagnostics call).1,
          ⟨tokens, after, (parser.answer diagnostics call).2.2⟩) ∧
      after.Agrees tokens (parser.answer diagnostics call).2.1 ∧ track.LeadsTo tokens after := by
  obtain ⟨after, returns, agreesAfter, leads⟩ := exists_tryParse agrees diagnostics
  refine ⟨after, ?_, ?_, leads⟩
  · cases call with
    | tryParse => exact returns.bind (returns_of_forall fun _ => rfl)
    | parse =>
      rw [Parser.answer, Parser.parse_eq]
      exact (parse_returns returns).bind (returns_of_forall fun _ => rfl)
  · cases call with
    | tryParse => exact agreesAfter
    | parse => rwa [Parser.answer, Parser.parse_eq]

/-- Calls are answered without a breach, as the parser that agrees answers them. -/
private theorem exists_answers (agrees : track.Agrees tokens parser) (diagnostics : Diagnostics)
    (calls : List ParserCall) : ∃ after : Track,
      Returns ((IndexedParser.mk tokens track diagnostics).answers calls)
        ((parser.answers diagnostics calls).1,
          ⟨tokens, after, (parser.answers diagnostics calls).2.2⟩) ∧
      after.Agrees tokens (parser.answers diagnostics calls).2.1 ∧
      track.LeadsTo tokens after := by
  induction calls generalizing track diagnostics parser with
  | nil => exact ⟨track, returns_of_forall fun _ => rfl, agrees, .refl _⟩
  | cons call calls ih =>
    obtain ⟨middle, first, agreesMiddle, leads⟩ := exists_answer agrees diagnostics call
    obtain ⟨after, others, agreesAfter, leadsOn⟩ :=
      ih agreesMiddle (parser.answer diagnostics call).2.2
    exact ⟨after, first.bind (others.bind (returns_of_forall fun _ => rfl)), agreesAfter,
      leads.trans leadsOn⟩

end Agrees

/-- At every moment so far, the counters were in range and never went back; the parser tells the
first end marker by where it stands; and whatever call succeeds next moves it on. -/
structure InRange (tokens : List Token) (parser : IndexedParser) : Prop where
  bounds : ∀ counters ∈ parser.track.all, counters.Bounded tokens
  forward : parser.track.all.Pairwise fun later earlier => earlier.current ≤ later.current
  atEnd : parser.atEnd = pure (.ok (decide (parser.position = Parser.firstMarker tokens)), parser)
  progress : ∀ call reply after, Returns (parser.answer call) (reply, after) →
    reply.Succeeds → parser.position < after.position

end IndexedParser

section Range

variable {tokens : List Token} {counters next : Counters} {track after : Track}

/-- A step keeps the counters in range. -/
theorem Counters.Step.bounded (step : counters.Step (Parser.withEnd tokens) next)
    (bounded : counters.Bounded tokens) : next.Bounded tokens := by
  obtain ⟨place, depth⟩ := bounded
  cases step with
  | advance here inside =>
    have notFirst := mt (Parser.kind_eq_eof_iff here place).mpr inside
    exact ⟨Nat.lt_of_le_of_ne place notFirst, depth⟩
  | enter room => exact ⟨place, Nat.succ_le_succ room⟩
  | leave opened =>
    rw [opened] at depth
    exact ⟨place, Nat.le_of_succ_le depth⟩
  | restart => exact ⟨place, Nat.zero_le _⟩

/-- What holds of the first counters and is kept by every step holds of all counters of a track. -/
private theorem Track.LeadsTo.forall_all {holds : Counters → Prop}
    (leads : track.LeadsTo tokens after)
    (step : ∀ counters next, counters.Step tokens next → holds counters → holds next)
    (start : ∀ counters ∈ track.all, holds counters) : ∀ counters ∈ after.all, holds counters := by
  induction leads with
  | refl => exact start
  | tail leads moved ih =>
    obtain ⟨next, taken, rfl⟩ := moved
    exact List.forall_mem_cons.mpr ⟨step _ _ taken (ih _ List.mem_cons_self), ih⟩

private theorem Track.LeadsTo.pairwise_all (leads : track.LeadsTo tokens after)
    (start : track.all.Pairwise fun later earlier => earlier.current ≤ later.current) :
    after.all.Pairwise fun later earlier => earlier.current ≤ later.current := by
  induction leads with
  | refl => exact start
  | @tail middle after leads moved ih =>
    obtain ⟨next, taken, rfl⟩ := moved
    refine List.pairwise_cons.mpr ⟨?_, ih⟩
    intro earlier member
    rcases List.mem_cons.mp member with rfl | older
    · exact taken.current_le
    · exact Nat.le_trans ((List.pairwise_cons.mp ih).1 earlier older) taken.current_le

end Range

/-- A reading that succeeds consumes a token. -/
private theorem Parser.position_lt_of_ok {parser after : Parser} {expr : Expr}
    (read : parser.tryParse = (.ok expr, after)) : parser.position < after.position := by
  have run := run_of_tryParse read
  obtain ⟨⟨consumed, split, spelled⟩, _⟩ := Rule.expression_sound maxNesting run
  rw [tryParse_of_run split run] at read
  rw [← (Prod.mk.inj read).2]
  have positive := expr.width_pos
  rw [← spelled.length_eq] at positive
  simp only
  omega

/-- A parser reads what a new one reads in the tokens that it has not consumed, and as far. -/
theorem Parser.tryParse_afresh {parser : Parser}
    (ends : Parser.withEnd parser.rest = parser.rest) :
    (Parser.ofTokens parser.rest).tryParse.1 = parser.tryParse.1 ∧
      parser.tryParse.2.position =
        parser.position + (Parser.ofTokens parser.rest).tryParse.2.position := by
  simp [Parser.tryParse, Parser.ofTokens, ends]

/-- A call that succeeds consumes a token. -/
private theorem Parser.position_lt_of_succeeds {parser : Parser} {diagnostics : Diagnostics}
    {call : ParserCall} (succeeds : (parser.answer diagnostics call).1.Succeeds) :
    parser.position < (parser.answer diagnostics call).2.1.position := by
  rcases read : parser.tryParse with ⟨result, after⟩
  cases call with
  | tryParse =>
    obtain ⟨expr, found⟩ := succeeds
    simp only [answer, read] at found ⊢
    rw [found] at read
    exact position_lt_of_ok read
  | parse =>
    rw [answer, parse_eq, read] at succeeds ⊢
    obtain ⟨expr, found⟩ := succeeds
    cases result with
    | ok expr => exact position_lt_of_ok read
    | error fault => cases found

namespace IndexedParser

variable {tokens : List Token} {track : Track} {diagnostics : Diagnostics} {parser : Parser}

private theorem progress (agrees : track.Agrees tokens parser) {call : ParserCall}
    {reply : ParserReply}
    {after : IndexedParser}
    (returns : Returns ((IndexedParser.mk tokens track diagnostics).answer call) (reply, after))
    (succeeds : reply.Succeeds) : track.now.current < after.position := by
  obtain ⟨behind, answered, agreesBehind, _⟩ := exists_answer agrees diagnostics call
  obtain ⟨rfl, rfl⟩ := Prod.mk.inj (returns.unique answered)
  have further := Parser.position_lt_of_succeeds succeeds
  rwa [agreesBehind.position, agrees.position] at further

private theorem atEnd_eq (inside : track.now.current < (Parser.withEnd tokens).length)
    (bounded : track.now.Bounded tokens) :
    (IndexedParser.mk (Parser.withEnd tokens) track diagnostics).atEnd =
      pure (.ok (decide (track.now.current = Parser.firstMarker tokens)),
        ⟨Parser.withEnd tokens, track, diagnostics⟩) := by
  have here := List.getElem?_eq_getElem inside
  have told : decide (_ = Kind.eof) = decide (track.now.current = Parser.firstMarker tokens) :=
    decide_eq_decide.mpr (Parser.kind_eq_eof_iff here bounded.current)
  have gives := Reader.gives_atEnd here
  rw [told] at gives
  have returns : Returns
      (fun _ => (IndexedParser.mk (Parser.withEnd tokens) track diagnostics).atEnd) _ :=
    read_returns gives
  obtain ⟨enough, returns⟩ := returns
  exact returns enough (Nat.le_refl enough)

/-- Every sequence of calls ends, and without a breach: no token outside the list is read, and no
count goes below zero. The counters are in range at every moment, and the replies are those of the
parser. -/
theorem answers_inRange (tokens : List Token) (diagnostics : Diagnostics)
    (calls : List ParserCall) : ∃ replies indexed running,
      Returns ((ofTokens tokens diagnostics).answers calls) (replies, indexed) ∧
      (Parser.ofTokens tokens).answers diagnostics calls = (replies, running, indexed.diagnostics) ∧
      indexed.track.Agrees indexed.tokens running ∧
      indexed.InRange tokens := by
  obtain ⟨track, returns, agrees, leads⟩ :=
    exists_answers (Track.agrees_start tokens) diagnostics calls
  have bounds : ∀ counters ∈ track.all, counters.Bounded tokens := by
    apply leads.forall_all fun _ _ step => step.bounded
    intro counters member
    obtain rfl := List.mem_singleton.mp member
    exact ⟨Nat.zero_le _, Nat.zero_le _⟩
  refine ⟨_, _, _, returns, rfl, agrees, bounds, ?forward, ?atEnd, ?progress⟩
  case forward => exact leads.pairwise_all (List.pairwise_singleton _ _)
  case atEnd =>
    exact atEnd_eq agrees.inside (bounds track.now List.mem_cons_self)
  case progress =>
    intro call reply after answered succeeds
    exact progress agrees answered succeeds

/-- The parser comes to the result and its counters to the track, and so does a new parser over the
tokens from its position on. If the reading is to report, it reports its fault and nothing else. -/
structure Resumes (parser : IndexedParser) (result : Except Fault Expr) (track : Track) : Prop where
  tryParse : Returns parser.tryParse (result, { parser with track })
  afresh : ∀ diagnostics, ∃ fresh,
    Returns (ofTokens (parser.tokens.drop parser.position) diagnostics).tryParse (result, fresh) ∧
      track.now.current = parser.position + fresh.position ∧ fresh.diagnostics = diagnostics
  parsed : ∀ expr, result = .ok expr → Returns parser.parse (some expr, { parser with track })
  reported : ∀ fault, result = .error fault →
    Returns parser.parse (none, ⟨parser.tokens, track, parser.diagnostics.push fault⟩)

/-- The last token stays the last when some before it are left out. -/
private theorem withEnd_drop (ends : EndsInMarker tokens) {index : Nat}
    (inside : index < tokens.length) :
    Parser.withEnd (tokens.drop index) = tokens.drop index := by
  obtain ⟨before, last, rfl, marked⟩ := ends
  have within : index ≤ before.length := by
    simp only [List.length_append, List.length_singleton] at inside
    omega
  rw [List.drop_append_of_le_length within]
  simp [Parser.withEnd, marked]

/-- A parser by index that agrees with a parser resumes, however many nestings it counts as open. -/
private theorem exists_resumes (agrees : track.Agrees tokens parser) (diagnostics : Diagnostics) :
    ∃ after : Track, Resumes ⟨tokens, track, diagnostics⟩ parser.tryParse.1 after ∧
      after.Agrees tokens parser.tryParse.2 := by
  obtain ⟨after, read, agreesAfter, _⟩ := exists_tryParse agrees diagnostics
  have reports := parse_returns read
  rw [Parser.fault?] at reports
  refine ⟨after, ⟨read, ?afresh, ?parsed, ?reported⟩, agreesAfter⟩
  case afresh =>
    intro others
    have ends := withEnd_drop agrees.ends agrees.inside
    rw [← agrees.rest] at ends
    obtain ⟨same, further⟩ := Parser.tryParse_afresh ends
    obtain ⟨stop, readAfresh, agreesAfresh, _⟩ :=
      exists_tryParse (Track.agrees_start parser.rest) others
    rw [same] at readAfresh
    rw [agreesAfter.position, agreesAfresh.position, agrees.position] at further
    refine ⟨⟨Parser.withEnd parser.rest, stop, others⟩, ?_, further, rfl⟩
    rw [position, ← agrees.rest]
    exact readAfresh
  case parsed =>
    intro expr done
    rwa [done] at reports
  case reported =>
    intro fault failed
    rwa [failed] at reports

/-- Behind any calls, a parser by index resumes: its next reading is that of a new one over the
tokens from its position on, whatever earlier readings have left open. It is what the parser reads
behind the same calls. -/
theorem answers_resume (tokens : List Token) (diagnostics : Diagnostics)
    (calls : List ParserCall) : ∃ replies indexed running result track,
      Returns ((ofTokens tokens diagnostics).answers calls) (replies, indexed) ∧
      (Parser.ofTokens tokens).answers diagnostics calls = (replies, running, indexed.diagnostics) ∧
      indexed.tokens = Parser.withEnd tokens ∧
      indexed.Resumes result track ∧
      running.tryParse.1 = result ∧ track.Agrees indexed.tokens running.tryParse.2 := by
  obtain ⟨middle, returns, agrees, _⟩ :=
    exists_answers (Track.agrees_start tokens) diagnostics calls
  obtain ⟨track, resumes, agreesAfter⟩ := exists_resumes agrees _
  exact ⟨_, _, _, _, track, returns, rfl, rfl, resumes, rfl, agreesAfter⟩

end IndexedParser
end LoxSyntax
