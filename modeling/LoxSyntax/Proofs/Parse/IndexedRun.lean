import LoxSyntax.Proofs.Parse.Beginning
import LoxSyntax.Proofs.Parse.IndexedStep

/-! # Runs of a parser by index

A reader by index does what the rule of its level does: it ends, it breaches nothing, it comes to
the result of the rule and stops where the rule stops. `Reader.Mirrors` states this for a reader and
a rule under an allowance, which is what the nesting limit leaves of the counted depth; it is
carried up the ladder and from an allowance to the next as `Rule.expression_induction` asks.
-/

namespace LoxSyntax

namespace Reader

/-- The reader does from these counters what the run does with the tokens from there on: it comes to
the same result and stops before the same token. If it succeeds, it has closed what it opened. -/
structure Mirrored (tokens : List Token) (run : List Token → Reading) (reader : Nat → Reader Expr)
    (track : Track) (result : Except Fault Expr) (after : Track) : Prop where
  gives : Gives reader track result after
  run : run (tokens.drop track.now.current) = (result, tokens.drop after.now.current)
  leads : track.LeadsTo tokens after
  closed : ∀ expr, result = .ok expr → after.now.depth = track.now.depth

/-- With so many nestings left to open, the reader does what the run does. -/
def Mirrors (tokens : List Token) (allowance : Nat) (run : List Token → Reading)
    (reader : Nat → Reader Expr) : Prop :=
  ∀ track : Track, track.now.current < tokens.length →
    track.now.depth + allowance = maxNesting → ∃ result after,
      Mirrored tokens run reader track result after

private theorem mem_operators_iff (kind : Kind) (level : Level) :
    kind ∈ operators level ↔ kind.binaryLevel? = some level := by
  cases level <;> cases kind <;> simp [operators, Kind.binaryLevel?]

private theorem eof_not_mem_operators (level : Level) : .eof ∉ operators level := by
  cases level <;> decide

section Rules

variable {tokens : List Token} {allowance : Nat} {track after : Track} {next : Token}

private theorem lt_of_here (here : tokens[track.now.current]? = some next) :
    track.now.current < tokens.length :=
  (List.getElem?_eq_some_iff.mp here).1

private theorem drop_of_here (here : tokens[track.now.current]? = some next) :
    tokens.drop track.now.current = next :: tokens.drop track.advance.now.current := by
  obtain ⟨inside, rfl⟩ := List.getElem?_eq_some_iff.mp here
  exact List.drop_eq_getElem_cons inside

/-- A reading that fails has nothing to close. -/
theorem Mirrored.ofFault {read : List Token → Reading} {reader : Nat → Reader Expr} {fault : Fault}
    (gives : Gives reader track (.error fault) after)
    (run : read (tokens.drop track.now.current) = (.error fault, tokens.drop after.now.current))
    (leads : track.LeadsTo tokens after) :
    Mirrored tokens read reader track (.error fault) after := by
  refine ⟨gives, run, leads, ?_⟩
  intro expr done
  cases done

/-- The loop of a level is that of the rule. Each round consumes an operator, so the tokens ahead
get fewer. -/
theorem joinOn_mirrors (ends : EndsInMarker tokens) {operand : Rule} {loosest : Level}
    {tighter : List Level}
    (mirrors : Mirrors tokens allowance operand.run (level tokens · tighter)) (left : Expr) :
    Mirrors tokens allowance (operand.joinRight loosest left)
      (joinOn tokens · loosest tighter left) := by
  intro track inside room
  have here := List.getElem?_eq_getElem inside
  generalize tokens[track.now.current] = next at here
  by_cases joins : next.kind.binaryLevel? = some loosest
  · have member := (mem_operators_iff next.kind loosest).mpr joins
    have matched := gives_matchKinds_true here (eof_not_mem_operators loosest) member
    have advance := Track.LeadsTo.advance here (Kind.ne_eof_of_binaryLevel? joins)
    have advanceInside := advance.current_lt ends inside
    obtain ⟨result, middle, gives, run, leads, closed⟩ := mirrors _ advanceInside room
    cases result with
    | ok right =>
      have _further := leads.current_le
      obtain ⟨result, after, givesOn, runOn, leadsOn, closedOn⟩ :=
        joinOn_mirrors ends mirrors (.binary left next right) middle
          (leads.current_lt ends advanceInside) ((closed right rfl).symm ▸ room)
      refine ⟨result, after, ?_, ?_, (advance.trans leads).trans leadsOn, ?_⟩
      · apply gives_call_iff.mpr
        exact matched.bind ((gives_previous rfl here).bind (gives.bind givesOn))
      · rw [drop_of_here here, Rule.joinRight_of_ok joins run, runOn]
      · intro expr done
        exact (closedOn expr done).trans (closed right rfl)
    | error fault =>
      refine ⟨.error fault, middle, .ofFault ?_ ?_ (advance.trans leads)⟩
      · apply gives_call_iff.mpr
        exact matched.bind ((gives_previous rfl here).bind gives.bind_error)
      · rw [drop_of_here here, Rule.joinRight_of_error joins run]
  · have other := mt (mem_operators_iff next.kind loosest).mp joins
    refine ⟨.ok left, track, ?_, ?_, .refl track, fun _ _ => rfl⟩
    · apply gives_call_iff.mpr
      exact (gives_matchKinds_false here (eof_not_mem_operators loosest) other).bind
        (gives_pure left track)
    · exact Rule.joinRight_of_stop (by rwa [drop_of_here here])
termination_by track => tokens.length - track.now.current
decreasing_by
  simp only [Track.advance, Track.move, Counters.advanced] at _further
  omega

private theorem level_mirrors (ends : EndsInMarker tokens) {operand : Rule} {loosest : Level}
    {tighter : List Level}
    (mirrors : Mirrors tokens allowance operand.run (level tokens · tighter)) :
    Mirrors tokens allowance (operand.chain loosest).run (level tokens · (loosest :: tighter)) := by
  intro track inside room
  obtain ⟨result, middle, gives, run, leads, closed⟩ := mirrors track inside room
  cases result with
  | ok left =>
    obtain ⟨result, after, givesOn, runOn, leadsOn, closedOn⟩ :=
      joinOn_mirrors ends mirrors left middle (leads.current_lt ends inside)
        ((closed left rfl).symm ▸ room)
    refine ⟨result, after, ?_, ?_, leads.trans leadsOn, ?_⟩
    · apply gives_call_iff.mpr
      exact gives.bind givesOn
    · rw [Rule.chain_run_of_ok run, runOn]
    · intro expr done
      exact (closedOn expr done).trans (closed left rfl)
  | error fault =>
    refine ⟨.error fault, middle, .ofFault ?_ (Rule.chain_run_of_error run) leads⟩
    apply gives_call_iff.mpr
    exact gives.bind_error

/-- The nested rule, if there is one, is mirrored with one nesting less to open; if there is none,
no nesting may be opened. -/
structure MirrorsNested (tokens : List Token) (allowance : Nat) (inner : Option Rule) : Prop where
  none : inner = none → allowance = 0
  some : ∀ rule, inner = some rule → ∃ smaller, allowance = smaller + 1 ∧
    Mirrors tokens smaller rule.run (unary tokens) ∧
    Mirrors tokens smaller rule.ladder.run (level tokens · levels)

/-- What entering one more nesting comes to. -/
inductive Entered (tokens : List Token) (track : Track) : Option Rule → Prop where
  | full
      (gives : Gives (fun _ => enter tokens) track
        (.error (.atToken (nextToken (tokens.drop track.now.current)) .tooMuchNesting))
        track.nest) :
      Entered tokens track none
  | inside {rule : Rule} {smaller : Nat}
      (gives : Gives (fun _ => enter tokens) track (.ok ()) track.nest)
      (operand : Mirrors tokens smaller rule.run (unary tokens))
      (expression : Mirrors tokens smaller rule.ladder.run (level tokens · levels))
      (room : track.nest.now.depth + smaller = maxNesting) : Entered tokens track (some rule)

private theorem MirrorsNested.entered {inner : Option Rule}
    (nested : MirrorsNested tokens allowance inner)
    (inside : track.now.current < tokens.length)
    (room : track.now.depth + allowance = maxNesting) : Entered tokens track inner := by
  cases inner with
  | none =>
    obtain rfl := nested.none rfl
    exact .full (gives_enter_full (Nat.le_of_eq room.symm) inside)
  | some rule =>
    obtain ⟨smaller, rfl, operand, expression⟩ := nested.some rule rfl
    have bound : track.now.depth < maxNesting := by omega
    have fits : track.now.depth + 1 + smaller = maxNesting := by omega
    exact .inside (gives_enter bound) operand expression fits

private theorem isUnaryOperator_iff (kind : Kind) :
    kind.isUnaryOperator = true ↔ kind ∈ [Kind.bang, Kind.minus] := by
  cases kind <;> simp [Kind.isUnaryOperator]

private theorem unary_of_operator (ends : EndsInMarker tokens) {inner : Option Rule}
    (nested : MirrorsNested tokens allowance inner)
    (room : track.now.depth + allowance = maxNesting)
    (here : tokens[track.now.current]? = some next)
    (stands : next.kind.isUnaryOperator = true) : ∃ result after,
      Mirrored tokens (Rule.runOperand inner) (unary tokens) track result after := by
  have matched := gives_matchKinds_true here (by decide) ((isUnaryOperator_iff _).mp stands)
  have operator : Gives (fun _ => previous tokens) track.advance (.ok next) track.advance :=
    gives_previous rfl here
  have advance := Track.LeadsTo.advance here (Kind.ne_eof_of_isUnaryOperator stands)
  have opened := advance.trans (.nest (Nat.le.intro room))
  have reads : Rule.runOperand inner (tokens.drop track.now.current) =
      Rule.underOperator inner next (tokens.drop track.advance.now.current) := by
    rw [drop_of_here here]
    exact Rule.runOperand_unary stands
  have entered : Entered tokens track.advance inner :=
    nested.entered (advance.current_lt ends (lt_of_here here)) room
  cases entered with
  | full entering =>
    refine ⟨_, track.advance.nest, .ofFault ?_ reads opened⟩
    apply gives_call_iff.mpr
    exact matched.bind (operator.bind entering.bind_error)
  | @inside rule smaller entering operand expression fits =>
    obtain ⟨result, middle, gives, run, leads, closed⟩ :=
      operand _ (opened.current_lt ends (lt_of_here here)) fits
    have run : rule.run (tokens.drop track.advance.now.current) = _ := run
    cases result with
    | ok right =>
      have depth : middle.now.depth = track.now.depth + 1 := closed right rfl
      refine ⟨.ok (.unary next right), middle.move ⟨middle.now.current, track.now.depth⟩, ?_, ?_,
        (opened.trans leads).trans (.move (.leave depth)), fun _ _ => rfl⟩
      · apply gives_call_iff.mpr
        exact matched.bind (operator.bind (entering.bind (gives.bind
          ((gives_leave depth).bind (gives_pure _ _)))))
      · rw [reads]
        simp [Rule.underOperator, run, Track.move]
    | error fault =>
      refine ⟨.error fault, middle, .ofFault ?_ ?_ (opened.trans leads)⟩
      · apply gives_call_iff.mpr
        exact matched.bind (operator.bind (entering.bind gives.bind_error))
      · rw [reads]
        simp [Rule.underOperator, run]

/-- A kind is looked up by asking for each of the listed ones in turn. -/
theorem gives_constant (here : tokens[track.now.current]? = some next)
    (constants : List (Kind × Value)) (inside : ∀ pair ∈ constants, pair.1 ≠ .eof) :
    Gives (fun _ => constant tokens constants) track (.ok (constants.lookup next.kind))
      (if (constants.lookup next.kind).isSome then track.advance else track) := by
  induction constants with
  | nil => exact gives_pure none track
  | cons pair others ih =>
    obtain ⟨notEnd, notEnds⟩ := List.forall_mem_cons.mp inside
    have single : Kind.eof ∉ [pair.1] := by simpa using notEnd.symm
    by_cases same : next.kind = pair.1
    · have matched := gives_matchKinds_true here single (by simp [same])
      rw [List.lookup_cons, same, beq_self_eq_true]
      exact matched.bind (gives_pure _ _)
    · have unmatched := gives_matchKinds_false here single (by simpa using same)
      rw [List.lookup_cons, beq_false_of_ne same]
      exact unmatched.bind (ih notEnds)

private theorem gives_constant_some (here : tokens[track.now.current]? = some next) {value : Value}
    (found : constants.lookup next.kind = some value) :
    Gives (fun _ => constant tokens constants) track (.ok (some value)) track.advance := by
  have gives := gives_constant here constants (by decide)
  simp only [found, Option.isSome_some, if_true] at gives
  exact gives

private theorem gives_constant_none (here : tokens[track.now.current]? = some next)
    (missing : constants.lookup next.kind = none) :
    Gives (fun _ => constant tokens constants) track (.ok none) track := by
  have gives := gives_constant here constants (by decide)
  simp only [missing, Option.isSome_none, Bool.false_eq_true, if_false] at gives
  exact gives

private theorem gives_consume (here : tokens[track.now.current]? = some next) {kind : Kind}
    (same : next.kind = kind) (notEnd : kind ≠ .eof) (reason : SyntaxReason) :
    Gives (fun _ => consume tokens kind reason) track (.ok next) track.advance := by
  apply (gives_check here notEnd).bind
  rw [if_pos (by simpa using same)]
  exact gives_advance here (same ▸ notEnd)

private theorem gives_consume_error (here : tokens[track.now.current]? = some next) {kind : Kind}
    (other : next.kind ≠ kind) (notEnd : kind ≠ .eof) (reason : SyntaxReason) :
    Gives (fun _ => consume tokens kind reason) track
      (.error (.atToken (nextToken (tokens.drop track.now.current)) reason)) track := by
  apply (gives_check here notEnd).bind
  rw [if_neg (by simpa using other)]
  exact gives_failHere (lt_of_here here) reason

private theorem carries_of_lookup {value : Value}
    (found : constants.lookup next.kind = some value) :
    next.Carries value := by
  cases kind : next.kind with
  | keyword word =>
    rw [kind] at found
    cases word <;> cases found
    · exact .falseWord kind
    · exact .nilWord kind
    · exact .trueWord kind
  | _ =>
    rw [kind] at found
    cases found

private theorem lookup_eq_none {kind : Kind} (start : kind ∉ Kind.operandStarts) :
    constants.lookup kind = none := by
  have starts : ∀ pair ∈ constants, pair.1 ∈ Kind.operandStarts := by decide
  rw [List.lookup_eq_none_iff]
  intro pair member
  rw [bne_iff_ne]
  rintro rfl
  exact start (starts pair member)

private theorem not_mem_operandStarts {kind : Kind} (notUnary : ¬ kind.isUnaryOperator = true)
    (notParen : kind ≠ .leftParen) (notConstant : constants.lookup kind = none)
    (notValued : ¬ (kind = .number ∨ kind = .string)) : kind ∉ Kind.operandStarts := by
  have known : ∀ kind ∈ Kind.operandStarts, kind.isUnaryOperator = true ∨ kind = .leftParen ∨
      (constants.lookup kind).isSome = true ∨ kind = .number ∨ kind = .string := by
    decide
  intro start
  rcases known kind start with stands | opens | found | valued
  · exact notUnary stands
  · exact notParen opens
  · simp [notConstant] at found
  · exact notValued valued

private theorem primary_of_constant {inner : Option Rule} {value : Value}
    (here : tokens[track.now.current]? = some next)
    (found : constants.lookup next.kind = some value) : ∃ result after,
      Mirrored tokens (Rule.runOperand inner) (primary tokens) track result after := by
  have carried := carries_of_lookup found
  refine ⟨.ok (.literal value), track.advance, ?_, ?_, .advance here carried.ne_eof, fun _ _ => rfl⟩
  · apply gives_call_iff.mpr
    exact (gives_constant_some here found).bind (gives_pure _ _)
  · rw [drop_of_here here, Rule.runOperand_literal carried]

private theorem primary_of_valued {inner : Option Rule}
    (here : tokens[track.now.current]? = some next)
    (valued : next.kind = .number ∨ next.kind = .string) : ∃ result after,
      Mirrored tokens (Rule.runOperand inner) (primary tokens) track result after := by
  have missing : constants.lookup next.kind = none := by
    rcases valued with number | string
    · rw [number]
      rfl
    · rw [string]
      rfl
  have noConstant := gives_constant_none here missing
  have matched :
      Gives (fun _ => matchKinds tokens [.number, .string]) track (.ok true) track.advance :=
    gives_matchKinds_true here (by decide) (by simpa using valued)
  have token : Gives (fun _ => previous tokens) track.advance (.ok next) track.advance :=
    gives_previous rfl here
  have notEnd : next.kind ≠ .eof := by
    rintro ends
    simp [ends] at valued
  have advance := Track.LeadsTo.advance here notEnd
  cases carried : next.literal with
  | some literal =>
    have carries : next.Carries literal.value :=
      valued.elim (.number · carried) (.string · carried)
    refine ⟨.ok (.literal literal.value), track.advance, ?_, ?_, advance, fun _ _ => rfl⟩
    · apply gives_call_iff.mpr
      refine noConstant.bind (matched.bind (token.bind ?_))
      simp only [carried]
      exact gives_pure _ _
    · rw [drop_of_here here, Rule.runOperand_literal carries]
  | none =>
    refine ⟨.error (.atToken next .literalWithoutValue), track.advance, .ofFault ?_ ?_ advance⟩
    · apply gives_call_iff.mpr
      refine noConstant.bind (matched.bind (token.bind ?_))
      simp only [carried]
      exact gives_throw _ _
    · rw [drop_of_here here, Rule.runOperand_valueless valued carried]

private theorem primary_of_paren (ends : EndsInMarker tokens) {inner : Option Rule}
    (nested : MirrorsNested tokens allowance inner)
    (room : track.now.depth + allowance = maxNesting)
    (here : tokens[track.now.current]? = some next)
    (opens : next.kind = .leftParen) : ∃ result after,
      Mirrored tokens (Rule.runOperand inner) (primary tokens) track result after := by
  have noConstant := gives_constant_none here (by rw [opens]; rfl)
  have noLiteral : Gives (fun _ => matchKinds tokens [.number, .string]) track (.ok false) track :=
    gives_matchKinds_false here (by decide) (by simp [opens])
  have matched : Gives (fun _ => matchKinds tokens [.leftParen]) track (.ok true) track.advance :=
    gives_matchKinds_true here (by decide) (by simp [opens])
  have advance := Track.LeadsTo.advance here (by simp [opens])
  have opened := advance.trans (.nest (Nat.le.intro room))
  have reads : Rule.runOperand inner (tokens.drop track.now.current) =
      Rule.underParen inner (tokens.drop track.advance.now.current) := by
    rw [drop_of_here here]
    exact Rule.runOperand_paren opens
  have entered : Entered tokens track.advance inner :=
    nested.entered (advance.current_lt ends (lt_of_here here)) room
  cases entered with
  | full entering =>
    refine ⟨_, track.advance.nest, .ofFault ?_ reads opened⟩
    apply gives_call_iff.mpr
    exact noConstant.bind (noLiteral.bind (matched.bind entering.bind_error))
  | @inside rule smaller entering operand expression fits =>
    have openedInside := opened.current_lt ends (lt_of_here here)
    obtain ⟨result, middle, gives, run, leads, closed⟩ := expression _ openedInside fits
    have run : rule.ladder.run (tokens.drop track.advance.now.current) = _ := run
    cases result with
    | ok nested =>
      have depth : middle.advance.now.depth = track.now.depth + 1 := closed nested rfl
      obtain ⟨closing, there⟩ : ∃ closing, tokens[middle.now.current]? = some closing :=
        ⟨_, List.getElem?_eq_getElem (leads.current_lt ends openedInside)⟩
      rw [drop_of_here there] at run
      by_cases closes : closing.kind = .rightParen
      · have further := Track.LeadsTo.advance there (by simp [closes])
        refine ⟨.ok (.grouping nested),
          middle.advance.move ⟨middle.advance.now.current, track.now.depth⟩, ?_, ?_,
          ((opened.trans leads).trans further).trans (.move (.leave depth)), fun _ _ => rfl⟩
        · apply gives_call_iff.mpr
          exact noConstant.bind (noLiteral.bind (matched.bind (entering.bind (gives.bind
            ((gives_consume there closes (by decide) _).bind
              ((gives_leave depth).bind (gives_pure _ _)))))))
        · rw [reads]
          simp [Rule.underParen, run, closes, Track.move]
      · refine ⟨.error (.atToken (nextToken (tokens.drop middle.now.current)) .expectedCloseParen),
          middle, .ofFault ?_ ?_ (opened.trans leads)⟩
        · apply gives_call_iff.mpr
          exact noConstant.bind (noLiteral.bind (matched.bind (entering.bind (gives.bind
            (gives_consume_error there closes (by decide) _).bind_error))))
        · rw [reads]
          simp [Rule.underParen, run, closes, Reading.failAt, drop_of_here there]
    | error fault =>
      refine ⟨.error fault, middle, .ofFault ?_ ?_ (opened.trans leads)⟩
      · apply gives_call_iff.mpr
        exact noConstant.bind (noLiteral.bind (matched.bind (entering.bind gives.bind_error)))
      · rw [reads]
        simp [Rule.underParen, run]

private theorem primary_of_misplaced {inner : Option Rule}
    (here : tokens[track.now.current]? = some next)
    (start : next.kind ∉ Kind.operandStarts) : ∃ result after,
      Mirrored tokens (Rule.runOperand inner) (primary tokens) track result after := by
  have noConstant := gives_constant_none here (lookup_eq_none start)
  have noLiteral : Gives (fun _ => matchKinds tokens [.number, .string]) track (.ok false) track :=
    gives_matchKinds_false here (by decide) (by simp_all [Kind.operandStarts])
  have noParen : Gives (fun _ => matchKinds tokens [.leftParen]) track (.ok false) track :=
    gives_matchKinds_false here (by decide) (by simp_all [Kind.operandStarts])
  refine ⟨.error (.atToken (nextToken (tokens.drop track.now.current)) .expectedExpression), track,
    .ofFault ?_ ?_ (.refl track)⟩
  · apply gives_call_iff.mpr
    exact noConstant.bind (noLiteral.bind (noParen.bind (gives_failHere (lt_of_here here) _)))
  · rw [Rule.runOperand_misplaced (by rwa [drop_of_here here])]
    rfl

theorem unary_mirrors (ends : EndsInMarker tokens) {inner : Option Rule}
    (nested : MirrorsNested tokens allowance inner) :
    Mirrors tokens allowance (Rule.runOperand inner) (unary tokens) := by
  intro track inside room
  have here := List.getElem?_eq_getElem inside
  generalize tokens[track.now.current] = next at here
  by_cases stands : next.kind.isUnaryOperator = true
  · exact unary_of_operator ends nested room here stands
  have primary : ∃ result after,
      Mirrored tokens (Rule.runOperand inner) (primary tokens) track result after := by
    by_cases opens : next.kind = .leftParen
    · exact primary_of_paren ends nested room here opens
    cases found : constants.lookup next.kind with
    | some value => exact primary_of_constant here found
    | none =>
      by_cases valued : next.kind = .number ∨ next.kind = .string
      · exact primary_of_valued here valued
      · exact primary_of_misplaced here (not_mem_operandStarts stands opens found valued)
  obtain ⟨result, after, gives, run, leads, closed⟩ := primary
  refine ⟨result, after, ?_, run, leads, closed⟩
  apply gives_call_iff.mpr
  exact (gives_matchKinds_false here (by decide) (mt (isUnaryOperator_iff _).mpr stands)).bind gives

/-- Below the binary levels, the reader of levels goes to the unary one. -/
theorem mirrors_nil_iff {run : List Token → Reading} :
    Mirrors tokens allowance run (level tokens · []) ↔
      Mirrors tokens allowance run (unary tokens) := by
  constructor
  · intro mirrors track inside room
    obtain ⟨result, after, mirrored⟩ := mirrors track inside room
    exact ⟨result, after, { mirrored with gives := gives_call_iff.mp mirrored.gives }⟩
  · intro mirrors track inside room
    obtain ⟨result, after, mirrored⟩ := mirrors track inside room
    exact ⟨result, after, { mirrored with gives := gives_call_iff.mpr mirrored.gives }⟩

theorem expression_mirrors (ends : EndsInMarker tokens) (allowance : Nat) :
    Mirrors tokens allowance (Rule.expression allowance).run (level tokens · levels) := by
  apply Rule.expression_induction (motive := fun allowance rank rule =>
    Mirrors tokens allowance rule.run (level tokens · (levels.drop rank)))
  case step =>
    intro allowance loosest rule binary mirrors
    have split : levels.drop loosest.rank = loosest :: levels.drop (loosest.rank + 1) := by
      cases loosest <;> first | rfl | simp [Level.rank] at binary
    rw [split]
    exact level_mirrors ends mirrors
  case zero =>
    refine mirrors_nil_iff.mpr (unary_mirrors ends ⟨fun _ => rfl, ?_⟩)
    rintro rule ⟨⟩
  case succ =>
    intro allowance operand expression
    refine mirrors_nil_iff.mpr (unary_mirrors ends ⟨?_, ?_⟩)
    · rintro ⟨⟩
    · rintro rule ⟨⟩
      exact ⟨allowance, rfl, mirrors_nil_iff.mp operand, expression⟩

/-- From wherever the counters stand inside the tokens, and however many nestings they count as
open, reading an expression does what the rule of expressions does with the tokens ahead. -/
theorem expression_mirrored (ends : EndsInMarker tokens) {track : Track}
    (inside : track.now.current < tokens.length) : ∃ result after,
      Gives (expression tokens) track result after ∧
      (Rule.expression maxNesting).run (tokens.drop track.now.current) =
        (result, tokens.drop after.now.current) ∧
      track.LeadsTo tokens after := by
  have restart : track.LeadsTo tokens (track.move track.now.restarted) := .move .restart
  obtain ⟨result, after, gives, run, leads, _⟩ :=
    expression_mirrors ends maxNesting (track.move track.now.restarted) inside (Nat.zero_add _)
  exact ⟨result, after, (gives_modify _ track).bind gives, run, restart.trans leads⟩

end Rules

end Reader

end LoxSyntax
