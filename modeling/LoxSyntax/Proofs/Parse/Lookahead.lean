import LoxSyntax.Proofs.Parse.Alike

/-! # One token of lookahead

A reading looks at the tokens that it consumes and at the one that it stops before, and at nothing
behind. Both verdicts are known by then: an expression is read off its spelling in front of any
token that does not go on with it (`Rule.Completes`), and a fault is that of one operand, which
fails by what stands up to the next token (`Rule.OperandFault`). So whatever stands behind can be
exchanged.
-/

namespace LoxSyntax

namespace Rule

variable {allowance : Nat} {consumed behind others : List Token} {next : Token} {fault : Fault}

/-- What is wrong with an operand does not depend on what stands behind the next token. -/
private theorem OperandFault.exchange
    (met : OperandFault allowance (consumed ++ next :: behind) fault (next :: behind)) :
    OperandFault allowance (consumed ++ next :: others) fault (next :: others) := by
  generalize whole : consumed ++ next :: behind = tokens at met
  generalize left : next :: behind = rest at met whole
  have front {before : List Token} (split : tokens = before ++ rest) : consumed = before :=
    List.append_cancel_right (whole.trans split)
  cases met with
  | misplaced start =>
    obtain rfl := front (List.nil_append _).symm
    subst left
    exact .misplaced start
  | @unclosed _ opening inner between _ opens ladder spelled within stops unclosed =>
    obtain rfl := front (@List.cons_append _ opening between _).symm
    subst left
    exact .unclosed opens ladder spelled within stops unclosed
  | @beyond opening _ opens =>
    obtain rfl := front (List.singleton_append (x := opening)).symm
    subst left
    exact .beyond opens
  | @valueless _ token _ kind missing =>
    obtain rfl := front (List.singleton_append (x := token)).symm
    exact .valueless kind missing

/-- The rule of expressions gives the same verdict whatever stands behind the next token. -/
theorem expression_run_exchange {result : Except Fault Expr}
    (run : (expression allowance).run (consumed ++ next :: behind) = (result, next :: behind)) :
    (expression allowance).run (consumed ++ next :: others) = (result, next :: others) := by
  cases result with
  | ok expr =>
    obtain ⟨⟨spelling, split, spelled⟩, ladder, _, within, stops⟩ := expression_sound allowance run
    obtain rfl := List.append_cancel_right split
    exact spelled.expression_run ladder within stops
  | error fault =>
    obtain ⟨before, tokens, inner, split, place, met⟩ := expression_failsAtOperands allowance run
    obtain ⟨inside, rfl⟩ : next :: behind <:+ tokens := by
      have passed := (operand inner).suffix tokens
      rwa [met.run] at passed
    rw [← List.append_assoc] at split
    obtain rfl := List.append_cancel_right split
    rw [List.append_assoc]
    exact place.fails met.exchange.run

end Rule

namespace Parser

variable {tokens others : List Token} {start stop : Nat}

/-- Tokens that agree from one index up to another are split alike there. -/
private theorem exists_drop_eq_append (ordered : start ≤ stop) (inside : stop < tokens.length)
    (agree : ∀ index, start ≤ index → index ≤ stop → tokens[index]? = others[index]?) :
    ∃ consumed next, start + consumed.length = stop ∧
      tokens.drop start = consumed ++ next :: tokens.drop (stop + 1) ∧
      tokens.drop stop = next :: tokens.drop (stop + 1) ∧
      others.drop start = consumed ++ next :: others.drop (stop + 1) ∧
      others.drop stop = next :: others.drop (stop + 1) := by
  have here := List.getElem?_eq_getElem inside
  have there := (agree stop ordered (Nat.le_refl stop)).symm.trans here
  obtain ⟨insideOther, same⟩ := List.getElem?_eq_some_iff.mp there
  have dropped := List.drop_eq_getElem_cons inside
  have droppedOther := List.drop_eq_getElem_cons insideOther
  rw [same] at droppedOther
  have between : others.extract start stop = tokens.extract start stop := by
    apply List.ext_getElem?
    intro index
    simp only [List.extract_eq_take_drop, List.getElem?_take, List.getElem?_drop]
    split
    · exact (agree _ (Nat.le_add_right _ _) (by omega)).symm
    · rfl
  have split (list : List Token) : list.drop start = list.extract start stop ++ list.drop stop := by
    rw [List.extract_eq_take_drop, ← Nat.add_sub_cancel' ordered, ← List.drop_drop,
      Nat.add_sub_cancel_left, List.take_append_drop]
  refine ⟨tokens.extract start stop, tokens[stop], ?_, ?_, dropped, ?_, droppedOther⟩
  · rw [List.extract_eq_take_drop, List.length_take, List.length_drop]
    omega
  · rw [split, dropped]
  · rw [split, between, droppedOther]

/-- Whatever stands behind the token before which a reading stops, success or fault, takes no part
in it: over any list that has the same tokens from the cursor up to that one, a parser gives the
same expression or the same fault and stops at the same index. -/
theorem tryParse_lookahead (bound : start ≤ firstMarker tokens)
    (agree : ∀ index, start ≤ index → index ≤ (atIndex tokens start).tryParse.2.position →
      (withEnd tokens)[index]? = (withEnd others)[index]?) : ∃ stop,
    (atIndex tokens start).tryParse.2 = atIndex tokens stop ∧
    (atIndex others start).tryParse = ((atIndex tokens start).tryParse.1, atIndex others stop) := by
  have cursor := (atCursor_atIndex bound).tryParse
  rcases read : (atIndex tokens start).tryParse with ⟨result, after⟩
  rw [read] at cursor agree
  have run := run_of_tryParse read
  have forward : start ≤ after.position := by
    cases read
    exact Nat.le_add_right _ _
  obtain ⟨consumed, next, length, split, stopped, splitOther, stoppedOther⟩ :=
    exists_drop_eq_append forward cursor.bound agree
  have ahead : (atIndex tokens start).rest = _ := split
  have aheadOther : (atIndex others start).rest = _ := splitOther
  rw [cursor.rest, stopped, ahead] at run
  have runOther := @Rule.expression_run_exchange _ _ _ ((withEnd others).drop (after.position + 1))
    _ _ run
  rw [← aheadOther] at runOther
  refine ⟨after.position, eq_atIndex cursor, ?_⟩
  rw [tryParse_of_run aheadOther runOther, ← stoppedOther]
  exact congrArg (fun stop => (result, Parser.mk _ stop)) length

/-- The tokens of `(true nil`. -/
def unclosedTokens : List Token :=
  [.plain .leftParen "(" 1, .plain (.keyword .trueWord) "true" 1,
    .plain (.keyword .nilWord) "nil" 1]

/-- The tokens of `(true nil)` and a line break. -/
def closedTokens : List Token := unclosedTokens ++ [.plain .rightParen ")" 1, .eof 2]

private theorem tryParse_unclosedTokens : (atIndex unclosedTokens 0).tryParse =
    (.error (.atToken (.plain (.keyword .nilWord) "nil" 1) .expectedCloseParen),
      ⟨[.plain (.keyword .nilWord) "nil" 1, .eof 1], 2⟩) := by
  decide +kernel

/-- The reading of `(true nil` stops before `nil` with a fault, whatever follows `nil`. -/
theorem tryParse_lookahead_unclosed :
    0 ≤ firstMarker unclosedTokens ∧
    (∀ index, 0 ≤ index → index ≤ (atIndex unclosedTokens 0).tryParse.2.position →
      (withEnd unclosedTokens)[index]? = (withEnd closedTokens)[index]?) ∧
    ∃ stop, (atIndex unclosedTokens 0).tryParse.2 = atIndex unclosedTokens stop ∧
      (atIndex closedTokens 0).tryParse =
        (.error (.atToken (.plain (.keyword .nilWord) "nil" 1) .expectedCloseParen),
          atIndex closedTokens stop) := by
  have agree : ∀ index, 0 ≤ index → index ≤ (atIndex unclosedTokens 0).tryParse.2.position →
      (withEnd unclosedTokens)[index]? = (withEnd closedTokens)[index]? := by
    rw [tryParse_unclosedTokens]
    have upTo : ∀ index < 3, (withEnd unclosedTokens)[index]? = (withEnd closedTokens)[index]? := by
      decide
    exact fun index _ early => upTo index (Nat.lt_succ_of_le early)
  have ahead := tryParse_lookahead (Nat.zero_le _) agree
  rw [tryParse_unclosedTokens] at ahead ⊢
  rw [tryParse_unclosedTokens] at agree
  exact ⟨Nat.zero_le _, agree, ahead⟩

end Parser
end LoxSyntax
