import LoxSyntax.Proofs.Scan.LongestMatch

/-! # Where a token ends

Whether the longest match at the front of a text goes beyond a token depends on the kind of the
token and on the character behind it: `Kind.goesOn` names the characters that can make a longer
token, or a comment, out of one. A token in front of any other character, or of the end, is the
piece there (`Lexeme.leads`).
-/

namespace LoxSyntax

/-- The character can go on with a token of the kind to a longer token or to a comment. -/
def Kind.goesOn (c : Char) : Kind → Bool
  | bang | equal | greater | less => c = '='
  | slash => c = '/' || c = '*'
  | number => c.isDigit || c = '.'
  | identifier | keyword _ => isWordPart c
  | _ => false

private theorem Kind.goesOn_ofWord (c : Char) (text : String) :
    (ofWord text).goesOn c = isWordPart c := by
  unfold ofWord
  split <;> rfl

theorem Numeral.isDigit_or_eq_point {text : List Char} (numeral : Numeral text) :
    ∀ c ∈ text, c.isDigit = true ∨ c = '.' := by
  intro c member
  cases numeral with
  | whole whole => exact .inl (whole.2 c member)
  | fraction whole fraction =>
    rcases List.mem_append.mp member with member | member
    · exact .inl (whole.2 c member)
    · rcases List.mem_cons.mp member with rfl | member
      · exact .inr rfl
      · exact .inl (fraction.2 c member)

/-- A mark of two characters goes on with the mark that is its first one. -/
theorem Kind.goesOn_of_mark? {kind longer : Kind} {first c : Char} {others more : List Char}
    (spelled : kind.mark? = some (first :: others))
    (spelledLonger : longer.mark? = some (first :: (others ++ c :: more))) :
    kind.goesOn c = true := by
  rcases mark?_shape spelledLonger with ⟨_, same⟩ | ⟨_, _, same⟩
  · simp at same
  · have two := congrArg List.length same
    simp only [List.length_cons, List.length_append, List.length_nil] at two
    obtain rfl : others = [] := List.eq_nil_of_length_eq_zero (by omega)
    obtain rfl : more = [] := List.eq_nil_of_length_eq_zero (by omega)
    have known := (ofChar?_eq_some_iff first kind).mpr spelled
    have pair := (ofPair?_eq_some_iff first c longer).mpr spelledLonger
    unfold ofPair? at pair
    split at pair <;> cases pair <;> cases known <;> rfl

namespace Lexeme

variable {kind : Kind} {literal : Option Literal} {text rest : List Char}

/-- Only a character that goes on with a token makes a longer token out of it. -/
theorem goesOn {c : Char} {more : List Char} (lexeme : Lexeme kind literal text)
    (longer : IsLexeme (text ++ c :: more)) : kind.goesOn c = true := by
  obtain ⟨otherKind, otherLiteral, other⟩ := longer
  match text, lexeme.ne_nil with
  | first :: others, _ =>
    have within : c ∈ others ++ c :: more := List.mem_append_right _ List.mem_cons_self
    cases lexeme.byHead with
    | digit head =>
      cases other.byHead with
      | digit _ numeral =>
        simpa [Kind.goesOn] using numeral.isDigit_or_eq_point c (List.mem_cons_of_mem _ within)
      | _ => simp_all
    | word head =>
      cases other.byHead with
      | word _ _ parts => rw [Kind.goesOn_ofWord, parts c within]
      | _ => simp_all
    | quote head closed =>
      cases other.byHead with
      -- The quote that closes the shorter string would stand inside the longer one.
      | @quote body _ closedLonger inside =>
        have last := congrArg List.dropLast closedLonger
        rw [closed, List.dropLast_concat] at last
        refine absurd ?_ inside
        rw [← last]
        simp
      | _ => simp_all
    | mark head spelled =>
      cases other.byHead with
      | mark _ spelledLonger => exact Kind.goesOn_of_mark? spelled spelledLonger
      | _ => simp_all

/-- Behind the mark that can begin a comment, the character that does goes on with it. -/
theorem not_opensComment (lexeme : Lexeme kind literal text)
    (ends : ∀ c ∈ rest.head?, kind.goesOn c = false) : ¬ Piece.OpensComment (text ++ rest) := by
  intro opens
  match text, lexeme.ne_nil with
  | first :: others, _ =>
    obtain rfl : first = '/' := opens.head
    have mark : Head.of '/' = .mark := by decide
    have slash : kind = .slash ∧ others = [] := by
      cases lexeme.byHead with
      | mark _ spelled =>
        cases kind <;> cases spelled
        exact ⟨rfl, rfl⟩
      | _ => simp_all
    obtain ⟨rfl, rfl⟩ := slash
    rcases opens with opens | opens
    all_goals
      obtain ⟨_, ⟨more, rfl⟩⟩ := List.cons_prefix_cons.mp opens
      exact absurd (ends _ rfl) (by decide)

/-- A token is the piece at the front of the text if nothing behind it goes on with it. -/
theorem leads (lexeme : Lexeme kind literal text)
    (ends : ∀ c ∈ rest.head?, kind.goesOn c = false) :
    (Piece.token kind text literal).Leads (text ++ rest) rest := by
  refine .token lexeme (lexeme.not_opensComment ends) ?_
  intro other token begins
  apply Nat.le_of_not_lt
  intro longer
  obtain ⟨tail, rfl⟩ :=
    List.prefix_of_prefix_length_le (List.prefix_append text rest) begins (Nat.le_of_lt longer)
  match tail with
  | [] => simp at longer
  | c :: more =>
    obtain ⟨behind, rfl⟩ := (List.prefix_append_right_inj text).mp begins
    exact Bool.false_ne_true ((ends c rfl).symm.trans (lexeme.goesOn token))

end Lexeme
end LoxSyntax
