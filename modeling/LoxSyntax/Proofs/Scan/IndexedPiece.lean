import LoxSyntax.Proofs.Scan.IndexedStep

/-! # Pieces by index

A pass of `Walker` over a piece reads what `Piece.cut` cuts off, makes the same token and reports
the same fault. Every loop of the machine but one reads up to the first character that its condition
does not hold of (`Pass.walks_repeatWhile`); the loop over a block comment keeps the count of open
comments one above the depth of `Piece.readComment`.
-/

namespace LoxSyntax.Pass

/-- The pass comes to the token of the piece that is taken, has read the piece, and has reported
what is wrong with it. -/
def Takes (pass : Pass) (walker : Nat → Walker (Option Token)) (place : Place)
    (taken : Piece × List Char) : Prop :=
  ∃ depth, pass.Walks walker place (taken.1.token? (lineBehind pass.before)) {
    text := taken.1.text
    rest := taken.2
    depth := depth
    faults := match taken.1.fault? (lineBehind pass.before) with
      | some fault => place.faults.push fault
      | none => place.faults }

variable {pass : Pass} {text rest chars : List Char} {c : Char} {depth : Nat}
  {faults : Array Fault}

/-- A call before, which reports nothing. -/
theorem Walks.takes {α : Type} {first : Nat → Walker α} {second : Nat → α → Walker (Option Token)}
    {place middle : Place} {value : α} {taken : Piece × List Char}
    (walks : pass.Walks first place value middle) (silent : middle.faults = place.faults)
    (takes : pass.Takes (second · value) middle taken) :
    pass.Takes (fun limit => first limit >>= second limit) place taken := by
  obtain ⟨left, onward⟩ := takes
  rw [silent] at onward
  exact ⟨left, walks.bind onward⟩

section Loops

/-- A loop that reads a character each round stops before the first that it is not to read. -/
theorem walks_repeatWhile {condition : Walker Bool} {round : Walker Unit} {holds : Char → Bool}
    (asks : ∀ place, pass.Walks (fun _ => condition) place (place.rest.head?.any holds) place)
    (reads : ∀ text c rest, holds c = true →
      pass.Walks (fun _ => round) ⟨text, c :: rest, depth, faults⟩ ()
        ⟨text ++ [c], rest, depth, faults⟩) (text rest : List Char) :
    pass.Walks (Walker.repeatWhile condition round) ⟨text, rest, depth, faults⟩ ()
      ⟨text ++ rest.takeWhile holds, rest.dropWhile holds, depth, faults⟩ := by
  induction rest generalizing text with
  | nil =>
    rw [List.takeWhile_nil, List.append_nil]
    apply Walks.round
    exact (asks _).bind (walks_pure pass () _)
  | cons c rest ih =>
    apply Walks.round
    apply (asks _).bind
    simp only [List.head?_cons, Option.any_some]
    by_cases held : holds c = true
    · have onward := ih (text ++ [c])
      rw [List.append_assoc, List.singleton_append] at onward
      simp only [held, ↓reduceIte, List.takeWhile_cons, List.dropWhile_cons]
      exact (reads text c rest held).bind onward
    · simp only [held, Bool.false_eq_true, ↓reduceIte, List.takeWhile_cons, List.dropWhile_cons,
        List.append_nil]
      exact walks_pure pass () _

private theorem walks_awaits (place : Place) :
    pass.Walks (fun _ => Walker.awaits pass.source c) place (place.rest.head?.any (· != c))
      place := by
  apply (walks_atEnd place).bind
  cases ahead : place.rest with
  | nil => exact walks_pure pass false place
  | cons next rest =>
    apply (walks_peek place).bind
    have told : decide (place.rest.headD '\x00' ≠ c) = (next != c) := by
      simp [ahead, bne, beq_eq_decide]
    rw [told]
    exact walks_pure pass _ place

/-- The null character stands for the end, so a condition must not hold of it. -/
theorem walks_asks {holds : Char → Bool} (ends : holds '\x00' = false) (place : Place) :
    pass.Walks (fun _ => do return holds (← Walker.peek pass.source)) place
      (place.rest.head?.any holds) place := by
  apply (walks_peek place).bind
  cases ahead : place.rest with
  | nil =>
    rw [List.headD_nil, ends]
    exact walks_pure pass false place
  | cons next rest => exact walks_pure pass _ place

private theorem walks_skipDigits (text rest : List Char) :
    pass.Walks (Walker.skipDigits pass.source) ⟨text, rest, depth, faults⟩ ()
      ⟨text ++ rest.takeWhile Char.isDigit, rest.dropWhile Char.isDigit, depth, faults⟩ := by
  apply walks_repeatWhile (walks_asks rfl)
  intro text c rest digit
  apply walks_skip
  rintro rfl
  cases digit

private theorem walks_skipLineComment (text rest : List Char) :
    pass.Walks (Walker.skipLineComment pass.source) ⟨text, rest, depth, faults⟩ ()
      ⟨text ++ rest.takeWhile (· != '\n'), rest.dropWhile (· != '\n'), depth, faults⟩ := by
  apply walks_repeatWhile walks_awaits
  intro text c rest other
  apply walks_skip
  rintro rfl
  cases other

private theorem walks_skipWord (text rest : List Char) :
    pass.Walks
      (Walker.repeatWhile (return isWordPart (← Walker.peek pass.source))
        (Walker.skip pass.source)) ⟨text, rest, depth, faults⟩ ()
      ⟨text ++ rest.takeWhile isWordPart, rest.dropWhile isWordPart, depth, faults⟩ := by
  apply walks_repeatWhile (walks_asks (by decide))
  intro text c rest part
  apply walks_skip
  rintro rfl
  revert part
  decide

end Loops

section Comments

private theorem walks_commentRound_close :
    pass.Walks (fun _ => Walker.commentRound pass.source)
      ⟨text, '*' :: '/' :: rest, depth + 1, faults⟩ ()
      ⟨text ++ ['*', '/'], rest, depth, faults⟩ := by
  apply walks_sees_true.bind
  apply (walks_skip (by decide)).bind
  apply (walks_skip (by decide)).bind
  simpa using walks_leave

private theorem walks_commentRound_open (room : depth ≤ (pass.before ++ text).length) :
    pass.Walks (fun _ => Walker.commentRound pass.source)
      ⟨text, '/' :: '*' :: rest, depth, faults⟩ ()
      ⟨text ++ ['/', '*'], rest, depth + 1, faults⟩ := by
  have notClosing : ∀ more, '/' :: '*' :: rest ≠ '*' :: '/' :: more := by simp
  apply (walks_sees_false notClosing (by decide)).bind
  apply walks_sees_true.bind
  apply (walks_skip (by decide)).bind
  apply (walks_skip (by decide)).bind
  simp only [List.append_assoc, List.cons_append, List.nil_append]
  apply walks_enter
  simp only [List.length_append, List.length_cons] at room ⊢
  omega

private theorem walks_commentRound_plain (notClosing : ∀ more, c :: rest ≠ '*' :: '/' :: more)
    (notOpening : ∀ more, c :: rest ≠ '/' :: '*' :: more) :
    pass.Walks (fun _ => Walker.commentRound pass.source) ⟨text, c :: rest, depth, faults⟩ ()
      ⟨text ++ [c], rest, depth, faults⟩ := by
  apply (walks_sees_false notClosing (by decide)).bind
  apply (walks_sees_false notOpening (by decide)).bind
  exact walks_skipAnywhere

private theorem walks_closeComments_round {middle next : Place}
    (round : pass.Walks (fun _ => Walker.commentRound pass.source)
      ⟨text, c :: rest, depth + 1, faults⟩ () middle)
    (onward : pass.Walks (Walker.closeComments pass.source) middle () next) :
    pass.Walks (Walker.closeComments pass.source) ⟨text, c :: rest, depth + 1, faults⟩ () next := by
  apply Walks.round
  apply (walks_counters pass _).bind
  apply (walks_atEnd _).bind
  exact round.bind onward

private theorem walks_closeComments_closed :
    pass.Walks (Walker.closeComments pass.source) ⟨text, rest, 0, faults⟩ ()
      ⟨text, rest, 0, faults⟩ :=
  ((walks_counters pass _).bind (walks_pure pass () _)).round

private theorem walks_closeComments_open :
    pass.Walks (Walker.closeComments pass.source) ⟨text, [], depth + 1, faults⟩ ()
      ⟨text, [], depth + 1,
        faults.push (.unterminatedComment (lineBehind (pass.before ++ text)))⟩ := by
  apply Walks.round
  apply (walks_counters pass _).bind
  apply (walks_atEnd _).bind
  apply (walks_counters pass _).bind
  exact walks_report pass _ _

/-- One block comment more is counted as open than there are around the one that is read. -/
theorem walks_closeComments (depth : Nat) (seen chars : List Char)
    (room : depth < (pass.before ++ seen.reverse).length) :
    ∃ left, pass.Walks (Walker.closeComments pass.source)
      ⟨seen.reverse, chars, depth + 1, faults⟩ () {
        text := (Piece.readComment depth seen chars).1
        rest := (Piece.readComment depth seen chars).2.getD []
        depth := left
        faults := match (Piece.readComment depth seen chars).2 with
          | some _ => faults
          | none => faults.push (.unterminatedComment
              (lineBehind (pass.before ++ (Piece.readComment depth seen chars).1))) } := by
  fun_induction Piece.readComment depth seen chars with
  | case1 seen rest =>
    refine ⟨0, walks_closeComments_round walks_commentRound_close ?_⟩
    rw [List.reverse_cons, List.reverse_cons, List.append_assoc]
    exact walks_closeComments_closed
  | case2 seen rest outer ih =>
    have closed : ('/' :: '*' :: seen).reverse = seen.reverse ++ ['*', '/'] := by simp
    rw [closed] at ih
    obtain ⟨left, walks⟩ := ih (by
      simp only [List.length_append, List.length_cons] at room ⊢
      omega)
    exact ⟨left, walks_closeComments_round walks_commentRound_close walks⟩
  | case3 depth seen rest ih =>
    have opened : ('*' :: '/' :: seen).reverse = seen.reverse ++ ['/', '*'] := by simp
    rw [opened] at ih
    obtain ⟨left, walks⟩ := ih (by
      simp only [List.length_append, List.length_cons] at room ⊢
      omega)
    exact ⟨left, walks_closeComments_round (walks_commentRound_open room) walks⟩
  | case4 depth seen c rest notClosing notOpening ih =>
    rw [List.reverse_cons] at ih
    obtain ⟨left, walks⟩ := ih (by simp only [List.length_append] at room ⊢; omega)
    refine ⟨left, walks_closeComments_round (walks_commentRound_plain ?_ ?_) walks⟩
    · intro more same
      obtain ⟨rfl, rfl⟩ := List.cons.inj same
      exact notClosing more rfl rfl
    · intro more same
      obtain ⟨rfl, rfl⟩ := List.cons.inj same
      exact notOpening more rfl rfl
  | case5 depth seen => exact ⟨depth + 1, walks_closeComments_open⟩

private theorem takes_blockComment :
    pass.Takes (fun limit => do
        Walker.skipBlockComment pass.source limit
        return none) ⟨['/', '*'], chars, depth, faults⟩ (Piece.cutBlockComment chars) := by
  have opened : 1 ≤ (pass.before ++ ['/', '*']).length := by
    simp only [List.length_append, List.length_cons]
    omega
  obtain ⟨left, walks⟩ := @walks_closeComments pass faults 0 ['*', '/'] chars (by simp)
  refine ⟨left, ?_⟩
  simp only [Piece.cutBlockComment]
  rcases shown : Piece.readComment 0 ['*', '/'] chars with ⟨text, _ | rest⟩
  · rw [shown] at walks
    have line : lineBehind (pass.before ++ text) = lineBehind pass.before + text.count '\n' :=
      lineBehind_append _ _
    rw [line] at walks
    exact ((walks_nest 1 opened).bind walks).bind (walks_pure pass none _)
  · rw [shown] at walks
    exact ((walks_nest 1 opened).bind walks).bind (walks_pure pass none _)

end Comments

section Lexemes

private theorem takes_lineComment :
    pass.Takes (fun limit => do
        Walker.skipLineComment pass.source limit
        return none) ⟨['/', '/'], chars, depth, faults⟩ (Piece.cutLineComment chars) :=
  ⟨depth, (walks_skipLineComment _ _).bind (walks_pure pass none _)⟩

private theorem walks_skipBody (text rest : List Char) :
    pass.Walks
      (Walker.repeatWhile (Walker.awaits pass.source '"') (Walker.skipAnywhere pass.source))
      ⟨text, rest, depth, faults⟩ ()
      ⟨text ++ rest.takeWhile (· != '"'), rest.dropWhile (· != '"'), depth, faults⟩ :=
  walks_repeatWhile walks_awaits (fun _ _ _ _ => walks_skipAnywhere) text rest

private theorem takes_string :
    pass.Takes (Walker.scanString pass.source) ⟨['"'], chars, depth, faults⟩
      (Piece.cutString chars) := by
  refine ⟨depth, ?_⟩
  apply (walks_skipBody _ _).bind
  apply (walks_atEnd _).bind
  simp only [Piece.cutString]
  generalize chars.takeWhile (· != '"') = body
  rcases dropWhile_ne_cases '"' chars with ended | ⟨rest, ended⟩
  · rw [ended]
    have line : lineBehind (pass.before ++ '"' :: body) =
        lineBehind pass.before + ('"' :: body).count '\n' := lineBehind_append _ _
    apply (walks_counters pass _).bind
    simp only [Piece.fault?, ← line]
    exact (walks_report pass _ _).bind (walks_pure pass none _)
  · rw [ended]
    apply (walks_skip (by decide)).bind
    apply (walks_counters pass _).bind
    have start : (pass.before ++ ['"']).length = pass.before.length + 1 := by simp
    have current : (pass.before ++ (['"'] ++ body ++ ['"'])).length =
        (pass.before ++ ['"'] ++ body).length + 1 := by
      simp only [List.length_append, List.length_singleton]
      omega
    have slice : pass.Walks _ ⟨['"'] ++ body ++ ['"'], rest, depth, faults⟩ body _ :=
      walks_slice (List.append_assoc _ _ _)
    rw [start] at slice
    simp only [counters, current]
    exact slice.bind (walks_token _ _ _)

private theorem takes_word :
    pass.Takes (Walker.scanWord pass.source) ⟨[c], chars, depth, faults⟩ (Piece.cutWord c chars) :=
  ⟨depth, (walks_skipWord _ _).bind ((walks_lexeme _).bind (walks_token _ _ none))⟩

private theorem walks_seesFraction_true {digit : Char} (isDigit : digit.isDigit = true) :
    pass.Walks (fun _ => Walker.seesFraction pass.source)
      ⟨text, '.' :: digit :: rest, depth, faults⟩ true
      ⟨text, '.' :: digit :: rest, depth, faults⟩ := by
  apply (walks_peek _).bind
  apply (walks_peekNext _).bind
  simp only [List.tail_cons, List.headD_cons, isDigit]
  exact walks_pure pass true _

private theorem walks_seesFraction_false {place : Place}
    (other : ∀ digit rest, place.rest = '.' :: digit :: rest → digit.isDigit = false) :
    pass.Walks (fun _ => Walker.seesFraction pass.source) place false place := by
  apply (walks_peek place).bind
  by_cases point : place.rest.headD '\x00' = '.'
  · rw [if_pos point]
    apply (walks_peekNext place).bind
    have noDigit : (place.rest.tail.headD '\x00').isDigit = false := by
      match ahead : place.rest with
      | [] => rfl
      | [_] => rfl
      | first :: digit :: rest =>
        rw [ahead, List.headD_cons] at point
        rw [point] at ahead
        exact other digit rest ahead
    rw [noDigit]
    exact walks_pure pass false place
  · rw [if_neg point]
    exact walks_pure pass false place

private theorem spanNumeral_of_noFraction
    (other : ∀ digit rest, chars.dropWhile Char.isDigit = '.' :: digit :: rest →
      digit.isDigit = false) :
    Piece.spanNumeral chars = (chars.takeWhile Char.isDigit, chars.dropWhile Char.isDigit) := by
  simp only [Piece.spanNumeral]
  split
  · next digit rest ended => simp [other digit rest ended, ended]
  · rfl

private theorem walks_skipNumeral (digit : c.isDigit = true) :
    pass.Walks (Walker.skipNumeral pass.source) ⟨[c], chars, depth, faults⟩ () {
      text := (Piece.spanNumeral (c :: chars)).1
      rest := (Piece.spanNumeral (c :: chars)).2
      depth := depth
      faults := faults } := by
  have whole : pass.Walks (Walker.skipDigits pass.source) ⟨[c], chars, depth, faults⟩ ()
      ⟨(c :: chars).takeWhile Char.isDigit, (c :: chars).dropWhile Char.isDigit, depth,
        faults⟩ := by
    simpa [digit] using walks_skipDigits [c] chars
  apply whole.bind
  by_cases fraction : ∃ next rest, (c :: chars).dropWhile Char.isDigit = '.' :: next :: rest ∧
      next.isDigit = true
  · obtain ⟨next, rest, ended, isDigit⟩ := fraction
    simp only [Piece.spanNumeral, ended, isDigit, ↓reduceIte]
    generalize (c :: chars).takeWhile Char.isDigit = read
    apply (walks_seesFraction_true isDigit).bind
    apply (walks_skip (by decide)).bind
    simpa [isDigit] using walks_skipDigits (read ++ ['.']) (next :: rest)
  · have other : ∀ next rest, (c :: chars).dropWhile Char.isDigit = '.' :: next :: rest →
        next.isDigit = false := by
      intro next rest ended
      exact Bool.eq_false_iff.mpr fun isDigit => fraction ⟨next, rest, ended, isDigit⟩
    rw [spanNumeral_of_noFraction other]
    exact (walks_seesFraction_false other).bind (walks_pure pass () _)

private theorem takes_number (digit : c.isDigit = true) :
    pass.Takes (Walker.scanNumber pass.source) ⟨[c], chars, depth, faults⟩
      (Piece.cutNumber (c :: chars)) := by
  refine ⟨depth, ?_⟩
  apply (walks_skipNumeral digit).bind
  apply (walks_lexeme _).bind
  simp only [Piece.cutNumber]
  cases Binary64.ofNumeral? (Piece.spanNumeral (c :: chars)).1 with
  | some value => exact walks_token _ _ _
  | none =>
    apply (walks_counters pass _).bind
    exact (walks_report pass _ _).bind (walks_pure pass none _)

end Lexemes

section Marks

variable {kind alone joined : Kind}

private theorem cut_of_single (single : Kind.single? c = some kind) (chars : List Char) :
    Piece.cut c chars = (.token kind [c] none, chars) := by
  unfold Kind.single? at single
  split at single <;> cases single <;> cases chars <;> rfl

private theorem cut_of_joined (widened : Kind.widened? c = some (alone, joined))
    (rest : List Char) :
    Piece.cut c ('=' :: rest) = (.token joined [c, '='] none, rest) := by
  unfold Kind.widened? at widened
  split at widened <;> cases widened <;> rfl

private theorem cut_of_alone (widened : Kind.widened? c = some (alone, joined))
    (other : chars.head? ≠ some '=') :
    Piece.cut c chars = (.token alone [c] none, chars) := by
  have noPair : ∀ second rest, chars = second :: rest → Kind.ofPair? c second = none := by
    rintro second rest rfl
    have differs : second ≠ '=' := by simpa using other
    unfold Kind.ofPair?
    split <;> simp_all
  have cut : Piece.cut c chars = Piece.cutMark c chars := by
    unfold Kind.widened? at widened
    split at widened <;> cases widened <;> rfl
  rw [cut, Piece.cutMark_of_noPair noPair]
  unfold Kind.widened? at widened
  split at widened <;> cases widened <;> rfl

private theorem cut_of_mark (notBlank : isBlank c = false) (notDigit : c.isDigit = false)
    (notWord : isWordStart c = false) (notQuote : c ≠ '"')
    (noComment : c = '/' → chars.head? ≠ some '/' ∧ chars.head? ≠ some '*') :
    Piece.cut c chars = Piece.cutMark c chars := by
  simp only [Piece.cut, notBlank, notDigit, notWord, Bool.false_eq_true, ↓reduceIte]
  split <;> simp_all

/-- What begins no other piece is a piece by itself, and something is wrong with it. -/
theorem cut_of_stray (noSingle : Kind.single? c = none) (noWidened : Kind.widened? c = none)
    (notSlash : c ≠ '/') (notBlank : isBlank c = false) (notQuote : c ≠ '"')
    (notDigit : c.isDigit = false) (notWord : isWordStart c = false) (chars : List Char) :
    Piece.cut c chars = (.stray c, chars) := by
  have noPair : ∀ second rest, chars = second :: rest → Kind.ofPair? c second = none := by
    rintro second rest rfl
    unfold Kind.ofPair?
    unfold Kind.widened? at noWidened
    split <;> simp_all
  have noMark : Kind.ofChar? c = none := by
    unfold Kind.ofChar?
    unfold Kind.single? at noSingle
    unfold Kind.widened? at noWidened
    split <;> simp_all
  rw [cut_of_mark notBlank notDigit notWord notQuote (absurd · notSlash),
    Piece.cutMark_of_noPair noPair, noMark]

private theorem cut_of_slash (noLine : chars.head? ≠ some '/') (noBlock : chars.head? ≠ some '*') :
    Piece.cut '/' chars = (.token .slash ['/'] none, chars) := by
  rw [cut_of_mark rfl rfl rfl (by decide) fun _ => ⟨noLine, noBlock⟩,
    Piece.cutMark_of_noPair fun _ _ _ => rfl]
  rfl

private theorem takes_slash :
    pass.Takes (Walker.scanSlash pass.source) ⟨['/'], chars, depth, faults⟩
      (Piece.cut '/' chars) := by
  by_cases line : chars.head? = some '/'
  · obtain ⟨rest, rfl⟩ := List.head?_eq_some_iff.mp line
    exact (walks_matchChar_self (by decide)).takes rfl takes_lineComment
  apply (walks_matchChar_other line).takes rfl
  by_cases block : chars.head? = some '*'
  · obtain ⟨rest, rfl⟩ := List.head?_eq_some_iff.mp block
    exact (walks_matchChar_self (by decide)).takes rfl takes_blockComment
  · apply (walks_matchChar_other block).takes rfl
    rw [cut_of_slash line block]
    exact ⟨depth, walks_token _ _ none⟩

private theorem takes_widened (widened : Kind.widened? c = some (alone, joined)) :
    pass.Takes (fun _ => do
        if ← Walker.matchChar pass.source '=' then Walker.token pass.source joined none
        else Walker.token pass.source alone none) ⟨[c], chars, depth, faults⟩
      (Piece.cut c chars) := by
  by_cases pair : chars.head? = some '='
  · obtain ⟨rest, rfl⟩ := List.head?_eq_some_iff.mp pair
    rw [cut_of_joined widened]
    exact ⟨depth, (walks_matchChar_self (by decide)).bind (walks_token _ _ none)⟩
  · rw [cut_of_alone widened pair]
    exact ⟨depth, (walks_matchChar_other pair).bind (walks_token _ _ none)⟩

private theorem takes_newline :
    pass.Takes (Walker.scanPiece pass.source) ⟨[], '\n' :: chars, depth, faults⟩
      (Piece.cut '\n' chars) := by
  refine ⟨depth, fun memory holds => ⟨memory.advance.newLine, ?_, holds.newLine.2⟩⟩
  apply (Walker.gives_advance (holds.getElem?_current 0)).bind
  exact (Walker.gives_modify _ _).bind (Walker.gives_pure none _)

private theorem takes_stray (plain : c ≠ '\n') (stray : Piece.cut c chars = (.stray c, chars)) :
    pass.Takes (fun _ => do
        let line := (← Walker.counters).line
        modify (·.report (.unexpectedCharacter line c))
        return none) ⟨[c], chars, depth, faults⟩ (Piece.cut c chars) := by
  have line : lineBehind (pass.before ++ [c]) = lineBehind pass.before := by
    simp [lineBehind, plain]
  rw [stray]
  refine ⟨depth, (walks_counters pass _).bind ?_⟩
  simp only [counters, line]
  exact (walks_report pass _ _).bind (walks_pure pass none _)

/-- The piece at the front is read, whatever it is. -/
theorem takes_scanPiece (c : Char) (chars : List Char) :
    pass.Takes (Walker.scanPiece pass.source) ⟨[], c :: chars, depth, faults⟩
      (Piece.cut c chars) := by
  by_cases newline : c = '\n'
  · subst newline
    exact takes_newline
  apply (walks_advance newline).takes rfl
  rw [List.nil_append]
  cases single : Kind.single? c with
  | some kind =>
    rw [cut_of_single single]
    exact ⟨depth, walks_token _ _ none⟩
  | none =>
    cases widened : Kind.widened? c with
    | some kinds => exact takes_widened widened
    | none =>
      by_cases slash : c = '/'
      · subst slash
        exact takes_slash
      by_cases space : c = ' ' ∨ c = '\r' ∨ c = '\t'
      · simp only [slash, space, ↓reduceIte]
        have blank : isBlank c = true := by
          rw [isBlank_eq_true_iff]
          tauto
        simp only [Piece.cut, blank, ↓reduceIte]
        exact ⟨depth, walks_pure pass none _⟩
      have notBlank : isBlank c = false := by
        rw [← Bool.not_eq_true, isBlank_eq_true_iff]
        tauto
      by_cases quote : c = '"'
      · subst quote
        exact takes_string
      simp only [slash, space, newline, quote, ↓reduceIte]
      by_cases digit : c.isDigit = true
      · simp only [Piece.cut, notBlank, digit, ↓reduceIte]
        exact takes_number digit
      have hyphen : c ≠ '-' := by
        rintro rfl
        cases single
      by_cases word : isWordStart c = true
      · simp only [Piece.cut, notBlank, digit, word, hyphen, or_false, ↓reduceIte]
        exact takes_word
      · rw [Bool.not_eq_true] at digit word
        simp only [digit, word, hyphen, Bool.false_eq_true, or_false, ↓reduceIte]
        exact takes_stray newline (cut_of_stray single widened slash notBlank quote digit word _)

end Marks
end LoxSyntax.Pass
