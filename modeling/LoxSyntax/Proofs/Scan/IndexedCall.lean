import LoxSyntax.Proofs.Scan.IndexedPiece

/-! # Calls of a scanner by index

Whatever a scanner by index is asked for, in any order, it answers as `Scanner` does, in finitely
many rounds of its loops and without a breach, and its counters are in range at every moment. What
one pass keeps (`Walker.gives_pass`) is kept by the passes up to a token, by the tokens up to the
end marker and by any calls.
-/

namespace LoxSyntax

namespace Piece

/-- A text has no more pieces than characters. -/
theorem Splits.length_le {text : List Char} {pieces : List Piece} (splits : Splits text pieces) :
    pieces.length ≤ text.length := by
  induction splits with
  | nil => exact Nat.le_refl 0
  | cons leads _ ih =>
    have shorter := leads.length_lt
    rw [List.length_cons]
    omega

private theorem length_collect_le {α : Type} (give : Nat → Piece → Option α) (line : Nat)
    (pieces : List Piece) : (collect give line pieces).length ≤ pieces.length := by
  induction pieces generalizing line with
  | nil => exact Nat.le_refl 0
  | cons piece pieces ih =>
    have others := ih (line + piece.text.count '\n')
    rw [collect, List.length_cons]
    cases give line piece with
    | none => simpa using Nat.le_succ_of_le others
    | some given => simpa using others

end Piece

namespace Scanner.Passed

variable {source : List Char} {pieces ahead : List Piece} {tokens : List Token} {scanner : Scanner}

private theorem length_pieces_le (passed : scanner.Passed source pieces ahead tokens) :
    pieces.length ≤ source.length := by
  have bound := passed.splits.length_le
  rw [List.length_append] at bound
  omega

private theorem length_tokens_le (passed : scanner.Passed source pieces ahead tokens) :
    tokens.length ≤ source.length + 1 := by
  have fewPieces := passed.length_pieces_le
  have fewLexemes := Piece.length_collect_le Piece.token? (lineBehind []) pieces
  rw [passed.tokens, List.length_append]
  split
  · rw [List.length_singleton]
    omega
  · rw [List.length_nil]
    omega

private theorem size_faults_le (passed : scanner.Passed source pieces ahead tokens) :
    scanner.faults.size ≤ source.length := by
  have fewPieces := passed.length_pieces_le
  have fewFaults := Piece.length_collect_le Piece.fault? (lineBehind []) pieces
  rw [← Array.length_toList, passed.faults]
  omega

end Scanner.Passed

namespace ScanMemory

/-- A memory between two calls tells of the same as the scanner does. -/
structure Agrees (source : List Char) (scanner : Scanner) (memory : ScanMemory) : Prop where
  rest : scanner.rest = source.drop memory.now.current
  position : scanner.position = memory.now.current
  start : scanner.start = memory.now.start
  line : scanner.line = memory.now.line
  lineExact : scanner.line = lineBehind (source.take memory.now.current)
  finished : scanner.finished = memory.finished
  faults : scanner.faults = memory.faults

/-- No counter was ever out of range, and every pass over a piece has moved forward. -/
structure Sound (source : List Char) (memory : ScanMemory) : Prop where
  inRange : ∀ counters ∈ memory.all, counters.InRange source.length
  forward : ∀ pass ∈ memory.passes, pass.1 < pass.2

variable {source chars rest : List Char} {scanner : Scanner} {memory after : ScanMemory}
  {first : Char} {piece : Piece}

theorem agrees_start (source : String) : start.Agrees source.toList (Scanner.ofSource source) where
  rest := rfl
  position := rfl
  start := rfl
  line := rfl
  lineExact := rfl
  finished := rfl
  faults := rfl

private theorem sound_start (source : List Char) : start.Sound source where
  inRange := by
    intro counters member
    obtain rfl := List.mem_singleton.mp member
    constructor <;> simp [start]
  forward := by simp [start]

/-- The pass that begins where the memory stands. -/
def nextPass (source : List Char) (memory : ScanMemory) : Pass :=
  ⟨source, source.take memory.now.current, memory.passes⟩

private theorem Sound.length_before (sound : memory.Sound source) :
    (source.take memory.now.current).length = memory.now.current :=
  List.length_take_of_le (sound.inRange memory.now List.mem_cons_self).current_le

theorem Agrees.begin (agrees : memory.Agrees source scanner) (sound : memory.Sound source)
    (unfinished : scanner.finished = false) :
    (memory.nextPass source).Holds ⟨[], scanner.rest, memory.now.depth, memory.faults⟩
      memory.begin where
  whole := by
    rw [nextPass, agrees.rest]
    exact (List.take_append_drop _ _).symm
  now := by
    have line : lineBehind (source.take memory.now.current) = memory.now.line :=
      agrees.lineExact.symm.trans agrees.line
    simp only [nextPass, Pass.counters, List.append_nil, line, sound.length_before]
    rfl
  inRange := by
    intro counters member
    rcases List.mem_cons.mp member with rfl | older
    · have here := sound.inRange memory.now List.mem_cons_self
      exact ⟨Nat.le_refl _, here.current_le, Nat.le_refl _, here.line_le, here.depth_le⟩
    · exact sound.inRange counters older
  passes := rfl
  finished := agrees.finished.symm.trans unfinished
  faults := rfl

/-- A pass over a piece has come to its end. -/
theorem Agrees.pass (agrees : memory.Agrees source scanner) (sound : memory.Sound source)
    (unfinished : scanner.finished = false) {depth : Nat} (nonempty : piece.text ≠ [])
    (holds : (memory.nextPass source).Holds ⟨piece.text, rest, depth,
      match piece.fault? (lineBehind (memory.nextPass source).before) with
        | some fault => memory.faults.push fault
        | none => memory.faults⟩ after) :
    (after.record memory.now.current).Agrees source (scanner.pass piece rest) ∧
      (after.record memory.now.current).Sound source := by
  have now : after.now =
      (memory.nextPass source).counters ⟨piece.text, rest, depth, after.faults⟩ := holds.now
  have line : lineBehind (source.take memory.now.current ++ piece.text) =
      scanner.line + piece.text.count '\n' := by
    rw [lineBehind_append, ← agrees.lineExact]
  have moved : after.now.current = memory.now.current + piece.text.length := by
    rw [holds.current_eq, List.length_append, nextPass, sound.length_before]
  constructor
  · constructor
    case rest => exact holds.drop_current.symm
    case position => rw [Scanner.pass, agrees.position, record, moved]
    case start =>
      rw [Scanner.pass, agrees.position, record, now]
      exact sound.length_before.symm
    case line =>
      rw [Scanner.pass, ← line, record, now]
      rfl
    case lineExact =>
      have read : source.take after.now.current = source.take memory.now.current ++ piece.text :=
        holds.take_current
      rw [Scanner.pass, ← line, record, read]
    case finished => exact unfinished.trans holds.finished.symm
    case faults =>
      rw [Scanner.pass, agrees.faults, agrees.lineExact]
      exact holds.faults.symm
  · constructor
    · exact holds.inRange
    · intro passed member
      rcases List.mem_cons.mp member with rfl | older
      · have positive := List.length_pos_iff.mpr nonempty
        simp only
        omega
      · rw [holds.passes] at older
        exact sound.forward passed older

end ScanMemory

namespace Walker

variable {source chars : List Char} {scanner : Scanner} {memory : ScanMemory} {first : Char}

/-- A pass over the piece at the front. -/
theorem gives_pass (agrees : memory.Agrees source scanner) (sound : memory.Sound source)
    (unfinished : scanner.finished = false) (ahead : scanner.rest = first :: chars) :
    ∃ after, Gives (pass source) memory ((Piece.cut first chars).1.token? scanner.line) after ∧
      after.Agrees source (scanner.pass (Piece.cut first chars).1 (Piece.cut first chars).2) ∧
      after.Sound source := by
  have begun := agrees.begin sound unfinished
  rw [ahead] at begun
  obtain ⟨depth, walks⟩ : (memory.nextPass source).Takes _ _ _ := Pass.takes_scanPiece first chars
  obtain ⟨after, gives, holds⟩ := walks _ begun
  obtain ⟨agreesAfter, soundAfter⟩ :=
    agrees.pass sound unfinished (Piece.cut_text_ne_nil first chars) holds
  refine ⟨after.record memory.now.current, ?_, agreesAfter, soundAfter⟩
  rw [agrees.lineExact]
  apply (gives_counters memory).bind
  apply (gives_modify _ memory).bind
  apply gives.bind
  exact (gives_modify _ after).bind (gives_pure _ _)

theorem gives_atEnd (agrees : memory.Agrees source scanner) :
    Gives (fun _ => atEnd source) memory scanner.rest.isEmpty memory := by
  have told : decide (source.length ≤ memory.now.current) = scanner.rest.isEmpty := by
    rw [agrees.rest, Bool.eq_iff_iff, decide_eq_true_iff, List.isEmpty_iff, List.drop_eq_nil_iff]
  rw [← told]
  exact (gives_counters memory).bind (gives_pure _ memory)

/-- The passes up to a token, or to the end marker. -/
theorem gives_scanOn (agrees : memory.Agrees source scanner) (sound : memory.Sound source)
    (unfinished : scanner.finished = false) :
    ∃ after, Gives (scanOn source) memory scanner.next.1 after ∧
      after.Agrees source scanner.next.2 ∧ after.Sound source := by
  have ended := gives_atEnd agrees
  fun_induction Scanner.next scanner generalizing memory with
  | case1 scanner finished => simp [unfinished] at finished
  | case2 scanner _ ahead =>
    rw [ahead] at ended
    refine ⟨memory.finish, Gives.round ?_, ?_, sound.inRange, sound.forward⟩
    · apply ended.bind
      apply (gives_modify _ memory).bind
      rw [agrees.line]
      exact (gives_counters memory.finish).bind (gives_pure _ _)
    · exact { agrees with finished := rfl }
  | case3 scanner _ first chars ahead piece rest taken token known =>
    rw [ahead] at ended
    obtain ⟨after, gives, agreesAfter, soundAfter⟩ := gives_pass agrees sound unfinished ahead
    rw [taken] at gives agreesAfter
    rw [known] at gives
    refine ⟨after, Gives.round (ended.bind ?_), agreesAfter, soundAfter⟩
    exact gives.bind (gives_pure (some token) after)
  | case4 scanner _ first chars ahead piece rest taken unknown shorter ih =>
    rw [ahead] at ended
    obtain ⟨middle, gives, agreesMiddle, soundMiddle⟩ := gives_pass agrees sound unfinished ahead
    rw [taken] at gives agreesMiddle
    rw [unknown] at gives
    obtain ⟨after, onward, agreesAfter, soundAfter⟩ :=
      ih agreesMiddle soundMiddle unfinished (gives_atEnd agreesMiddle)
    refine ⟨after, Gives.round (ended.bind ?_), agreesAfter, soundAfter⟩
    exact gives.bind onward

private theorem gives_next (agrees : memory.Agrees source scanner) (sound : memory.Sound source) :
    ∃ after, Gives (next source) memory scanner.next.1 after ∧
      after.Agrees source scanner.next.2 ∧ after.Sound source := by
  have asked : Gives (fun _ => (get : Walker ScanMemory)) memory memory memory :=
    returns_of_forall fun _ => rfl
  cases status : scanner.finished with
  | true =>
    refine ⟨memory, asked.bind ?_, ?_, sound⟩
    · rw [← agrees.finished, status, Scanner.next_of_finished status]
      exact gives_pure none memory
    · rwa [Scanner.next_of_finished status]
  | false =>
    obtain ⟨after, gives, agreesAfter, soundAfter⟩ := gives_scanOn agrees sound status
    refine ⟨after, asked.bind ?_, agreesAfter, soundAfter⟩
    rw [← agrees.finished, status]
    exact gives

/-- All tokens that remain. -/
theorem gives_rest (agrees : memory.Agrees source scanner) (sound : memory.Sound source) :
    ∃ after, Gives (Walker.rest source) memory scanner.drain.1 after ∧
      after.Agrees source scanner.drain.2 ∧ after.Sound source := by
  induction scanner using Scanner.demand_induction generalizing memory with
  | finished scanner finished =>
    obtain ⟨after, gives, agreesAfter, soundAfter⟩ := gives_next agrees sound
    rw [Scanner.next_of_finished finished] at gives agreesAfter
    rw [Scanner.drain_of_finished finished]
    exact ⟨after, (gives.bind (gives_pure [] after)).round, agreesAfter, soundAfter⟩
  | handed scanner token behind given ih =>
    obtain ⟨middle, gives, agreesMiddle, soundMiddle⟩ := gives_next agrees sound
    rw [given] at gives agreesMiddle
    obtain ⟨after, onward, agreesAfter, soundAfter⟩ := ih agreesMiddle soundMiddle
    rw [Scanner.drain_of_next_some given]
    refine ⟨after, Gives.round (gives.bind ?_), agreesAfter, soundAfter⟩
    exact onward.bind (gives_pure _ after)

private theorem gives_answer (agrees : memory.Agrees source scanner) (sound : memory.Sound source)
    (call : Scanner.Call) :
    ∃ after, Gives (answer source call) memory (scanner.answer call).1 after ∧
      after.Agrees source (scanner.answer call).2 ∧ after.Sound source := by
  cases call with
  | next =>
    obtain ⟨after, gives, agreesAfter, soundAfter⟩ := gives_next agrees sound
    exact ⟨after, gives.bind (gives_pure _ after), agreesAfter, soundAfter⟩
  | rest =>
    obtain ⟨after, gives, agreesAfter, soundAfter⟩ := gives_rest agrees sound
    exact ⟨after, gives.bind (gives_pure _ after), agreesAfter, soundAfter⟩
  | stats =>
    refine ⟨memory, ?_, agrees, sound⟩
    have told : scanner.stats =
        ⟨source.length, memory.now.start, memory.now.current, memory.now.line⟩ := by
      have inside := (sound.inRange memory.now List.mem_cons_self).current_le
      rw [Scanner.stats, agrees.rest, agrees.position, agrees.start, agrees.line, List.length_drop,
        Nat.add_sub_cancel' inside]
    have gives : Gives (fun _ => stats source) memory scanner.stats memory := by
      rw [told]
      exact (gives_counters memory).bind (gives_pure _ memory)
    exact gives.bind (gives_pure _ memory)

theorem gives_answers (agrees : memory.Agrees source scanner) (sound : memory.Sound source)
    (calls : List Scanner.Call) :
    ∃ after, Gives (fun limit => answers source limit calls) memory (scanner.answers calls).1
        after ∧
      after.Agrees source (scanner.behind calls) ∧ after.Sound source := by
  induction calls generalizing scanner memory with
  | nil => exact ⟨memory, gives_pure [] memory, agrees, sound⟩
  | cons call calls ih =>
    obtain ⟨middle, gives, agreesMiddle, soundMiddle⟩ := gives_answer agrees sound call
    obtain ⟨after, onward, agreesAfter, soundAfter⟩ := ih agreesMiddle soundMiddle
    exact ⟨after, gives.bind (onward.bind (gives_pure _ after)), agreesAfter, soundAfter⟩

/-- Every sequence of calls is answered as by the scanner, and without a breach: no character
outside the source is read, nothing outside it is cut out, and no count goes below zero. The
counters are in range at every moment, and every pass moves forward. No more than one token or one
fault is made for each character, beside the end marker. -/
theorem answers_withinSource (source : String) (calls : List Scanner.Call) : ∃ memory,
    Returns (fun limit => (answers source.toList limit calls).run .start)
      (((Scanner.ofSource source).answers calls).1, memory) ∧
    memory.Agrees source.toList ((Scanner.ofSource source).behind calls) ∧
    memory.Sound source.toList ∧
    ((Scanner.ofSource source).handedBy calls).length ≤ source.length + 1 ∧
    memory.faults.size ≤ source.length := by
  obtain ⟨memory, gives, agrees, sound⟩ :=
    gives_answers (ScanMemory.agrees_start source) (ScanMemory.sound_start _) calls
  obtain ⟨pieces, ahead, passed⟩ := (Scanner.standing_behind source calls).passed
  refine ⟨memory, gives, agrees, sound, ?tokens, ?faults⟩
  case tokens =>
    rw [← String.length_toList]
    exact passed.length_tokens_le
  case faults =>
    rw [← agrees.faults, ← String.length_toList]
    exact passed.size_faults_le

end Walker
end LoxSyntax
