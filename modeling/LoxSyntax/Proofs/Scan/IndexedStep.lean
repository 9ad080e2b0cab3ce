import LoxSyntax.Proofs.Parse.IndexedStep
import LoxSyntax.Proofs.Scan.Indexed

/-! # Steps of a scanner by index

What each primitive of `Walker` comes to in the middle of a piece: none of them breaches there. The
indices of the machine are read as a division of its source (`Place`): what earlier passes have
read, what this pass has read, and what remains. `Pass.Walks` tells how a call changes the division,
so that the calls that read pieces can be followed without a look at the counters.
-/

namespace LoxSyntax

private theorem lineBehind_le (before : List Char) : lineBehind before ≤ before.length + 1 := by
  have bound : before.count '\n' ≤ before.length := List.count_le_length
  simp only [lineBehind]
  omega

/-- The counters are in range in front of a source of this length. -/
structure ScanCounters.InRange (length : Nat) (counters : ScanCounters) : Prop where
  start_le : counters.start ≤ counters.current
  current_le : counters.current ≤ length
  startLine_le : counters.startLine ≤ counters.line
  line_le : counters.line ≤ length + 1
  depth_le : counters.depth ≤ counters.current

namespace ScanCounters.InRange

variable {length : Nat} {counters : ScanCounters}

/-- Where a newline is counted and read, the counters are in range after the first of the two. -/
theorem newLine (here : counters.InRange length)
    (behind : counters.advanced.newLine.InRange length) : counters.newLine.InRange length where
  start_le := here.start_le
  current_le := here.current_le
  startLine_le := behind.startLine_le
  line_le := behind.line_le
  depth_le := here.depth_le

theorem advanced (here : counters.InRange length)
    (behind : counters.advanced.newLine.InRange length) : counters.advanced.InRange length where
  start_le := behind.start_le
  current_le := behind.current_le
  startLine_le := here.startLine_le
  line_le := here.line_le
  depth_le := behind.depth_le

end ScanCounters.InRange

namespace Walker

/-- From this memory the walk comes to this value and this memory, and to no breach, as soon as its
loops may take enough rounds. -/
def Gives {α : Type} (walker : Nat → Walker α) (memory : ScanMemory) (value : α)
    (after : ScanMemory) : Prop :=
  Returns (fun limit => (walker limit).run memory) (value, after)

section Gives

variable {α β : Type} {walker : Nat → Walker α} {onward : Nat → α → Walker β}
  {memory middle after : ScanMemory} {value : α} {result : β}

theorem Gives.bind (first : Gives walker memory value middle)
    (second : Gives (onward · value) middle result after) :
    Gives (fun limit => walker limit >>= onward limit) memory result after :=
  Returns.bind first second

/-- A loop that may take one round more gives the same. -/
theorem Gives.round (gives : Gives (fun limit => walker (limit + 1)) memory value after) :
    Gives walker memory value after := by
  obtain ⟨enough, gives⟩ := gives
  refine ⟨enough + 1, fun limit bound => ?_⟩
  obtain ⟨smaller, rfl⟩ := Nat.exists_eq_add_one.mpr (Nat.lt_of_lt_of_le (Nat.succ_pos _) bound)
  exact gives smaller (Nat.le_of_succ_le_succ bound)

theorem gives_pure (value : α) (memory : ScanMemory) :
    Gives (fun _ => pure value) memory value memory :=
  returns_of_forall fun _ => rfl

theorem gives_counters (memory : ScanMemory) :
    Gives (fun _ => counters) memory memory.now memory :=
  returns_of_forall fun _ => rfl

theorem gives_modify (change : ScanMemory → ScanMemory) (memory : ScanMemory) :
    Gives (fun _ => (modify change : Walker Unit)) memory () (change memory) :=
  returns_of_forall fun _ => rfl

private theorem gives_charAt {source : List Char} {index : Nat} {c : Char}
    (here : source[index]? = some c)
    (memory : ScanMemory) : Gives (fun _ => charAt source index) memory c memory := by
  rw [charAt, here]
  exact gives_pure c memory

theorem gives_advance {source : List Char} {c : Char}
    (here : source[memory.now.current]? = some c) :
    Gives (fun _ => advance source) memory c memory.advance := by
  apply (gives_counters memory).bind
  apply (gives_charAt here memory).bind
  exact (gives_modify _ memory).bind (gives_pure c _)

private theorem gives_slice {source : List Char} {first last : Nat} (ordered : first ≤ last)
    (inside : last ≤ source.length) (memory : ScanMemory) :
    Gives (fun _ => slice source first last) memory (source.extract first last) memory := by
  rw [slice, if_pos ⟨ordered, inside⟩]
  exact gives_pure _ memory

end Gives
end Walker

/-- How far a pass has come. -/
structure Place where
  /-- What it has read. -/
  text : List Char
  /-- What remains of the source. -/
  rest : List Char
  /-- How many block comments are counted as open. -/
  depth : Nat
  faults : Array Fault

/-- What a pass over a piece finds. -/
structure Pass where
  source : List Char
  /-- What earlier passes have read. -/
  before : List Char
  /-- Where earlier passes began and ended. -/
  passes : List (Nat × Nat)

namespace Pass

/-- The counters of a pass that has come so far. -/
def counters (pass : Pass) (place : Place) : ScanCounters where
  start := pass.before.length
  current := (pass.before ++ place.text).length
  line := lineBehind (pass.before ++ place.text)
  startLine := lineBehind pass.before
  depth := place.depth

/-- The memory is that of a pass that has come so far, and no counter was ever out of range. -/
structure Holds (pass : Pass) (place : Place) (memory : ScanMemory) : Prop where
  whole : pass.source = pass.before ++ (place.text ++ place.rest)
  now : memory.now = pass.counters place
  inRange : ∀ counters ∈ memory.all, counters.InRange pass.source.length
  passes : memory.passes = pass.passes
  finished : memory.finished = false
  faults : memory.faults = place.faults

/-- A call that is made when the pass has come to the one place comes to this value, and the pass to
the other place. -/
def Walks {α : Type} (pass : Pass) (walker : Nat → Walker α) (place : Place) (value : α)
    (next : Place) : Prop :=
  ∀ memory, pass.Holds place memory →
    ∃ after, Walker.Gives walker memory value after ∧ pass.Holds next after

section Holds

variable {pass : Pass} {place next : Place} {memory : ScanMemory}

private theorem inRange_counters (whole : pass.source = pass.before ++ (place.text ++ place.rest))
    (shallow : place.depth ≤ (pass.before ++ place.text).length) :
    (pass.counters place).InRange pass.source.length where
  start_le := by simp [counters]
  current_le := by simp [counters, whole, ← Nat.add_assoc]
  startLine_le := lineBehind_le_of_prefix (List.prefix_append _ _)
  line_le := by
    have bound := lineBehind_le (pass.before ++ place.text)
    simp only [counters, whole, List.length_append] at bound ⊢
    omega
  depth_le := shallow

namespace Holds

theorem depth_le (holds : pass.Holds place memory) :
    place.depth ≤ (pass.before ++ place.text).length := by
  have inRange := holds.inRange memory.now List.mem_cons_self
  rw [holds.now] at inRange
  exact inRange.depth_le

/-- The counters change to those of another place. -/
theorem move (holds : pass.Holds place memory)
    (kept : place.text ++ place.rest = next.text ++ next.rest) (faults : place.faults = next.faults)
    (shallow : next.depth ≤ (pass.before ++ next.text).length) :
    pass.Holds next (memory.move (pass.counters next)) where
  whole := by rw [holds.whole, kept]
  now := rfl
  inRange := by
    intro counters member
    rcases List.mem_cons.mp member with rfl | older
    · exact inRange_counters (by rw [holds.whole, kept]) shallow
    · exact holds.inRange counters older
  passes := holds.passes
  finished := holds.finished
  faults := by rw [← faults, ← holds.faults]; rfl

/-- Counters in range that the pass has had on its way do no harm. -/
theorem insert (holds : pass.Holds place (memory.move (pass.counters place)))
    {middle : ScanCounters} (inRange : middle.InRange pass.source.length) :
    pass.Holds place ((memory.move middle).move (pass.counters place)) where
  whole := holds.whole
  now := rfl
  inRange := by
    intro counters member
    rcases List.mem_cons.mp member with rfl | older
    · exact holds.inRange _ List.mem_cons_self
    rcases List.mem_cons.mp older with rfl | oldest
    · exact inRange
    · exact holds.inRange counters (List.mem_cons_of_mem _ oldest)
  passes := holds.passes
  finished := holds.finished
  faults := holds.faults

/-- The next character is read. -/
theorem advance {text rest : List Char} {depth : Nat} {faults : Array Fault} {c : Char}
    (holds : pass.Holds ⟨text, c :: rest, depth, faults⟩ memory) :
    pass.Holds ⟨text ++ [c], rest, depth, faults⟩
      (memory.move (pass.counters ⟨text ++ [c], rest, depth, faults⟩)) := by
  have shallow := holds.depth_le
  refine holds.move (by simp) rfl ?_
  simp only [List.length_append, List.length_singleton] at shallow ⊢
  omega

end Holds
end Holds

section Walks

variable {α β : Type} {pass : Pass} {place middle next : Place} {value : α} {result : β}
  {walker : Nat → Walker α} {onward : Nat → α → Walker β}

theorem Walks.bind (first : pass.Walks walker place value middle)
    (second : pass.Walks (onward · value) middle result next) :
    pass.Walks (fun limit => walker limit >>= onward limit) place result next := by
  intro memory holds
  obtain ⟨between, gives, holds⟩ := first memory holds
  obtain ⟨after, gives', holds⟩ := second between holds
  exact ⟨after, gives.bind gives', holds⟩

theorem Walks.round (walks : pass.Walks (fun limit => walker (limit + 1)) place value next) :
    pass.Walks walker place value next := by
  intro memory holds
  obtain ⟨after, gives, holds⟩ := walks memory holds
  exact ⟨after, gives.round, holds⟩

theorem walks_pure (pass : Pass) (value : α) (place : Place) :
    pass.Walks (fun _ => pure value) place value place :=
  fun memory holds => ⟨memory, Walker.gives_pure value memory, holds⟩

theorem walks_counters (pass : Pass) (place : Place) :
    pass.Walks (fun _ => Walker.counters) place (pass.counters place) place := by
  intro memory holds
  rw [← holds.now]
  exact ⟨memory, Walker.gives_counters memory, holds⟩

theorem walks_report (pass : Pass) (place : Place) (fault : Fault) :
    pass.Walks (fun _ => modify (·.report fault)) place ()
      { place with faults := place.faults.push fault } := by
  intro memory holds
  exact ⟨memory.report fault, Walker.gives_modify _ memory, holds.whole, holds.now, holds.inRange,
    holds.passes, holds.finished, congrArg (·.push fault) holds.faults⟩

end Walks

section Steps

variable {pass : Pass} {text rest : List Char} {depth : Nat} {faults : Array Fault} {c : Char}
  {memory : ScanMemory}

theorem Holds.current_eq {place : Place} (holds : pass.Holds place memory) :
    memory.now.current = (pass.before ++ place.text).length := by
  rw [holds.now]
  rfl

theorem Holds.take_current {place : Place} (holds : pass.Holds place memory) :
    pass.source.take memory.now.current = pass.before ++ place.text := by
  rw [holds.current_eq, holds.whole, ← List.append_assoc, List.take_left]

theorem Holds.drop_current {place : Place} (holds : pass.Holds place memory) :
    pass.source.drop memory.now.current = place.rest := by
  rw [holds.current_eq, holds.whole, ← List.append_assoc, List.drop_left]

theorem Holds.getElem?_current {place : Place}
    (holds : pass.Holds place memory) (ahead : Nat) :
    pass.source[memory.now.current + ahead]? = place.rest[ahead]? := by
  rw [holds.current_eq, holds.whole, ← List.append_assoc, List.getElem?_append_right (by omega),
    Nat.add_sub_cancel_left]

theorem Holds.length_eq {place : Place} (holds : pass.Holds place memory) :
    pass.source.length = memory.now.current + place.rest.length := by
  rw [holds.current_eq, holds.whole, ← List.append_assoc, List.length_append]

theorem walks_atEnd (place : Place) :
    pass.Walks (fun _ => Walker.atEnd pass.source) place place.rest.isEmpty place := by
  intro memory holds
  have told : decide (pass.source.length ≤ memory.now.current) = place.rest.isEmpty := by
    rw [holds.length_eq]
    cases place.rest <;> simp
  rw [← told]
  exact ⟨memory, (Walker.gives_counters memory).bind (Walker.gives_pure _ memory), holds⟩

theorem walks_peek (place : Place) :
    pass.Walks (fun _ => Walker.peek pass.source) place (place.rest.headD '\x00') place := by
  apply (walks_atEnd place).bind
  cases ahead : place.rest with
  | nil => exact walks_pure pass _ place
  | cons c rest =>
    intro memory holds
    have here : pass.source[memory.now.current]? = some c := by
      rw [← Nat.add_zero memory.now.current, holds.getElem?_current, ahead]
      rfl
    exact ⟨memory, (Walker.gives_counters memory).bind (Walker.gives_charAt here memory), holds⟩

theorem walks_peekNext (place : Place) :
    pass.Walks (fun _ => Walker.peekNext pass.source) place (place.rest.tail.headD '\x00')
      place := by
  intro memory holds
  refine ⟨memory, (Walker.gives_counters memory).bind ?_, holds⟩
  have length := holds.length_eq
  cases ahead : place.rest.tail with
  | nil =>
    have short := congrArg List.length ahead
    rw [List.length_tail, List.length_nil] at short
    rw [if_pos (by omega)]
    exact Walker.gives_pure _ memory
  | cons c rest =>
    have long := congrArg List.length ahead
    rw [List.length_tail, List.length_cons] at long
    have here : pass.source[memory.now.current + 1]? = some c := by
      rw [holds.getElem?_current, ← List.getElem?_tail, ahead]
      rfl
    rw [if_neg (by omega)]
    exact Walker.gives_charAt here memory

private theorem Holds.advance_plain (holds : pass.Holds ⟨text, c :: rest, depth, faults⟩ memory)
    (plain : c ≠ '\n') : pass.Holds ⟨text ++ [c], rest, depth, faults⟩ memory.advance := by
  have stepped := holds.advance
  have told : pass.counters ⟨text ++ [c], rest, depth, faults⟩ = memory.now.advanced := by
    simp [holds.now, counters, ScanCounters.advanced, lineBehind, plain, Nat.add_assoc]
  rwa [told] at stepped

/-- A newline is counted and read, in either order. -/
theorem Holds.newLine (holds : pass.Holds ⟨text, '\n' :: rest, depth, faults⟩ memory) :
    pass.Holds ⟨text ++ ['\n'], rest, depth, faults⟩ memory.newLine.advance ∧
      pass.Holds ⟨text ++ ['\n'], rest, depth, faults⟩ memory.advance.newLine := by
  have stepped := holds.advance
  have told : pass.counters ⟨text ++ ['\n'], rest, depth, faults⟩ =
      memory.now.advanced.newLine := by
    simp [holds.now, counters, ScanCounters.advanced, ScanCounters.newLine, lineBehind,
      Nat.add_assoc]
  have here := holds.inRange memory.now List.mem_cons_self
  have behind : memory.now.advanced.newLine.InRange pass.source.length := by
    rw [← told]
    exact stepped.inRange _ List.mem_cons_self
  have countedFirst := stepped.insert (here.newLine behind)
  have readFirst := stepped.insert (here.advanced behind)
  rw [told] at countedFirst readFirst
  exact ⟨countedFirst, readFirst⟩

theorem walks_advance (plain : c ≠ '\n') :
    pass.Walks (fun _ => Walker.advance pass.source) ⟨text, c :: rest, depth, faults⟩ c
      ⟨text ++ [c], rest, depth, faults⟩ :=
  fun memory holds =>
    ⟨memory.advance, Walker.gives_advance (holds.getElem?_current 0), holds.advance_plain plain⟩

theorem walks_skip (plain : c ≠ '\n') :
    pass.Walks (fun _ => Walker.skip pass.source) ⟨text, c :: rest, depth, faults⟩ ()
      ⟨text ++ [c], rest, depth, faults⟩ :=
  (walks_advance plain).bind (walks_pure pass () _)

theorem walks_skipAnywhere :
    pass.Walks (fun _ => Walker.skipAnywhere pass.source) ⟨text, c :: rest, depth, faults⟩ ()
      ⟨text ++ [c], rest, depth, faults⟩ := by
  apply (walks_peek _).bind
  by_cases ends : c = '\n'
  · subst ends
    simp only [List.headD_cons, ↓reduceIte]
    intro memory holds
    have here : pass.source[memory.newLine.now.current]? = some '\n' := holds.getElem?_current 0
    refine ⟨memory.newLine.advance, ?_, holds.newLine.1⟩
    apply (Walker.gives_modify _ memory).bind
    exact (Walker.gives_advance here).bind (Walker.gives_pure () _)
  · simp only [List.headD_cons, ends, ↓reduceIte]
    exact walks_skip ends

theorem walks_matchChar_self (plain : c ≠ '\n') :
    pass.Walks (fun _ => Walker.matchChar pass.source c) ⟨text, c :: rest, depth, faults⟩ true
      ⟨text ++ [c], rest, depth, faults⟩ := by
  apply (walks_atEnd _).bind
  simp only [List.isEmpty_cons, Bool.false_eq_true, ↓reduceIte]
  intro memory holds
  refine ⟨memory.advance, ?_, holds.advance_plain plain⟩
  apply (Walker.gives_counters memory).bind
  apply (Walker.gives_charAt (holds.getElem?_current 0) memory).bind
  simp only [ne_eq, not_true_eq_false, ↓reduceIte]
  exact (Walker.gives_modify _ memory).bind (Walker.gives_pure true _)

theorem walks_matchChar_other {place : Place} (other : place.rest.head? ≠ some c) :
    pass.Walks (fun _ => Walker.matchChar pass.source c) place false place := by
  apply (walks_atEnd place).bind
  cases ahead : place.rest with
  | nil => exact walks_pure pass false place
  | cons next rest =>
    simp only [List.isEmpty_cons, Bool.false_eq_true, ↓reduceIte]
    intro memory holds
    have here : pass.source[memory.now.current]? = some next := by
      have found := holds.getElem?_current 0
      rwa [ahead] at found
    refine ⟨memory, ?_, holds⟩
    apply (Walker.gives_counters memory).bind
    apply (Walker.gives_charAt here memory).bind
    have differ : next ≠ c := by simpa [ahead] using other
    rw [if_pos differ]
    exact Walker.gives_pure false memory

theorem walks_sees_true {first second : Char} :
    pass.Walks (fun _ => Walker.sees pass.source first second)
      ⟨text, first :: second :: rest, depth, faults⟩ true
      ⟨text, first :: second :: rest, depth, faults⟩ := by
  apply (walks_peek _).bind
  simp only [List.headD_cons, ↓reduceIte]
  apply (walks_peekNext _).bind
  simp only [List.tail_cons, List.headD_cons, decide_true]
  exact walks_pure pass true _

theorem walks_sees_false {first second : Char} {place : Place}
    (other : ∀ rest, place.rest ≠ first :: second :: rest) (proper : second ≠ '\x00') :
    pass.Walks (fun _ => Walker.sees pass.source first second) place false place := by
  apply (walks_peek _).bind
  by_cases begins : place.rest.headD '\x00' = first
  · rw [if_pos begins]
    apply (walks_peekNext _).bind
    have differs : place.rest.tail.headD '\x00' ≠ second := by
      cases ahead : place.rest with
      | nil => simp [proper.symm]
      | cons c others =>
        cases others with
        | nil => simp [proper.symm]
        | cons d others =>
          rintro rfl
          simp only [ahead, List.headD_cons] at begins
          exact other others (by rw [ahead, begins]; rfl)
    rw [decide_eq_false differs]
    exact walks_pure pass false place
  · rw [if_neg begins]
    exact walks_pure pass false place

/-- What is cut out of the middle of the text that has been read. -/
theorem walks_slice {front inner behind : List Char} {place : Place}
    (read : place.text = front ++ (inner ++ behind)) :
    pass.Walks (fun _ => Walker.slice pass.source (pass.before ++ front).length
      (pass.before ++ front ++ inner).length) place inner place := by
  intro memory holds
  refine ⟨memory, ?_, holds⟩
  have whole : pass.source = pass.before ++ front ++ (inner ++ (behind ++ place.rest)) := by
    simp [holds.whole, read]
  have last := @List.length_append _ (pass.before ++ front) inner
  have cut : pass.source.extract (pass.before ++ front).length
      (pass.before ++ front ++ inner).length = inner := by
    rw [last, whole, List.extract_eq_take_drop, List.drop_left, Nat.add_sub_cancel_left,
      List.take_left]
  have ordered : (pass.before ++ front).length ≤ (pass.before ++ front ++ inner).length := by omega
  have inside : (pass.before ++ front ++ inner).length ≤ pass.source.length := by
    simp only [whole, List.length_append]
    omega
  have gives := Walker.gives_slice ordered inside memory
  rwa [cut] at gives

theorem walks_lexeme (place : Place) :
    pass.Walks (fun _ => Walker.lexeme pass.source) place place.text place := by
  have read : place.text = [] ++ (place.text ++ []) := by simp
  have slice : pass.Walks _ place place.text place := walks_slice read
  rw [List.append_nil] at slice
  exact (walks_counters pass place).bind slice

theorem walks_token (place : Place) (kind : Kind) (literal : Option Literal) :
    pass.Walks (fun _ => Walker.token pass.source kind literal) place
      (some ⟨kind, String.ofList place.text, literal, lineBehind pass.before⟩) place :=
  (walks_lexeme place).bind ((walks_counters pass place).bind (walks_pure pass _ place))

/-- The count of open block comments changes to a number of the characters that have been read. -/
theorem walks_nest {place : Place} (deeper : Nat)
    (shallow : deeper ≤ (pass.before ++ place.text).length) :
    pass.Walks (fun _ => modify (·.nest deeper)) place () { place with depth := deeper } := by
  intro memory holds
  refine ⟨memory.nest deeper, Walker.gives_modify _ memory, ?_⟩
  have nested : pass.Holds { place with depth := deeper } _ := holds.move rfl rfl shallow
  rwa [ScanMemory.nest, holds.now]

theorem walks_enter (room : depth < (pass.before ++ text).length) :
    pass.Walks (fun _ => Walker.enter) ⟨text, rest, depth, faults⟩ ()
      ⟨text, rest, depth + 1, faults⟩ :=
  (walks_counters pass _).bind (walks_nest (depth + 1) room)

theorem walks_leave :
    pass.Walks (fun _ => Walker.leave) ⟨text, rest, depth + 1, faults⟩ ()
      ⟨text, rest, depth, faults⟩ := by
  intro memory holds
  have shallow : depth ≤ (pass.before ++ text).length := Nat.le_of_succ_le holds.depth_le
  exact (walks_counters pass _).bind (walks_nest depth shallow) memory holds

end Steps
end Pass
end LoxSyntax
