import LoxSyntax.Proofs.Parse.Indexed
import Mathlib.Logic.Relation

/-! # Steps of a parser by index

What each primitive of `Reader` comes to when the counters stand inside the tokens: none of them
breaches there. The counters change in four ways only, and `Track.LeadsTo` is any number of such
changes; they never go back and, since the last token is an end marker, they never leave the tokens.
-/

namespace LoxSyntax

section Returns

variable {α β : Type} {call : Nat → Ending α} {onward : Nat → α → Ending β} {value other : α}
  {result : β}

theorem returns_of_forall (comes : ∀ limit, call limit = pure value) : Returns call value :=
  ⟨0, fun limit _ => comes limit⟩

theorem Returns.bind (first : Returns call value) (second : Returns (onward · value) result) :
    Returns (fun limit => call limit >>= onward limit) result := by
  obtain ⟨enough, first⟩ := first
  obtain ⟨more, second⟩ := second
  refine ⟨max enough more, fun limit bound => ?_⟩
  obtain ⟨bound, further⟩ := Nat.max_le.mp bound
  simp only [first limit bound, pure_bind]
  exact second limit further

theorem Returns.unique (returns : Returns call value) (rival : Returns call other) :
    value = other := by
  obtain ⟨enough, returns⟩ := returns
  obtain ⟨more, rival⟩ := rival
  have same : (pure value : Ending α) = pure other :=
    (returns _ (Nat.le_max_left enough more)).symm.trans (rival _ (Nat.le_max_right enough more))
  exact Except.ok.inj (Option.some.inj same)

end Returns

namespace Reader

/-- From these counters the reader comes to this result and these counters, and to no breach, as
soon as its calls may nest deeply enough. -/
def Gives {α : Type} (reader : Nat → Reader α) (track : Track) (result : Except Fault α)
    (after : Track) : Prop :=
  Returns (fun limit => (reader limit).run.run track) (result, after)

section Gives

variable {α β : Type} {reader : Nat → Reader α} {onward : Nat → α → Reader β}
  {track middle after : Track} {value : α} {result : Except Fault β} {fault : Fault}

theorem Gives.bind (first : Gives reader track (.ok value) middle)
    (second : Gives (onward · value) middle result after) :
    Gives (fun limit => reader limit >>= onward limit) track result after :=
  Returns.bind first second

theorem Gives.bind_error (failed : Gives reader track (.error fault) after) :
    Gives (fun limit => reader limit >>= onward limit) track (.error fault) after :=
  Returns.bind failed (returns_of_forall fun _ => rfl)

/-- A reader that nests one call more gives the same. -/
theorem gives_call_iff {result : Except Fault α} :
    Gives reader track result after ↔
      Gives (fun limit => reader (limit + 1)) track result after := by
  constructor
  · rintro ⟨enough, gives⟩
    exact ⟨enough, fun limit bound => gives (limit + 1) (Nat.le_succ_of_le bound)⟩
  · rintro ⟨enough, gives⟩
    refine ⟨enough + 1, fun limit bound => ?_⟩
    obtain ⟨smaller, rfl⟩ := Nat.exists_eq_add_one.mpr (Nat.lt_of_lt_of_le (Nat.succ_pos _) bound)
    exact gives smaller (Nat.le_of_succ_le_succ bound)

theorem gives_pure (value : α) (track : Track) :
    Gives (fun _ => pure value) track (.ok value) track :=
  returns_of_forall fun _ => rfl

theorem gives_throw (fault : Fault) (track : Track) :
    Gives (fun _ => (throw fault : Reader α)) track (.error fault) track :=
  returns_of_forall fun _ => rfl

theorem gives_counters (track : Track) : Gives (fun _ => counters) track (.ok track.now) track :=
  returns_of_forall fun _ => rfl

theorem gives_modify (change : Track → Track) (track : Track) :
    Gives (fun _ => (modify change : Reader Unit)) track (.ok ()) (change track) :=
  returns_of_forall fun _ => rfl

end Gives

section Steps

variable {tokens : List Token} {track : Track} {next : Token}

private theorem gives_tokenAt {index : Nat} (here : tokens[index]? = some next) (track : Track) :
    Gives (fun _ => tokenAt tokens index) track (.ok next) track := by
  rw [tokenAt, here]
  exact gives_pure next track

theorem gives_peek (here : tokens[track.now.current]? = some next) :
    Gives (fun _ => peek tokens) track (.ok next) track :=
  (gives_counters track).bind (gives_tokenAt here track)

theorem gives_previous {index : Nat} (place : track.now.current = index + 1)
    (before : tokens[index]? = some next) :
    Gives (fun _ => previous tokens) track (.ok next) track := by
  apply (gives_counters track).bind
  rw [place]
  exact gives_tokenAt before track

theorem gives_atEnd (here : tokens[track.now.current]? = some next) :
    Gives (fun _ => atEnd tokens) track (.ok (decide (next.kind = .eof))) track :=
  (gives_peek here).bind (gives_pure _ track)

theorem gives_advance (here : tokens[track.now.current]? = some next) (inside : next.kind ≠ .eof) :
    Gives (fun _ => advance tokens) track (.ok next) track.advance := by
  apply (gives_atEnd here).bind
  rw [if_neg (by simpa using inside)]
  exact (gives_modify _ track).bind (gives_previous rfl here)

theorem gives_check (here : tokens[track.now.current]? = some next) {kind : Kind}
    (inside : kind ≠ .eof) :
    Gives (fun _ => check tokens kind) track (.ok (decide (next.kind = kind))) track := by
  apply (gives_atEnd here).bind
  by_cases ends : next.kind = .eof
  · rw [if_pos (by simpa using ends)]
    have other : next.kind ≠ kind := by
      rw [ends]
      exact inside.symm
    rw [decide_eq_false other]
    exact gives_pure false track
  · rw [if_neg (by simpa using ends)]
    exact (gives_peek here).bind (gives_pure _ track)

private theorem gives_anyM_check (here : tokens[track.now.current]? = some next) {kinds : List Kind}
    (inside : .eof ∉ kinds) :
    Gives (fun _ => kinds.anyM (check tokens)) track (.ok (decide (next.kind ∈ kinds))) track := by
  induction kinds with
  | nil => exact gives_pure false track
  | cons kind kinds ih =>
    obtain ⟨notKind, notKinds⟩ := not_or.mp (mt List.mem_cons.mpr inside)
    apply (gives_check here (Ne.symm notKind)).bind
    by_cases same : next.kind = kind
    · simp only [same, decide_true, List.mem_cons_self]
      exact gives_pure true track
    · simp only [same, decide_false, List.mem_cons, false_or]
      exact ih notKinds

theorem gives_matchKinds_true (here : tokens[track.now.current]? = some next) {kinds : List Kind}
    (inside : .eof ∉ kinds) (member : next.kind ∈ kinds) :
    Gives (fun _ => matchKinds tokens kinds) track (.ok true) track.advance := by
  apply (gives_anyM_check here inside).bind
  rw [if_pos (by simpa using member)]
  have notEnd : next.kind ≠ .eof := by
    intro ends
    rw [ends] at member
    exact inside member
  exact (gives_advance here notEnd).bind (gives_pure true _)

theorem gives_matchKinds_false (here : tokens[track.now.current]? = some next) {kinds : List Kind}
    (inside : .eof ∉ kinds) (other : next.kind ∉ kinds) :
    Gives (fun _ => matchKinds tokens kinds) track (.ok false) track := by
  apply (gives_anyM_check here inside).bind
  rw [if_neg (by simpa using other)]
  exact gives_pure false track

theorem gives_failHere {α : Type} (inside : track.now.current < tokens.length)
    (reason : SyntaxReason) :
    Gives (fun _ => (failHere tokens reason : Reader α)) track
      (.error (.atToken (nextToken (tokens.drop track.now.current)) reason)) track := by
  rw [List.drop_eq_getElem_cons inside]
  exact (gives_peek (List.getElem?_eq_getElem inside)).bind (gives_throw _ track)

end Steps
end Reader

/-- What the counters can change to, in front of the tokens. An end marker is never passed, and no
nesting is opened when too many are open already. -/
inductive Counters.Step (tokens : List Token) : Counters → Counters → Prop where
  | advance {counters : Counters} {next : Token} (here : tokens[counters.current]? = some next)
      (inside : next.kind ≠ .eof) : Step tokens counters counters.advanced
  | enter {counters : Counters} (room : counters.depth ≤ maxNesting) :
      Step tokens counters counters.nested
  | leave {counters : Counters} {depth : Nat} (opened : counters.depth = depth + 1) :
      Step tokens counters ⟨counters.current, depth⟩
  | restart {counters : Counters} : Step tokens counters counters.restarted

/-- The last of the tokens is an end marker. -/
def EndsInMarker (tokens : List Token) : Prop :=
  ∃ before last, tokens = before ++ [last] ∧ last.kind = .eof

/-- The counters have come from one track to the other step by step. -/
def Track.LeadsTo (tokens : List Token) : Track → Track → Prop :=
  Relation.ReflTransGen fun track after =>
    ∃ next, track.now.Step tokens next ∧ after = track.move next

namespace Counters

variable {tokens : List Token} {counters next : Counters}

theorem Step.current_le (step : counters.Step tokens next) : counters.current ≤ next.current := by
  cases step with
  | advance here inside => exact Nat.le_succ _
  | enter room => exact Nat.le_refl _
  | leave opened => exact Nat.le_refl _
  | restart => exact Nat.le_refl _

/-- The last token is an end marker, so the counters stay before the end of the list. -/
theorem Step.current_lt (step : counters.Step tokens next) (ends : EndsInMarker tokens)
    (inside : counters.current < tokens.length) : next.current < tokens.length := by
  cases step with
  | advance here notEnd =>
    obtain ⟨before, last, rfl, marker⟩ := ends
    have notLast : counters.current ≠ before.length := by
      intro same
      rw [same, List.getElem?_concat_length] at here
      cases here
      exact notEnd marker
    simp only [advanced, List.length_append, List.length_singleton] at inside ⊢
    omega
  | enter room => exact inside
  | leave opened => exact inside
  | restart => exact inside

end Counters

namespace Track.LeadsTo

variable {tokens : List Token} {track middle after : Track}

theorem refl (track : Track) : track.LeadsTo tokens track := Relation.ReflTransGen.refl

theorem trans (first : track.LeadsTo tokens middle) (second : middle.LeadsTo tokens after) :
    track.LeadsTo tokens after :=
  Relation.ReflTransGen.trans first second

theorem move {next : Counters} (step : track.now.Step tokens next) :
    track.LeadsTo tokens (track.move next) :=
  Relation.ReflTransGen.single ⟨next, step, rfl⟩

theorem advance {next : Token} (here : tokens[track.now.current]? = some next)
    (inside : next.kind ≠ .eof) : track.LeadsTo tokens track.advance :=
  .move (.advance here inside)

theorem nest (room : track.now.depth ≤ maxNesting) : track.LeadsTo tokens track.nest :=
  .move (.enter room)

theorem current_le (leads : track.LeadsTo tokens after) :
    track.now.current ≤ after.now.current := by
  induction leads with
  | refl => exact Nat.le_refl _
  | tail leads moved ih =>
    obtain ⟨next, step, rfl⟩ := moved
    exact Nat.le_trans ih step.current_le

theorem current_lt (leads : track.LeadsTo tokens after) (ends : EndsInMarker tokens)
    (inside : track.now.current < tokens.length) : after.now.current < tokens.length := by
  induction leads with
  | refl => exact inside
  | tail leads moved ih =>
    obtain ⟨next, step, rfl⟩ := moved
    exact step.current_lt ends ih

end Track.LeadsTo

namespace Reader

section Nesting

variable {tokens : List Token} {track : Track} {next : Token}

theorem gives_enter (room : track.now.depth < maxNesting) :
    Gives (fun _ => enter tokens) track (.ok ()) track.nest := by
  apply (gives_modify _ track).bind
  apply (gives_counters _).bind
  have within : ¬ maxNesting < track.nest.now.depth := Nat.not_lt.mpr room
  rw [if_neg within]
  exact gives_pure () _

theorem gives_enter_full (full : maxNesting ≤ track.now.depth)
    (inside : track.now.current < tokens.length) :
    Gives (fun _ => enter tokens) track
      (.error (.atToken (nextToken (tokens.drop track.now.current)) .tooMuchNesting))
      track.nest := by
  apply (gives_modify _ track).bind
  apply (gives_counters _).bind
  have beyond : maxNesting < track.nest.now.depth := Nat.lt_succ_of_le full
  rw [if_pos beyond]
  have inside : track.nest.now.current < tokens.length := inside
  exact gives_failHere inside _

theorem gives_leave {depth : Nat} (opened : track.now.depth = depth + 1) :
    Gives (fun _ => leave) track (.ok ()) (track.move ⟨track.now.current, depth⟩) := by
  obtain ⟨⟨current, _⟩, earlier⟩ := track
  obtain rfl := opened
  exact (gives_counters _).bind (gives_modify _ _)

end Nesting

end Reader
end LoxSyntax
