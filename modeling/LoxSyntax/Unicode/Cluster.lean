import LoxSyntax.Unicode.BreakClass

/-! # Grapheme clusters

A text is split into the units that a reader takes for single characters, by the rules of the
Unicode text segmentation for extended grapheme clusters: an accent belongs to its letter, a jamo to
its syllable, a flag is two regional indicators, and a family of emoji stays together. Whether a
character joins the one before it depends on a bounded `Context` of the text before it.

`clusters_flatten` says that splitting loses nothing, and `ne_nil_of_mem_clusters` that no cluster
is empty.
-/

namespace LoxSyntax.Unicode

/-- How far a text has come towards an emoji that is joined to another. -/
inductive EmojiRun where
  | absent
  /-- A pictograph, and extending characters behind it. -/
  | pictograph
  /-- A zero width joiner behind such a pictograph. -/
  | joined
deriving DecidableEq

def EmojiRun.advance (run : EmojiRun) (next : BreakClass) : EmojiRun :=
  match run, next with
  | _, .pictograph => .pictograph
  | .pictograph, .extender => .pictograph
  | .pictograph, .joiner => .joined
  | _, _ => .absent

/-- How far a text has come towards a conjunct of consonants. -/
inductive ConjunctRun where
  | absent
  /-- A consonant, and extending characters behind it. -/
  | consonant
  /-- The same with a linker among the extending characters. -/
  | linked
deriving DecidableEq

/-- The run behind one more character, which is given with its class. The zero width non-joiner
ends a run. -/
def ConjunctRun.advance (run : ConjunctRun) (c : Char) (next : BreakClass) : ConjunctRun :=
  match next with
  | .consonant => .consonant
  | .extender =>
    if isLinker c then if run = .absent then .absent else .linked
    else if c = zeroWidthNonJoiner then .absent
    else run
  | .joiner => run
  | _ => .absent

/-- What the boundary behind a text depends on. -/
structure Context where
  last : BreakClass
  emoji : EmojiRun
  conjunct : ConjunctRun
  /-- The text ends in an odd number of regional indicators. -/
  hasHalfFlag : Bool
deriving DecidableEq

namespace Context

/-- The start of a text, which joins nothing, as a control character does not. -/
def start : Context := ⟨.control, .absent, .absent, false⟩

def advance (context : Context) (c : Char) : Context :=
  let next := BreakClass.ofChar c
  { last := next
    emoji := context.emoji.advance next
    conjunct := context.conjunct.advance c next
    hasHalfFlag := next = .regional && !context.hasHalfFlag }

/-- There is no boundary between the text and a character of this class. The first rule that fits
decides. -/
def joins (context : Context) (next : BreakClass) : Bool :=
  match context.last, next with
  | .carriageReturn, .lineFeed => true
  | .carriageReturn, _ | .lineFeed, _ | .control, _ => false
  | _, .carriageReturn | _, .lineFeed | _, .control => false
  | .leadingJamo, .leadingJamo | .leadingJamo, .vowelJamo => true
  | .leadingJamo, .openSyllable | .leadingJamo, .closedSyllable => true
  | .openSyllable, .vowelJamo | .openSyllable, .trailingJamo => true
  | .vowelJamo, .vowelJamo | .vowelJamo, .trailingJamo => true
  | .closedSyllable, .trailingJamo | .trailingJamo, .trailingJamo => true
  | _, .extender | _, .joiner | _, .spacingMark | .leadingMark, _ => true
  | _, .consonant => context.conjunct = .linked
  | _, .pictograph => context.emoji = .joined
  | .regional, .regional => context.hasHalfFlag
  | _, _ => false

/-- Splits the text that follows: the characters that belong to what stands before, and the
clusters behind them. -/
def split (context : Context) : List Char → List Char × List (List Char)
  | [] => ([], [])
  | c :: rest =>
    let (joined, clusters) := (context.advance c).split rest
    if context.joins (.ofChar c) then (c :: joined, clusters) else ([], (c :: joined) :: clusters)

theorem split_flatten (context : Context) (text : List Char) :
    (context.split text).1 ++ (context.split text).2.flatten = text := by
  induction text generalizing context with
  | nil => rfl
  | cons c rest ih =>
    have later := ih (context.advance c)
    simp only [split]
    split <;> simp [later]

theorem ne_nil_of_mem_split (context : Context) (text : List Char) :
    ∀ cluster ∈ (context.split text).2, cluster ≠ [] := by
  induction text generalizing context with
  | nil => simp [split]
  | cons c rest ih =>
    have later := ih (context.advance c)
    simp only [split]
    split
    · exact later
    · simpa using later

theorem split_start_fst (text : List Char) : (start.split text).1 = [] := by
  cases text with
  | nil => rfl
  | cons c rest =>
    have apart : start.joins (.ofChar c) = false := by
      cases BreakClass.ofChar c <;> rfl
    simp [split, apart]

end Context

def clusters (text : List Char) : List (List Char) := (Context.start.split text).2

/-- Together the clusters are the text. -/
theorem clusters_flatten (text : List Char) : (clusters text).flatten = text := by
  have whole := Context.start.split_flatten text
  rwa [Context.split_start_fst, List.nil_append] at whole

theorem ne_nil_of_mem_clusters {text cluster : List Char} (member : cluster ∈ clusters text) :
    cluster ≠ [] :=
  Context.start.ne_nil_of_mem_split text cluster member

end LoxSyntax.Unicode
