import LoxSyntax.Scan.Piece

/-! # The scanner

A scanner hands out the tokens of a source text one at a time, the end marker last and once. It
passes over blanks and comments, collects what is wrong with the text, and keeps the counters that
a listing of its position shows. What a piece is lies in `LoxSyntax.Scan.Piece`.
-/

namespace LoxSyntax

/-- The counters of a scanner: characters of the source, where the last piece begins, where the
scanner stands, and the line it is on. -/
structure ScanStats where
  sourceLength : Nat
  start : Nat
  current : Nat
  lines : Nat
deriving DecidableEq

/-- A scanner between two tokens. -/
structure Scanner where
  rest : List Char
  /-- How many characters have been read. -/
  position : Nat
  /-- The position at which the last piece begins. -/
  start : Nat
  line : Nat
  /-- The end marker has been handed out. -/
  finished : Bool
  /-- What was wrong so far, in order. -/
  faults : Array Fault
deriving DecidableEq

namespace Scanner

def ofSource (source : String) : Scanner where
  rest := source.toList
  position := 0
  start := 0
  line := 1
  finished := false
  faults := #[]

def stats (scanner : Scanner) : ScanStats where
  sourceLength := scanner.position + scanner.rest.length
  start := scanner.start
  current := scanner.position
  lines := scanner.line

/-- Passes over a piece, behind which `rest` remains. -/
def pass (scanner : Scanner) (piece : Piece) (rest : List Char) : Scanner where
  rest := rest
  position := scanner.position + piece.text.length
  start := scanner.position
  line := scanner.line + piece.text.count '\n'
  finished := scanner.finished
  faults := match piece.fault? scanner.line with
    | some fault => scanner.faults.push fault
    | none => scanner.faults

@[simp] theorem rest_pass (scanner : Scanner) (piece : Piece) (rest : List Char) :
    (scanner.pass piece rest).rest = rest := rfl

@[simp] theorem finished_pass (scanner : Scanner) (piece : Piece) (rest : List Char) :
    (scanner.pass piece rest).finished = scanner.finished := rfl

/-- The next token, and the scanner behind it. After the end marker there is none. -/
def next (scanner : Scanner) : Option Token × Scanner :=
  if scanner.finished then (none, scanner)
  else
    match ahead : scanner.rest with
    | [] => (some (.eof scanner.line), { scanner with finished := true })
    | first :: chars =>
      match taken : Piece.cut first chars with
      | (piece, rest) =>
        match piece.token? scanner.line with
        | some token => (some token, scanner.pass piece rest)
        | none =>
          have _shorter : (scanner.pass piece rest).rest.length < scanner.rest.length := by
            have bound := Piece.length_cut_le first chars
            simp only [taken] at bound
            simp only [rest_pass, ahead, List.length_cons]
            omega
          next (scanner.pass piece rest)
termination_by scanner.rest.length

/-- How many tokens can still be handed out at most. -/
def remaining (scanner : Scanner) : Nat :=
  scanner.rest.length + if scanner.finished then 0 else 1

theorem remaining_next_lt {scanner after : Scanner} {token : Token}
    (handed : scanner.next = (some token, after)) : after.remaining < scanner.remaining := by
  fun_induction next scanner with
  | case1 scanner finished => simp at handed
  | case2 scanner unfinished ahead =>
    simp only [Prod.mk.injEq] at handed
    simp_all [← handed.2, remaining]
  | case3 scanner unfinished first chars ahead piece rest taken found known =>
    have shorter := Piece.length_cut_le first chars
    simp only [taken] at shorter
    simp only [Prod.mk.injEq] at handed
    simp only [← handed.2, remaining, rest_pass, finished_pass, ahead, List.length_cons]
    omega
  | case4 scanner unfinished first chars ahead piece rest taken unknown shorter ih =>
    have lessLeft := ih handed
    have stillUnfinished : ¬(scanner.pass piece rest).finished = true := unfinished
    simp only [remaining, if_neg unfinished, if_neg stillUnfinished] at lessLeft ⊢
    omega

/-- Hands out everything that remains, behind the tokens collected so far. -/
def drainInto (collected : Array Token) (scanner : Scanner) : Array Token × Scanner :=
  match handed : scanner.next with
  | (some token, after) =>
    have _fewer : after.remaining < scanner.remaining := remaining_next_lt handed
    drainInto (collected.push token) after
  | (none, after) => (collected, after)
termination_by scanner.remaining

theorem drainInto_of_next_some {scanner after : Scanner} {token : Token}
    (handed : scanner.next = (some token, after)) (collected : Array Token) :
    scanner.drainInto collected = after.drainInto (collected.push token) := by
  rw [drainInto]
  split
  · next other behind shown =>
    obtain ⟨rfl, rfl⟩ : token = other ∧ after = behind := by simpa [handed] using shown
    rfl
  · next behind shown => simp [handed] at shown

theorem drainInto_of_next_none {scanner after : Scanner} (handed : scanner.next = (none, after))
    (collected : Array Token) : scanner.drainInto collected = (collected, after) := by
  rw [drainInto]
  split
  · next token behind shown => simp [handed] at shown
  · next behind shown =>
    obtain rfl : after = behind := by simpa [handed] using shown
    rfl

theorem drainInto_eq_append (collected : Array Token) (scanner : Scanner) :
    scanner.drainInto collected =
      (collected ++ (scanner.drainInto #[]).1, (scanner.drainInto #[]).2) := by
  match handed : scanner.next with
  | (none, after) => simp [drainInto_of_next_none handed]
  | (some token, after) =>
    have _fewer := remaining_next_lt handed
    rw [drainInto_of_next_some handed, drainInto_of_next_some handed,
      drainInto_eq_append (collected.push token) after, drainInto_eq_append (#[].push token) after]
    simp
termination_by scanner.remaining

def drain (scanner : Scanner) : List Token × Scanner :=
  let (tokens, after) := scanner.drainInto #[]
  (tokens.toList, after)

theorem drain_of_next_some {scanner after : Scanner} {token : Token}
    (handed : scanner.next = (some token, after)) :
    scanner.drain = (token :: after.drain.1, after.drain.2) := by
  simp only [drain, drainInto_of_next_some handed]
  rw [drainInto_eq_append]
  simp

theorem drain_of_next_none {scanner after : Scanner} (handed : scanner.next = (none, after)) :
    scanner.drain = ([], after) := by
  simp [drain, drainInto_of_next_none handed]

end Scanner

/-- What a whole source text scans to. -/
structure Scan where
  tokens : List Token
  stats : ScanStats
  faults : List Fault
deriving DecidableEq

def Scan.ofSource (source : String) : Scan :=
  let (tokens, scanner) := (Scanner.ofSource source).drain
  ⟨tokens, scanner.stats, scanner.faults.toList⟩

end LoxSyntax
