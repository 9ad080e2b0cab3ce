import LoxSyntax.CommandLine.Run
import LoxSyntax.Proofs.Scan.Line
import LoxSyntax.Proofs.Session.Report
import Mathlib.Data.List.DropRight
import Mathlib.Data.List.Induction

/-! # Sessions with a past

What a session ran before changes nothing about a run but what stands in front of its reports. So
the diagnostics of a session are those of its runs since it was last reset, each as a new session
would report them, and the prompt, which resets its session behind every line, answers each line as
a new session would.
-/

namespace LoxSyntax

/-- What a session is asked for. -/
inductive SessionStep where
  | run (source : String)
  | reset
deriving DecidableEq

/-- The source that a step runs. -/
def SessionStep.source? : SessionStep → Option String
  | run source => some source
  | reset => none

/-- The sources that were run since the last reset. -/
def sinceReset (steps : List SessionStep) : List String :=
  (steps.rtakeWhile (· ≠ .reset)).filterMap SessionStep.source?

/-- The share of one run in the diagnostics of its session: what its scan reports, one fault for each
faulty piece in the order of the source, and behind that one fault of the grammar if there is no
expression, and none if there is one. -/
structure Share (source : String) (expression : Option Expr) (lexical grammatical : List Fault) :
    Prop where
  inOrder : ∃ pieces, Piece.Splits source.toList pieces ∧
    List.Forall₂ Piece.Reports (pieces.filter Piece.isFault) lexical
  scanned : ∀ fault ∈ lexical, fault.category = .lexical
  read : ∀ fault ∈ grammatical, fault.category = .grammatical
  once : grammatical.length = if expression = none then 1 else 0

private theorem Piece.Reports.category_eq {piece : Piece} {fault : Fault}
    (reports : piece.Reports fault) :
    fault.category = .lexical := by
  cases reports <;> rfl

namespace Session

/-- The session behind one more step. -/
def step (session : Session) : SessionStep → Session
  | .run source => (session.run source).2
  | .reset => session.reset

/-- The session behind the steps. -/
def after (session : Session) (steps : List SessionStep) : Session := steps.foldl step session

/-- What a new session reports when it runs the source. -/
def newReports (settings : Settings) (source : String) : List Diagnostic :=
  ((new settings).run source).2.diagnostics.toList

private theorem newReports_eq (settings : Settings) (source : String) :
    newReports settings source = (sourceFaults source).map Fault.toDiagnostic :=
  toList_diagnostics_run (new settings) source

theorem after_concat (session : Session) (steps : List SessionStep) (step : SessionStep) :
    session.after (steps ++ [step]) = (session.after steps).step step :=
  List.foldl_concat ..

theorem sinceReset_concat_run (steps : List SessionStep) (source : String) :
    sinceReset (steps ++ [.run source]) = sinceReset steps ++ [source] := by
  simp [sinceReset, SessionStep.source?]

theorem sinceReset_concat_reset (steps : List SessionStep) :
    sinceReset (steps ++ [.reset]) = [] := by
  simp [sinceReset]

private theorem toList_diagnostics_after (settings : Settings) (steps : List SessionStep) :
    ((new settings).after steps).diagnostics.toList =
      (sinceReset steps).flatMap (newReports settings) := by
  induction steps using List.reverseRecOn with
  | nil => rfl
  | append_singleton steps step ih =>
    rw [after_concat]
    cases step with
    | run source =>
      rw [sinceReset_concat_run, List.flatMap_append, ← ih, List.flatMap_singleton, newReports_eq]
      exact toList_diagnostics_run _ source
    | reset =>
      rw [sinceReset_concat_reset]
      rfl

theorem settings_after (session : Session) (steps : List SessionStep) :
    (session.after steps).settings = session.settings := by
  induction steps using List.reverseRecOn with
  | nil => rfl
  | append_singleton steps step ih =>
    rw [after_concat, ← ih]
    cases step with
    | run source => exact run_settings _ source
    | reset => rfl

/-- The faults of a source are shared out between its scan and its reading. -/
theorem share_sourceFaults (settings : Settings) (source : String) :
    Share source ((new settings).run source).1.expression (Scan.ofSource source).faults
      (Parser.ofSource source).fault?.toList := by
  obtain ⟨pieces, splits⟩ := Piece.exists_splits source.toList
  have reports := splits.reports (lineBehind [])
  rw [← (Scan.ofSource_of_splits splits).2] at reports
  constructor
  case inOrder => exact ⟨pieces, splits, reports⟩
  case scanned => exact forall_mem_of_forall₂ reports fun _ _ given => given.category_eq
  case read =>
    intro fault member
    exact Parser.category_of_mem_fault? (Option.mem_toList.mp member)
  case once =>
    rw [run_outcome]
    have either := (Parser.ofSource source).fault?_eq_none_iff
    cases found : (Parser.ofSource source).fault? <;> simp_all

end Session

namespace CommandLine

/-- What the prompt runs: the lines before the first that is empty. -/
def promptSources (lines : List (List Char)) : List String :=
  ((lines.map promptSource?).takeWhile Option.isSome).filterMap id

private theorem runSource_reset (session : Session) (source : String) :
    (runSource session source).2.reset = .new session.settings := rfl

theorem runLines_new (settings : Settings) (lines : List (List Char)) :
    runLines (.new settings) lines =
      ⟨String.join ((promptSources lines).map fun source =>
          (runSource (.new settings) source).1.stdout),
        String.join ((promptSources lines).map fun source =>
          (runSource (.new settings) source).1.stderr), 0⟩ := by
  induction lines with
  | nil => rfl
  | cons line lines ih =>
    unfold runLines
    cases given : promptSource? line with
    | none => simp [promptSources, given]
    | some source =>
      have behind : (runSource (.new settings) source).2.reset = .new settings :=
        runSource_reset (.new settings) source
      dsimp only
      rw [behind, ih]
      simp [promptSources, given]

end CommandLine

/-- No run of a session influences another. Behind any steps, a run has the outcome that it has in a
new session, and the diagnostics are those that new sessions report of the sources since the last
reset, one behind the other. So the prompt writes for its lines, one behind the other, what new
sessions write for them. -/
theorem Session.runs_independent (settings : Settings) :
    (∀ steps,
      (∀ source, (((new settings).after steps).run source).1 = ((new settings).run source).1) ∧
      ((new settings).after steps).diagnostics.toList =
        (sinceReset steps).flatMap (newReports settings) ∧
      (((new settings).after steps).hadError = true ↔
        (sinceReset steps).flatMap (newReports settings) ≠ []) ∧
      ((new settings).after steps).settings = settings) ∧
    (∀ source, ∃ lexical grammatical,
      newReports settings source = (lexical ++ grammatical).map Fault.toDiagnostic ∧
      Share source ((new settings).run source).1.expression lexical grammatical) ∧
    ∀ lines, CommandLine.runLines (new settings) lines =
      ⟨String.join ((CommandLine.promptSources lines).map fun source =>
          (CommandLine.runSource (new settings) source).1.stdout),
        String.join ((CommandLine.promptSources lines).map fun source =>
          (CommandLine.runSource (new settings) source).1.stderr), 0⟩ := by
  refine ⟨fun steps => ⟨?_, ?_, ?_, settings_after _ steps⟩, ?_, CommandLine.runLines_new settings⟩
  · intro source
    rw [run_outcome, run_outcome]
  · exact toList_diagnostics_after settings steps
  · rw [← toList_diagnostics_after]
    exact Diagnostics.hadError_eq_true_iff _
  · intro source
    exact ⟨_, _, newReports_eq settings source, share_sourceFaults settings source⟩

end LoxSyntax
