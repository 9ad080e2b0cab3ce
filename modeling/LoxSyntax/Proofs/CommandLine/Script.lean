import LoxSyntax.CommandLine.Run
import LoxSyntax.Proofs.Json.Document
import LoxSyntax.Proofs.Session.History

/-! # Scripts

What running a script writes to its two streams, and with which status it ends. Three things can
tell that a source is faulty: a report of its scan, an expression that is missing, and diagnostics
that are not empty. They agree, so no fault goes without a report, a status and a notice, and the
notice keeps away from the stream that carries JSON.
-/

namespace LoxSyntax

/-- The source scans without a report, and its tokens are read as an expression. -/
structure Faultless (source : String) : Prop where
  scanned : (Scan.ofSource source).faults = []
  parsed : ∃ expr, (Parser.ofSource source).tryParse.1 = .ok expr

theorem sourceFaults_eq_nil_iff (source : String) :
    sourceFaults source = [] ↔ Faultless source := by
  have parsed : (Parser.ofSource source).fault?.toList = [] ↔
      ∃ expr, (Parser.ofSource source).tryParse.1 = .ok expr := by
    unfold Parser.fault?
    cases (Parser.ofSource source).tryParse.1 <;> simp
  rw [sourceFaults, List.append_eq_nil_iff, parsed]
  constructor
  · rintro ⟨scanned, parsed⟩
    exact ⟨scanned, parsed⟩
  · rintro ⟨scanned, parsed⟩
    exact ⟨scanned, parsed⟩

/-- The texts, a line each. -/
def inLines (texts : List String) : String := String.join (texts.map (· ++ "\n"))

private theorem foldl_eq_inLines {α : Type} (shown : α → String) (items : List α) :
    items.foldl (fun out item => out ++ shown item ++ "\n") "" = inLines (items.map shown) := by
  simp only [String.append_assoc]
  rw [inLines, String.join_eq_foldl, List.map_map, List.foldl_map]
  rfl

private theorem diagnosticLines_eq (diagnostics : Diagnostics) :
    CommandLine.diagnosticLines diagnostics =
    inLines (diagnostics.toList.map Diagnostic.text) :=
  foldl_eq_inLines Diagnostic.text diagnostics.toList

namespace Outcome

/-- What is shown of an outcome in front of the expression. -/
def preamble (outcome : Outcome) (settings : Settings) : String :=
  (if settings.listsTokens then inLines (outcome.tokens.map Token.listing) else "") ++
    if settings.showsStats then outcome.stats.text else ""

private theorem render_of_text (outcome : Outcome) {settings : Settings}
    (text : settings.asJson = false) :
    outcome.render settings =
      outcome.preamble settings ++ treeLine settings.rendering outcome.expression := by
  simp only [render, text, preamble, foldl_eq_inLines, Bool.false_eq_true, if_false]

private theorem render_of_json (outcome : Outcome) {settings : Settings}
    (json : settings.asJson = true) :
    outcome.render settings = outcome.toJson.pretty := by
  simp only [render, json, if_true]

/-- An encoded expression is not the value `null`, which stands for none. -/
theorem toJson_expression (outcome : Outcome) : ∃ fields, outcome.toJson = .object fields ∧
    (fields.lookup "expression" = some .null ↔ outcome.expression = none) := by
  have found : [("tokens", Json.array (outcome.tokens.map Token.toJson)),
      ("stats", outcome.stats.toJson),
      ("expression", (outcome.expression.map Expr.toJson).getD .null)].lookup "expression" =
      some ((outcome.expression.map Expr.toJson).getD .null) := rfl
  refine ⟨_, rfl, ?_⟩
  rw [found]
  cases outcome.expression with
  | none => simp
  | some expr => cases expr <;> simp [Expr.toJson]

end Outcome

namespace CommandLine

/-- What a script of the source writes, and how it ends. -/
structure ScriptReport (settings : Settings) (source : String) (transcript : Transcript) :
    Prop where
  success : transcript.status = 0 ↔ Faultless source
  failure : transcript.status = 65 ↔ ¬ Faultless source
  /-- The scan has a fault for each faulty piece, in the order of the source, and the parser has one
  if there is no expression. -/
  share : Share source ((Session.new settings).run source).1.expression
    (Scan.ofSource source).faults (Parser.ofSource source).fault?.toList
  /-- A line for each fault, those of the scan first. -/
  stderr : transcript.stderr =
    inLines (((Scan.ofSource source).faults ++ (Parser.ofSource source).fault?.toList).map
      (·.toDiagnostic.text)) ++
      if transcript.status = 65 ∧ settings.asJson = true then "Errors found.\n" else ""
  /-- The notice does not get into JSON. -/
  stdout : transcript.stdout = ((Session.new settings).run source).1.render settings ++
    if transcript.status = 65 ∧ settings.asJson = false then "Errors found.\n" else ""
  /-- The outcome is one JSON document, without an expression if the parser finds a fault. -/
  json : settings.asJson = true → ∃ fields,
    ((Session.new settings).run source).1.toJson = .object fields ∧
    Json.IsDocument (.object fields) transcript.stdout.toList ∧
    (fields.lookup "expression" = some .null ↔
      ∃ fault, (Parser.ofSource source).tryParse.1 = .error fault)
  /-- The outcome is lines; if the parser finds a fault, a notice stands in place of the tree. -/
  text : settings.asJson = false → ∃ tree,
    ((Session.new settings).run source).1.render settings =
      ((Session.new settings).run source).1.preamble settings ++ tree ∧
    (∀ fault, (Parser.ofSource source).tryParse.1 = .error fault →
      tree = "Had parse error!\n" ∧ transcript.status ≠ 0) ∧
    ∀ expr, (Parser.ofSource source).tryParse.1 = .ok expr →
      tree = settings.rendering.write expr ++ "\n"

section

variable (settings : Settings) {source : String}

private theorem hadError_run (source : String) :
    ((Session.new settings).run source).2.hadError = true ↔ ¬ Faultless source := by
  rw [Session.hadError, Diagnostics.hadError_eq_true_iff, Session.toList_diagnostics_run,
    ← sourceFaults_eq_nil_iff]
  simp [Session.new]

/-- Without a fault nothing is reported. -/
theorem runScript_of_faultless (faultless : Faultless source) : runScript settings source =
    ⟨((Session.new settings).run source).1.render settings, "", 0⟩ := by
  have noError : ((Session.new settings).run source).2.hadError = false :=
    Bool.eq_false_iff.mpr (mt (hadError_run settings source).mp (not_not_intro faultless))
  have none := (sourceFaults_eq_nil_iff source).mpr faultless
  simp only [runScript, runSource, noError, Bool.not_false, if_true, diagnosticLines_eq,
    Session.toList_diagnostics_run, none]
  rfl

private theorem runScript_of_faulty (faulty : ¬ Faultless source) : runScript settings source =
    ⟨((Session.new settings).run source).1.render settings ++
        (if settings.asJson = true then "" else "Errors found.\n"),
      inLines ((sourceFaults source).map (·.toDiagnostic.text)) ++
        (if settings.asJson = true then "Errors found.\n" else ""), 65⟩ := by
  have error := (hadError_run settings source).mpr faulty
  simp only [runScript, runSource, error, diagnosticLines_eq, Session.toList_diagnostics_run,
    Session.run_settings]
  cases settings.asJson <;> simp [Session.new, dataError, Function.comp_def]

theorem runScript_status (source : String) :
    ((runScript settings source).status = 0 ↔ Faultless source) ∧
      ((runScript settings source).status = 65 ↔ ¬ Faultless source) := by
  by_cases faultless : Faultless source
  · simp [runScript_of_faultless settings faultless, faultless]
  · simp [runScript_of_faulty settings faultless, faultless]

/-- The standard output is the outcome, and behind it the notice unless it is JSON. -/
theorem runScript_stdout (source : String) : (runScript settings source).stdout =
    ((Session.new settings).run source).1.render settings ++
      if (runScript settings source).status = 65 ∧ settings.asJson = false then
        "Errors found.\n" else "" := by
  by_cases faultless : Faultless source
  · simp [runScript_of_faultless settings faultless]
  · cases asJson : settings.asJson <;> simp [runScript_of_faulty settings faultless, asJson]

theorem runScript_stderr (source : String) : (runScript settings source).stderr =
    inLines ((sourceFaults source).map (·.toDiagnostic.text)) ++
      if (runScript settings source).status = 65 ∧ settings.asJson = true then
        "Errors found.\n" else "" := by
  by_cases faultless : Faultless source
  · have none := (sourceFaults_eq_nil_iff source).mpr faultless
    simp [runScript_of_faultless settings faultless, none, inLines]
  · simp [runScript_of_faulty settings faultless]

end

/-- No failure of a script is silent, and JSON on the standard output stays clean. -/
theorem runScript_reports (settings : Settings) (source : String) :
    ScriptReport settings source (runScript settings source) := by
  obtain ⟨success, failure⟩ := runScript_status settings source
  have outcome := Session.run_outcome (.new settings) source
  have stdout := runScript_stdout settings source
  have share := Session.share_sourceFaults settings source
  have stderr := runScript_stderr settings source
  refine ⟨success, failure, share, stderr, stdout, ?json, ?text⟩
  case json =>
    intro asJson
    obtain ⟨fields, shape, null⟩ := ((Session.new settings).run source).1.toJson_expression
    refine ⟨fields, shape, ?_, ?_⟩
    · rw [stdout, ← shape, Outcome.render_of_json _ asJson]
      simpa [asJson] using Json.isDocument_pretty _
    · rw [null, outcome]
      cases (Parser.ofSource source).tryParse.1 <;> simp [Except.toOption]
  case text =>
    intro asText
    refine ⟨_, Outcome.render_of_text _ asText, ?_, ?_⟩
    · intro fault failed
      rw [outcome, Ne, success, failed]
      refine ⟨rfl, ?_⟩
      rintro ⟨_, expr, parsed⟩
      cases failed.symm.trans parsed
    · intro expr parsed
      rw [outcome, parsed]
      rfl

end CommandLine
end LoxSyntax
