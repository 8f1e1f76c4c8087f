/-
Module: ClassFactory.Proofs.Report
Purpose: What the report of a check counts. The counters of a result are the numbers of its
  findings, through every stage and file; so a report as a document, read back from the output,
  states as many errors as it lists, and the exit code tells whether there are any. It states only
  the own warnings: those that the guard keeps of a host are listed and not counted.
Main exports: CheckResult.Counted, Analysis.result_counted, jsonReport_plain, Json.graded,
  runCheck_ok_iff, counts_listed_iff
-/
import ClassFactory.Proofs.Json.RoundTrip
import ClassFactory.Report

namespace ClassFactory

/-! ## Counters -/

/-- How many diagnostics have a severity. -/
def tally (severity : Severity) (diagnostics : List Diagnostic) : Nat :=
  diagnostics.countP (·.severity = severity)

namespace CheckResult

/-- The counters of a result are the numbers of its diagnostics. -/
structure Counted (result : CheckResult) : Prop where
  errors : result.errorCount = tally .error result.diagnostics
  warnings : result.warningCount = tally .warning result.diagnostics

variable {result : CheckResult}

theorem Counted.empty : CheckResult.empty.Counted := ⟨rfl, rfl⟩

/-- A finding is counted where it is added. -/
theorem Counted.add (counted : result.Counted) (diagnostic : Diagnostic) :
    (result.add diagnostic).Counted := by
  obtain ⟨errors, warnings⟩ := counted
  unfold CheckResult.add
  split
  next grave =>
    constructor
    · simp [tally, errors, List.countP_append, grave]
    · simp [tally, warnings, List.countP_append, grave]
  next light =>
    constructor
    · simp [tally, errors, List.countP_append, light]
    · simp [tally, warnings, List.countP_append, light]

/-- Adding diagnostics keeps the counts. -/
theorem Counted.extend (counted : result.Counted) (diagnostics : List Diagnostic) :
    (result.extend diagnostics).Counted :=
  List.foldlRecOn diagnostics _ counted fun _ counted diagnostic _ => counted.add diagnostic

/-- Merging results keeps the counts. -/
theorem Counted.merge (counted : result.Counted) (other : CheckResult) :
    (result.merge other).Counted :=
  counted.extend other.diagnostics

end CheckResult

/-- All findings of an analysis are counted. -/
theorem Analysis.result_counted (analysis : Analysis) : analysis.result.Counted := by
  have stages := ((CheckResult.Counted.empty.extend analysis.registry.diagnostics).extend
    analysis.resolved.diagnostics).extend analysis.synthesis.diagnostics
  -- A merge adds the findings of a file one by one and never looks at the counters of that file.
  exact List.foldlRecOn (motive := CheckResult.Counted) analysis.reports _ stages
    fun _ counted report _ => counted.merge report.result

/-- A report has as many errors as the analysis found and the guard keeps of the host. -/
theorem errorCount_eq (analysis : Analysis) (host : Option (List Diagnostic)) :
    errorCount analysis host =
      tally .error analysis.result.diagnostics + tally .error (host.getD []) := by
  have kept : tally .error (host.getD []) = ((host.getD []).filter Diagnostic.isError).length :=
    List.countP_eq_length_filter
  rw [errorCount, analysis.result_counted.errors, kept]

/-! ## The report as a document -/

section Documents

open Json (Plain)

variable {depth : Nat}

theorem Site.toJson_plain (site : Site) : Plain (depth + 1) site.toJson := by
  refine .object ?_
  simp [Plain.nat]

theorem Related.toJson_plain (related : Related) : Plain (depth + 2) related.toJson := by
  refine .object ?_
  simp [Plain.string, Site.toJson_plain]

theorem Json.ofList_plain {α : Type} {encode : α → Json} (each : ∀ a, Plain depth (encode a))
    (items : List α) : Plain (depth + 1) (Json.ofList encode items) := by
  refine .array fun item mem => ?_
  obtain ⟨a, -, rfl⟩ := List.mem_map.mp mem
  exact each a

/-- A diagnostic is written as a plain document. -/
theorem Diagnostic.toJson_plain (diagnostic : Diagnostic) :
    Plain (depth + 4) diagnostic.toJson := by
  refine .object fun entry mem => ?_
  rcases List.mem_append.mp mem with fixed | related
  · simp only [List.mem_cons, List.not_mem_nil, or_false] at fixed
    rcases fixed with rfl | rfl | rfl | rfl
    · exact .string _
    · exact .string _
    · exact .string _
    · exact Site.toJson_plain _
  · split at related
    next => cases related
    next =>
      obtain rfl := List.mem_singleton.mp related
      exact Json.ofList_plain Related.toJson_plain _

/-- A report nests no deeper than the related places of a finding, and its numbers are natural. -/
theorem jsonReport_plain (request : CheckRequest) (analysis : Analysis)
    (host : Option (List Diagnostic)) :
    Plain (depth + 6) (jsonReport request analysis host) := by
  have found (diagnostics : List Diagnostic) :
      Plain (depth + 5) (Json.ofList Diagnostic.toJson diagnostics) :=
    Json.ofList_plain Diagnostic.toJson_plain diagnostics
  have names (names : List String) : Plain (depth + 5) (Json.ofList Json.string names) :=
    Json.ofList_plain (fun name => .string name) names
  refine .object ?_
  cases host <;> cases request.emitTypes <;> simp [found, names, Plain.nat, Plain.string]

end Documents

/-! ## What a document states and lists -/

namespace Json

/-- The number under a key of a document. -/
def count? (document : Json) (key : String) : Option Nat :=
  (document.get? key).bind natural?

/-- The items of the list under a key of a document, which are none without such a list. -/
def listed (document : Json) (key : String) : List Json :=
  ((document.get? key).bind items?).getD []

/-- How many items under a key are of a severity. -/
def graded (severity : Severity) (document : Json) (key : String) : Nat :=
  (document.listed key).countP fun item => (item.get? "severity").bind string? = some severity.name

end Json

/-- The name of a severity tells it. -/
theorem Severity.name_inj {one other : Severity} : one.name = other.name ↔ one = other := by
  cases one <;> cases other <;> decide

/-- The document of a diagnostic tells its severity. -/
theorem Diagnostic.toJson_severity (diagnostic : Diagnostic) :
    diagnostic.toJson.get? "severity" = some (.string diagnostic.severity.name) := by
  unfold Diagnostic.toJson
  cases diagnostic.related <;> rfl

/-- A list of diagnostics as a document has as many items of a severity. -/
theorem Json.graded_eq_tally {document : Json} {key : String} {diagnostics : List Diagnostic}
    (listed : document.listed key = diagnostics.map Diagnostic.toJson) (severity : Severity) :
    document.graded severity key = tally severity diagnostics := by
  rw [graded, listed, List.countP_map, tally]
  refine List.countP_congr fun diagnostic _ => ?_
  simp [Diagnostic.toJson_severity, Json.string?, Severity.name_inj]

section Keys

variable (request : CheckRequest) (analysis : Analysis) (host : Option (List Diagnostic))

/-- The report lists the diagnostics of the analysis in order. -/
theorem listed_diagnostics : (jsonReport request analysis host).listed "diagnostics" =
    analysis.result.diagnostics.map Diagnostic.toJson := by
  unfold jsonReport
  cases host <;> cases request.emitTypes <;> rfl

/-- The report lists the diagnostics of the host in order, and none where there is no host. -/
theorem listed_hostDiagnostics : (jsonReport request analysis host).listed "hostDiagnostics" =
    (host.getD []).map Diagnostic.toJson := by
  unfold jsonReport
  cases host <;> cases request.emitTypes <;> rfl

/-- The report tells how many errors there are. -/
theorem count?_errorCount : (jsonReport request analysis host).count? "errorCount" =
    some (errorCount analysis host) := by
  rw [Json.count?, ← Json.natural?_nat (errorCount analysis host)]
  unfold jsonReport
  cases host <;> cases request.emitTypes <;> rfl

/-- The report tells how many warnings there are. -/
theorem count?_warningCount : (jsonReport request analysis host).count? "warningCount" =
    some analysis.result.warningCount := by
  rw [Json.count?, ← Json.natural?_nat analysis.result.warningCount]
  unfold jsonReport
  cases host <;> cases request.emitTypes <;> rfl

end Keys

/-! ## Runs -/

/-- The analysis of the files that a check is asked for. -/
def checkedAnalysis (read : FileReader) (request : CheckRequest) :
    Except OperationError Analysis := do
  let configuration ← readConfiguration read request.config
  let compilation ← readCompilation read configuration.options request.files
  compilation.run

/-- What the guard keeps of the diagnostics of a host, if there is one. -/
def keptOfHost (read : FileReader) (request : CheckRequest) (guard : Guard) :
    Except OperationError (Option (List Diagnostic)) :=
  request.hostDiagnostics.mapM fun path => (readHostDiagnostics read path).map guard.filter

section Runs

variable {read : FileReader} {arguments : List String} {request : CheckRequest} {outcome : Outcome}

/-- A check succeeds if the files can be analyzed and the diagnostics of the host, if there is one,
can be read; then it reports what was found and what the guard keeps. -/
theorem runCheck_ok_iff : runCheck read request = .ok outcome ↔
    ∃ analysis host, checkedAnalysis read request = .ok analysis ∧
      keptOfHost read request analysis.guard = .ok host ∧
      outcome =
        { exitCode := if 0 < errorCount analysis host then 1 else 0
          output := report request analysis host
          messages := summary request analysis host } := by
  have steps : runCheck read request = (do
      let analysis ← checkedAnalysis read request
      let host ← keptOfHost read request analysis.guard
      return { exitCode := if 0 < errorCount analysis host then 1 else 0
               output := report request analysis host
               messages := summary request analysis host }) := by
    simp only [runCheck, checkedAnalysis, keptOfHost, bind_assoc]
  rw [steps]
  cases checkedAnalysis read request with
  | error => simp [bind, Except.bind]
  | ok analysis =>
      cases kept : keptOfHost read request analysis.guard <;>
        simp [bind, Except.bind, pure, Except.pure, kept, eq_comm]

/-- A command that asks for a check and does not fail leaves what the check does. -/
theorem runArguments_check (asked : Command.ofArguments arguments = .ok (.check request))
    (done : (runArguments read arguments).exitCode ≠ 2) :
    runCheck read request = .ok (runArguments read arguments) := by
  have runs : runArguments read arguments = runCommand read (.check request) := by
    rw [runArguments, asked]
  rw [runs, runCommand] at done ⊢
  cases checked : runCheck read request with
  | ok outcome => rfl
  | error =>
      rw [checked] at done
      exact absurd rfl done

/-- A check that reports as a document and does not fail writes one that can be read back. It lists
what was found and what the guard keeps of the host. Its number of errors is that of the errors it
lists, and the exit code is 1 just if there are any. Its number of warnings is that of the own
warnings, and so that of the warnings it lists just if none is the host's. -/
theorem counts_listed_iff (asked : Command.ofArguments arguments = .ok (.check request))
    (json : request.format = .json) (done : (runArguments read arguments).exitCode ≠ 2) :
    ∃ analysis host document errors warnings,
      checkedAnalysis read request = .ok analysis ∧
      keptOfHost read request analysis.guard = .ok host ∧
      Json.read? (runArguments read arguments).output = some document ∧
      document.listed "diagnostics" = analysis.result.diagnostics.map Diagnostic.toJson ∧
      document.listed "hostDiagnostics" = (host.getD []).map Diagnostic.toJson ∧
      document.count? "errorCount" = some errors ∧
      document.count? "warningCount" = some warnings ∧
      errors = document.graded .error "diagnostics" + document.graded .error "hostDiagnostics" ∧
      warnings = document.graded .warning "diagnostics" ∧
      (warnings =
          document.graded .warning "diagnostics" + document.graded .warning "hostDiagnostics" ↔
        document.graded .warning "hostDiagnostics" = 0) ∧
      ((runArguments read arguments).exitCode = 1 ↔ 0 < errors) := by
  obtain ⟨analysis, host, analyzed, kept, outcome⟩ :=
    runCheck_ok_iff.mp (runArguments_check asked done)
  have own := listed_diagnostics request analysis host
  have others := listed_hostDiagnostics request analysis host
  have readBack : Json.read? (runArguments read arguments).output =
      some (jsonReport request analysis host) := by
    rw [outcome, report, json]
    exact Json.read?_pretty (jsonReport_plain request analysis host)
  have errors : errorCount analysis host =
      (jsonReport request analysis host).graded .error "diagnostics" +
        (jsonReport request analysis host).graded .error "hostDiagnostics" := by
    rw [errorCount_eq, Json.graded_eq_tally own, Json.graded_eq_tally others]
  have warnings : analysis.result.warningCount =
      (jsonReport request analysis host).graded .warning "diagnostics" := by
    rw [analysis.result_counted.warnings, Json.graded_eq_tally own]
  refine ⟨analysis, host, jsonReport request analysis host, errorCount analysis host,
    analysis.result.warningCount, analyzed, kept, readBack, own, others,
    count?_errorCount request analysis host, count?_warningCount request analysis host, errors,
    warnings, ?_, ?_⟩
  · rw [warnings]
    omega
  · rw [outcome]
    simp

end Runs

section Unused

/-- Asks for a report as a document, with the diagnostics of a host. -/
def unusedArguments : List String :=
  ["check", "--format", "json", "--host-diagnostics", "host.json", "app.js"]

/-- A program, and what the host found in it. -/
def unusedFiles : FileReader
  | "app.js" => .ok "var x = 1;\n"
  | "host.json" =>
      .ok ("[\x7b\"code\":\"other\",\"severity\":\"warning\",\"message\":\"unused\"," ++
        "\"site\":\x7b\"file\":0,\"start\":0,\"end\":1\x7d\x7d]")
  | path => .error path

/-- What the host found is a warning, which the guard keeps. The report lists it under the host's
diagnostics, and says that there are no warnings. -/
theorem counts_listed_iff_unused :
    ∃ document, Json.read? (runArguments unusedFiles unusedArguments).output = some document ∧
      document.graded .warning "diagnostics" = 0 ∧
      document.graded .warning "hostDiagnostics" = 1 ∧
      document.count? "warningCount" = some 0 ∧
      document.count? "errorCount" = some 0 ∧
      (runArguments unusedFiles unusedArguments).exitCode = 0 := by
  let request : CheckRequest :=
    { files := ["app.js"], format := .json, emitTypes := false,
      hostDiagnostics := some "host.json", config := none, quiet := false }
  have done : (runArguments unusedFiles unusedArguments).exitCode = 0 := by decide +kernel
  obtain ⟨analysis, host, document, errors, warnings, analyzed, kept, readBack, own, others,
      errorCount, warningCount, -, allWarnings, -, failed⟩ :=
    @counts_listed_iff unusedFiles unusedArguments request (by decide +kernel) rfl
      (by rw [done]; decide)
  have found : (checkedAnalysis unusedFiles request).toOption.bind (fun analysis =>
      (keptOfHost unusedFiles request analysis.guard).toOption.map fun host =>
        (analysis.result.diagnostics, host)) =
      some ([], some [.warning .other "unused" ⟨0, 0, 1⟩]) := by
    decide +kernel
  rw [analyzed, Except.toOption, Option.bind_some, kept, Except.toOption, Option.map_some] at found
  obtain ⟨nothing, rfl⟩ := Prod.mk.inj (Option.some.inj found)
  have ownWarnings : document.graded .warning "diagnostics" = 0 := by
    rw [Json.graded_eq_tally own, nothing]
    rfl
  have hostWarnings : document.graded .warning "hostDiagnostics" = 1 :=
    Json.graded_eq_tally others .warning
  have noErrors : errors = 0 := by
    rw [done] at failed
    omega
  have noWarnings : warnings = 0 := allWarnings.trans ownWarnings
  exact ⟨document, readBack, ownWarnings, hostWarnings, by rw [warningCount, noWarnings],
    by rw [errorCount, noErrors], done⟩

end Unused

end ClassFactory
