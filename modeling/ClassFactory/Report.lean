/-
Module: ClassFactory.Report
Purpose: Running a command on the files it names and writing what was found, as text with colours or
  as one JSON document.
Main exports: FileReader, Outcome, textReport, jsonReport, CheckRequest.paths, runCheck, runCommand
-/
import ClassFactory.CommandLine
import ClassFactory.Compilation
import ClassFactory.Configuration
import ClassFactory.Diagnostic.Json
import ClassFactory.Json.Printer

namespace ClassFactory

/-- Gives the text of a file, or says why there is none. -/
abbrev FileReader := String → Except String String

/-- What a command leaves behind: its exit code, its output, and its messages. -/
structure Outcome where
  exitCode : Nat
  output : String
  messages : String
deriving Repr, Inhabited, DecidableEq

/-- A text in a colour of the terminal. -/
def coloured (code : String) (text : String) : String :=
  "\x1b[" ++ code ++ "m" ++ text ++ "\x1b[0m"

/-- The word for a severity, in colour. -/
def severityLabel : Severity → String
  | .error => coloured "31" "error"
  | .warning => coloured "33" "warning"

/-- A finding on a line, and each related place on an indented line after it. -/
def diagnosticText (analysis : Analysis) (diagnostic : Diagnostic) : String :=
  let related := diagnostic.related.map fun r =>
    "  " ++ analysis.location r.site ++ ": " ++ r.message ++ "\n"
  analysis.location diagnostic.site ++ ": " ++ severityLabel diagnostic.severity ++ "[" ++
    diagnostic.code.name ++ "]: " ++ diagnostic.message ++ "\n" ++ String.join related

/-- The report as text: the declarations if they are asked for, then the own findings and those of
the host, unless the report is to be quiet. -/
def textReport (request : CheckRequest) (analysis : Analysis) (host : Option (List Diagnostic)) :
    String :=
  let declarations := if request.emitTypes then analysis.declarations else ""
  let found :=
    if request.quiet then []
    else (analysis.result.diagnostics ++ host.getD []).map (diagnosticText analysis)
  declarations ++ String.join found

/-- How many errors remain, those of the host included. -/
def errorCount (analysis : Analysis) (host : Option (List Diagnostic)) : Nat :=
  analysis.result.errorCount + ((host.getD []).filter Diagnostic.isError).length

/-- The report as a JSON document. -/
def jsonReport (request : CheckRequest) (analysis : Analysis) (host : Option (List Diagnostic)) :
    Json :=
  let list (diagnostics : List Diagnostic) : Json := Json.ofList Diagnostic.toJson diagnostics
  let hostEntry := match host with
    | some diagnostics => [("hostDiagnostics", list diagnostics)]
    | none => []
  let declarations :=
    if request.emitTypes then [("declarations", Json.string analysis.declarations)] else []
  .object
    ([("diagnostics", list analysis.result.diagnostics)] ++ hostEntry ++
      [("errorCount", Json.nat (errorCount analysis host)),
       ("warningCount", Json.nat analysis.result.warningCount),
       ("fileCount", Json.nat request.files.length),
       ("sideEffectFree", Json.ofList Json.string analysis.effects.removable)] ++ declarations)

/-- The report in the format that is asked for. -/
def report (request : CheckRequest) (analysis : Analysis) (host : Option (List Diagnostic)) :
    String :=
  match request.format with
  | .text => textReport request analysis host
  | .json => (jsonReport request analysis host).pretty ++ "\n"

/-- How many files were checked and what was found, in one line. -/
def summary (request : CheckRequest) (analysis : Analysis) (host : Option (List Diagnostic)) :
    String :=
  match request.format with
  | .json => ""
  | .text =>
    "Checked " ++ toString request.files.length ++ " file(s): " ++
      toString (errorCount analysis host) ++ " error(s), " ++
      toString analysis.result.warningCount ++ " warning(s)\n"

/-- Every path that a check may read. -/
def CheckRequest.paths (request : CheckRequest) : List String :=
  request.config.getD Configuration.fileName :: request.files ++ request.hostDiagnostics.toList

/-- Reads a file that must be there. -/
def readRequired (read : FileReader) (path : String) : Except OperationError String :=
  (read path).mapError (OperationError.read path)

/-- Reads the configuration. A file that was asked for must hold one; without such a file, or with
nothing sensible in it, the standard configuration applies. -/
def readConfiguration (read : FileReader) (asked : Option String) :
    Except OperationError Configuration :=
  match asked with
  | some path => do
    let text ← readRequired read path
    match Configuration.ofText? text with
    | some configuration => .ok configuration
    | none => .error (.config path)
  | none =>
    match read Configuration.fileName with
    | .ok text => .ok ((Configuration.ofText? text).getD Configuration.standard)
    | .error _ => .ok Configuration.standard

/-- Reads the diagnostics of a host. -/
def readHostDiagnostics (read : FileReader) (path : String) :
    Except OperationError (List Diagnostic) := do
  let text ← readRequired read path
  match (Json.read? text).bind Diagnostic.listOfJson? with
  | some diagnostics => .ok diagnostics
  | none => .error (.hostDiagnostics path)

/-- Reads the files to be checked. -/
def readCompilation (read : FileReader) (options : Options) (files : List String) :
    Except OperationError Compilation :=
  files.foldlM
    (fun compilation path => (readRequired read path).map (compilation.addFile path))
    (Compilation.ofOptions options)

/-- Checks files. -/
def runCheck (read : FileReader) (request : CheckRequest) : Except OperationError Outcome := do
  let configuration ← readConfiguration read request.config
  let compilation ← readCompilation read configuration.options request.files
  let analysis ← compilation.run
  let host ← request.hostDiagnostics.mapM fun path =>
    (readHostDiagnostics read path).map analysis.guard.filter
  return {
    exitCode := if 0 < errorCount analysis host then 1 else 0
    output := report request analysis host
    messages := summary request analysis host }

/-- The version of the command. -/
def versionText : String := "tessera 0.1.0\n"

/-- How the command is used. -/
def usageText : String :=
  "Usage: tessera [--verbose] check [--format text|json] [--emit-types]\n" ++
    "       [--host-diagnostics FILE] [--config FILE] [--quiet] FILES...\n"

/-- An outcome without output. -/
def Outcome.failure (messages : String) : Outcome :=
  { exitCode := 2, output := "", messages := messages }

/-- Runs a command on files. -/
def runCommand (read : FileReader) (command : Command) : Outcome :=
  match command with
  | .version => { exitCode := 0, output := versionText, messages := "" }
  | .help => { exitCode := 0, output := usageText, messages := "" }
  | .check request =>
    match runCheck read request with
    | .ok outcome => outcome
    | .error error => Outcome.failure (coloured "31" "Error:" ++ " " ++ error.message ++ "\n")

/-- Runs the command that the arguments ask for. -/
def runArguments (read : FileReader) (arguments : List String) : Outcome :=
  match Command.ofArguments arguments with
  | .ok command => runCommand read command
  | .error error => Outcome.failure ("error: " ++ error.message ++ "\n" ++ usageText)

end ClassFactory
