/-
Module: ClassFactory.Compilation
Purpose: Analyzing source files together. The factory calls of all files are collected before any
  mixin is resolved, so that a component may use a mixin of a later file.
Main exports: OperationError, Compilation, ParsedFile, Compilation.parse, Analysis, analyze,
  Compilation.run
-/
import ClassFactory.Component.Declarations
import ClassFactory.Component.Synthesis
import ClassFactory.Guard
import ClassFactory.References
import ClassFactory.Script.Parse
import ClassFactory.Usage.Check

namespace ClassFactory

/-- Why a compilation cannot be analyzed. What is wrong with the checked program is a diagnostic and
no such error. -/
inductive OperationError where
  | io (message : String)
  | read (path message : String)
  | parse (file message : String)
  | config (path : String)
  | hostDiagnostics (path : String)
deriving Repr, Inhabited, DecidableEq

/-- The error in words. -/
def OperationError.message : OperationError → String
  | .io message => "IO error: " ++ message
  | .read path message => "failed to read " ++ path ++ ": " ++ message
  | .parse file message => file ++ ": parse error: " ++ message
  | .config path => "invalid configuration " ++ path
  | .hostDiagnostics path => "invalid host diagnostics " ++ path

/-- Source files that are checked together. -/
structure Compilation where
  options : Options
  files : SourceFiles
deriving Inhabited

/-- A file of a compilation with the program it holds. -/
structure ParsedFile where
  file : Nat
  text : String
  program : Script.Program
deriving Inhabited

namespace Compilation

/-- A compilation of no files. -/
def ofOptions (options : Options) : Compilation := { options := options, files := .empty }

/-- Adds a file. -/
def addFile (compilation : Compilation) (name text : String) : Compilation :=
  { compilation with files := compilation.files.add name text }

/-- Parses one file. -/
def parseFile (source : SourceFile × Nat) : Except OperationError ParsedFile :=
  match Script.parseProgram? source.1.text with
  | some program => .ok { file := source.2, text := source.1.text, program := program }
  | none => .error (.parse source.1.name "unexpected syntax")

/-- Parses every file; the first that is no program is the error. -/
def parse (compilation : Compilation) : Except OperationError (List ParsedFile) :=
  compilation.files.files.zipIdx.mapM parseFile

end Compilation

/-- The factory calls of some programs. -/
def collectAll (options : Options) (files : List ParsedFile) : Registry :=
  (files.foldl
    (fun registry parsed =>
      collectProgram options parsed.file parsed.text parsed.program registry)
    Registry.empty).finish

/-- The reads of bound names in some programs. -/
def referencesAll (registry : Registry) (files : List ParsedFile) : List Reference :=
  files.flatMap fun parsed => references registry parsed.file parsed.program

/-- Everything that is known of a compilation. -/
structure Analysis where
  compilation : Compilation
  registry : Registry
  resolved : Resolved
  synthesis : Synthesis
  reads : List Reference
  effects : SideEffects
  /-- What the check of each file found. -/
  reports : List UsageReport
deriving Inhabited

/-- Analyzes parsed files. -/
def analyze (compilation : Compilation) (files : List ParsedFile) : Analysis :=
  let options := compilation.options
  let registry := collectAll options files
  let resolved := resolve registry options
  let synthesis := synthesize registry options resolved
  let reads := referencesAll registry files
  { compilation := compilation, registry := registry, resolved := resolved,
    synthesis := synthesis, reads := reads,
    effects := SideEffects.ofReferences registry reads,
    reports := files.map fun parsed =>
      checkProgram options registry synthesis.table parsed.file parsed.text parsed.program }

/-- Parses and analyzes a compilation. -/
def Compilation.run (compilation : Compilation) : Except OperationError Analysis :=
  compilation.parse.map (analyze compilation)

namespace Analysis

/-- All findings, in the order of the stages. -/
def result (analysis : Analysis) : CheckResult :=
  let found := ((CheckResult.empty.extend analysis.registry.diagnostics).extend
    analysis.resolved.diagnostics).extend analysis.synthesis.diagnostics
  analysis.reports.foldl (fun result report => result.merge report.result) found

/-- The published types with all types attached to places of the sources. -/
def table (analysis : Analysis) : TypeTable :=
  (analysis.reports.flatMap UsageReport.attachments).foldl
    (fun table attached => table.attach attached.1 attached.2) analysis.synthesis.table

/-- The declarations of every published type. -/
def declarations (analysis : Analysis) : String :=
  analysis.table.declarations

/-- The rules for diagnostics of a host. -/
def guard (analysis : Analysis) : Guard :=
  { registry := analysis.registry, table := analysis.table,
    files := analysis.compilation.files, options := analysis.compilation.options }

/-- Where a site begins, in words. -/
def location (analysis : Analysis) (site : Site) : String :=
  analysis.compilation.files.location site

end Analysis

end ClassFactory
