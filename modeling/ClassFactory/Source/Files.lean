/-
Module: ClassFactory.Source.Files
Purpose: The files of one compilation, numbered in the order they are added.
Main exports: SourceFile, SourceFiles, SourceFiles.add, SourceFiles.slice, SourceFiles.location
-/
import ClassFactory.Source.Site
import ClassFactory.Source.Lines
import ClassFactory.Text.Bytes

namespace ClassFactory

/-- A named text. -/
structure SourceFile where
  name : String
  text : String
deriving Repr, Inhabited, DecidableEq

/-- The files of one compilation; a file is known by its position. -/
structure SourceFiles where
  files : List SourceFile
deriving Repr, Inhabited, DecidableEq

namespace SourceFiles

/-- A compilation without files. -/
def empty : SourceFiles := { files := [] }

/-- Adds a file at the end; its number is the previous number of files. -/
def add (sources : SourceFiles) (name text : String) : SourceFiles :=
  { files := sources.files ++ [{ name := name, text := text }] }

/-- The number the next file will get. -/
def size (sources : SourceFiles) : Nat := sources.files.length

/-- The file of a number. -/
def get? (sources : SourceFiles) (file : Nat) : Option SourceFile := sources.files[file]?

/-- The name of a file, or a stand-in for a number without a file. -/
def name (sources : SourceFiles) (file : Nat) : String :=
  ((sources.get? file).map SourceFile.name).getD "<unknown>"

/-- The number of the first file of that name. -/
def find? (sources : SourceFiles) (name : String) : Option Nat :=
  sources.files.findIdx? (·.name = name)

/-- The text of a site; empty if it names no part of a file. -/
def slice (sources : SourceFiles) (site : Site) : String :=
  (((sources.get? site.file).bind fun file =>
    Text.slice? site.start site.stop file.text.toList).map String.ofList).getD ""

/-- Where a site begins, as `file:line:column`, or by offset if there is no such file. -/
def location (sources : SourceFiles) (site : Site) : String :=
  match sources.get? site.file with
  | some file =>
    let (line, column) := (LineIndex.ofText file.text).lineColumn site.start
    file.name ++ ":" ++ toString line ++ ":" ++ toString column
  | none => "<file " ++ toString site.file ++ ">:" ++ toString site.start

end SourceFiles

end ClassFactory
