/-
Module: ClassFactory.Diagnostic.Json
Purpose: Diagnostics as JSON documents. Records are written as objects; they are read from objects
  or from arrays of their fields in order. Enumerations are read from their name, or from an object
  whose only key is the name and whose value is `null`.
Main exports: Site.toJson, Diagnostic.toJson, Diagnostic.ofJson?, Diagnostic.listOfJson?
-/
import ClassFactory.Diagnostic.Basic
import ClassFactory.Json.Value

namespace ClassFactory

/-- A site as an object. -/
def Site.toJson (site : Site) : Json :=
  .object [("file", Json.nat site.file), ("start", Json.nat site.start), ("end", Json.nat site.stop)]

/-- Reads a site; its numbers have 32 bits. -/
def Site.ofJson? (document : Json) : Option Site :=
  match document.fields? ["file", "start", "end"] with
  | some [some file, some start, some stop] => do
    let file ← file.natural32?
    let start ← start.natural32?
    let stop ← stop.natural32?
    return { file := file, start := start, stop := stop }
  | _ => none

/-- The name that selects an enumerated value. -/
def Json.variant? : Json → Option String
  | .string name => some name
  | .object [(name, .null)] => some name
  | _ => none

/-- A related place as an object. -/
def Related.toJson (related : Related) : Json :=
  .object [("message", .string related.message), ("site", related.site.toJson)]

/-- Reads a related place. -/
def Related.ofJson? (document : Json) : Option Related :=
  match document.fields? ["message", "site"] with
  | some [some message, some site] => do
    let message ← message.string?
    let site ← Site.ofJson? site
    return { message := message, site := site }
  | _ => none

namespace Diagnostic

/-- A diagnostic as an object; `related` is left out when there is none. -/
def toJson (diagnostic : Diagnostic) : Json :=
  let related :=
    if diagnostic.related.isEmpty then []
    else [("related", Json.ofList Related.toJson diagnostic.related)]
  .object
    ([("code", .string diagnostic.code.name), ("severity", .string diagnostic.severity.name),
      ("message", .string diagnostic.message), ("site", diagnostic.site.toJson)] ++ related)

/-- Reads a diagnostic; only `related` may be left out. -/
def ofJson? (document : Json) : Option Diagnostic :=
  match document.fields? ["code", "severity", "message", "site", "related"] with
  | some [some code, some severity, some message, some site, related] => do
    let code ← code.variant?.bind DiagnosticCode.ofName?
    let severity ← severity.variant?.bind Severity.ofName?
    let message ← message.string?
    let site ← Site.ofJson? site
    let related ← match related with
      | some places => places.items?.bind fun items => items.mapM Related.ofJson?
      | none => some []
    return { code := code, severity := severity, message := message, site := site,
             related := related }
  | _ => none

/-- Reads a list of diagnostics. -/
def listOfJson? (document : Json) : Option (List Diagnostic) :=
  document.items?.bind fun items => items.mapM ofJson?

end Diagnostic

end ClassFactory
