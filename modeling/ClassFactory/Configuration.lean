/-
Module: ClassFactory.Configuration
Purpose: The configuration file: a JSON object that may hold options and a schema reference.
Main exports: Configuration, Configuration.fileName, Configuration.ofText?
-/
import ClassFactory.Json.Reader
import ClassFactory.Options

namespace ClassFactory

/-- A configuration. -/
structure Configuration where
  /-- A reference to a schema, for editors. -/
  schema : Option String
  options : Options
deriving Repr, Inhabited, DecidableEq

namespace Configuration

/-- The configuration without a file. -/
def standard : Configuration := { schema := none, options := Options.standard }

/-- The name of the file that is read unless another one is asked for. -/
def fileName : String := "tessera.config.json"

/-- The schema reference of a document; `null` is the same as none. -/
def readSchema? (document : Json) : Option (Option String) :=
  match document.get? "$schema" with
  | none => some none
  | some .null => some none
  | some (.string name) => some (some name)
  | some _ => none

/-- Reads a configuration from a document, which must be an object. -/
def ofJson? (document : Json) : Option Configuration :=
  match document with
  | .object _ => do
    let schema ← readSchema? document
    let options ← match document.get? "pass" with
      | some given => Options.ofJson? given
      | none => some Options.standard
    return { schema := schema, options := options }
  | _ => none

/-- Reads a configuration; of repeated keys the last one counts, and every number must be one that a
float can hold. -/
def ofText? (text : String) : Option Configuration :=
  (Json.read? text).bind fun document =>
    if document.isFinite then ofJson? document.settled else none

end Configuration

end ClassFactory
