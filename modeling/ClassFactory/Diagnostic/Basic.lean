/-
Module: ClassFactory.Diagnostic.Basic
Purpose: Diagnostics: what was found, how grave it is, and where. One record serves the findings
  of this library and those of a host checker. Codes from 1000 concern factory declarations, from
  2000 their uses, from 3000 synthesis, and from 9000 they are the host's.
Main exports: DiagnosticCode, Severity, Related, Diagnostic, CheckResult
-/
import ClassFactory.Source.Site

namespace ClassFactory

/-- What a diagnostic is about. -/
inductive DiagnosticCode where
  /-- A mixin includes itself, directly or through others. -/
  | cyclicMixin
  /-- Sibling mixins define one method and nothing settles it. -/
  | ambiguousMixinMethod
  /-- Sibling mixins define one static and nothing settles it. -/
  | ambiguousMixinStatic
  /-- A component has no render. -/
  | missingRender
  /-- Several mixins supply render to a component without its own. -/
  | renderConflict
  /-- Render declares parameters. -/
  | renderArity
  /-- Chained hook definitions declare different signatures. -/
  | hookSignatureConflict
  /-- A `mixins` entry names no mixin. -/
  | unknownMixin
  /-- An included mixin failed to resolve. -/
  | mixinSurfaceUnavailable
  /-- `shouldComponentUpdate` beside a pure render mixin. -/
  | pureRenderMixinOverride
  /-- A factory call without exactly one argument. -/
  | factoryArity
  /-- A name bound to two factory calls. -/
  | duplicateFactory
  /-- A call of a method the component does not have. -/
  | unknownMethod
  /-- A static the component does not have. -/
  | unknownStatic
  /-- A prop the component does not declare. -/
  | unknownProp
  /-- A required prop that is not passed. -/
  | missingRequiredProp
  /-- A prop value of the wrong type. -/
  | propTypeMismatch
  /-- An argument of the wrong type. -/
  | argumentTypeMismatch
  /-- The wrong number of arguments. -/
  | argumentCount
  /-- An element factory called without arguments. -/
  | createElementArity
  /-- Required children that are not passed. -/
  | missingChildren
  /-- A state field outside the initial state. -/
  | unknownStateField
  /-- A validator that is not understood. -/
  | unknownPropType
  /-- An initial state annotated with something other than a record. -/
  | unexpectedStateType
  /-- Host: a type mismatch. -/
  | typeMismatch
  /-- Host: a property that may be undefined. -/
  | possiblyUndefinedProperty
  /-- Host: a property never defined on a type. -/
  | inexistentProperty
  /-- Host: an unrecognized documentation tag. -/
  | unknownDocTag
  /-- Host: a dangerous use of `this`. -/
  | dangerousThisUsage
  /-- Host: a statement without effect. -/
  | uselessCode
  /-- Host: anything else. -/
  | other
deriving Repr, Inhabited, DecidableEq

namespace DiagnosticCode

/-- Every code, in numerical order. -/
def all : List DiagnosticCode :=
  [.cyclicMixin, .ambiguousMixinMethod, .ambiguousMixinStatic, .missingRender,
   .renderConflict, .renderArity, .hookSignatureConflict, .unknownMixin,
   .mixinSurfaceUnavailable, .pureRenderMixinOverride, .factoryArity, .duplicateFactory,
   .unknownMethod, .unknownStatic, .unknownProp, .missingRequiredProp, .propTypeMismatch,
   .argumentTypeMismatch, .argumentCount, .createElementArity, .missingChildren,
   .unknownStateField, .unknownPropType, .unexpectedStateType, .typeMismatch,
   .possiblyUndefinedProperty, .inexistentProperty, .unknownDocTag, .dangerousThisUsage,
   .uselessCode, .other]

/-- The number of a code. -/
def number : DiagnosticCode → Nat
  | .cyclicMixin => 1001
  | .ambiguousMixinMethod => 1002
  | .ambiguousMixinStatic => 1003
  | .missingRender => 1004
  | .renderConflict => 1005
  | .renderArity => 1006
  | .hookSignatureConflict => 1007
  | .unknownMixin => 1008
  | .mixinSurfaceUnavailable => 1009
  | .pureRenderMixinOverride => 1010
  | .factoryArity => 1011
  | .duplicateFactory => 1012
  | .unknownMethod => 2001
  | .unknownStatic => 2002
  | .unknownProp => 2003
  | .missingRequiredProp => 2004
  | .propTypeMismatch => 2005
  | .argumentTypeMismatch => 2006
  | .argumentCount => 2007
  | .createElementArity => 2008
  | .missingChildren => 2009
  | .unknownStateField => 2010
  | .unknownPropType => 3001
  | .unexpectedStateType => 3002
  | .typeMismatch => 9001
  | .possiblyUndefinedProperty => 9002
  | .inexistentProperty => 9003
  | .unknownDocTag => 9004
  | .dangerousThisUsage => 9005
  | .uselessCode => 9006
  | .other => 9999

/-- The name of a code as it is written in reports. -/
def name : DiagnosticCode → String
  | .cyclicMixin => "cyclic-mixin"
  | .ambiguousMixinMethod => "ambiguous-mixin-method"
  | .ambiguousMixinStatic => "ambiguous-mixin-static"
  | .missingRender => "missing-render"
  | .renderConflict => "render-conflict"
  | .renderArity => "render-arity"
  | .hookSignatureConflict => "hook-signature-conflict"
  | .unknownMixin => "unknown-mixin"
  | .mixinSurfaceUnavailable => "mixin-surface-unavailable"
  | .pureRenderMixinOverride => "pure-render-mixin-override"
  | .factoryArity => "factory-arity"
  | .duplicateFactory => "duplicate-factory"
  | .unknownMethod => "unknown-method"
  | .unknownStatic => "unknown-static"
  | .unknownProp => "unknown-prop"
  | .missingRequiredProp => "missing-required-prop"
  | .propTypeMismatch => "prop-type-mismatch"
  | .argumentTypeMismatch => "argument-type-mismatch"
  | .argumentCount => "argument-count"
  | .createElementArity => "create-element-arity"
  | .missingChildren => "missing-children"
  | .unknownStateField => "unknown-state-field"
  | .unknownPropType => "unknown-prop-type"
  | .unexpectedStateType => "unexpected-state-type"
  | .typeMismatch => "type-mismatch"
  | .possiblyUndefinedProperty => "possibly-undefined-property"
  | .inexistentProperty => "inexistent-property"
  | .unknownDocTag => "unknown-jsdoc-tag"
  | .dangerousThisUsage => "dangerous-this-usage"
  | .uselessCode => "useless-code"
  | .other => "other"

/-- Whether the code is one that a host checker emits. -/
def isHost (code : DiagnosticCode) : Bool :=
  9000 ≤ code.number

/-- The code of that name. -/
def ofName? (name : String) : Option DiagnosticCode :=
  all.find? (·.name = name)

theorem ofName?_name (code : DiagnosticCode) : ofName? code.name = some code := by
  cases code <;> rfl

end DiagnosticCode

/-- How grave a diagnostic is; only errors fail a compilation. -/
inductive Severity where
  | error
  | warning
deriving Repr, Inhabited, DecidableEq

namespace Severity

/-- The severity as it is written in reports. -/
def name : Severity → String
  | .error => "error"
  | .warning => "warning"

/-- The severity of that name. -/
def ofName? : String → Option Severity
  | "error" => some .error
  | "warning" => some .warning
  | _ => none

end Severity

/-- A further place that explains a diagnostic. -/
structure Related where
  message : String
  site : Site
deriving Repr, Inhabited, DecidableEq

/-- A finding at a place in the checked program. -/
structure Diagnostic where
  code : DiagnosticCode
  severity : Severity
  message : String
  site : Site
  related : List Related
deriving Repr, Inhabited, DecidableEq

namespace Diagnostic

/-- An error without related places. -/
def error (code : DiagnosticCode) (message : String) (site : Site) : Diagnostic :=
  { code := code, severity := .error, message := message, site := site, related := [] }

/-- A warning without related places. -/
def warning (code : DiagnosticCode) (message : String) (site : Site) : Diagnostic :=
  { code := code, severity := .warning, message := message, site := site, related := [] }

/-- Adds a related place at the end. -/
def withRelated (diagnostic : Diagnostic) (message : String) (site : Site) : Diagnostic :=
  { diagnostic with related := diagnostic.related ++ [{ message := message, site := site }] }

/-- Whether the diagnostic fails the compilation. -/
def isError (diagnostic : Diagnostic) : Bool :=
  diagnostic.severity = .error

end Diagnostic

/-- The diagnostics of a check in the order they were found, with their counts. -/
structure CheckResult where
  diagnostics : List Diagnostic
  errorCount : Nat
  warningCount : Nat
deriving Repr, Inhabited, DecidableEq

namespace CheckResult

/-- A check that found nothing. -/
def empty : CheckResult := { diagnostics := [], errorCount := 0, warningCount := 0 }

/-- Adds one finding at the end. -/
def add (result : CheckResult) (diagnostic : Diagnostic) : CheckResult :=
  match diagnostic.severity with
  | .error =>
    { result with diagnostics := result.diagnostics ++ [diagnostic],
                  errorCount := result.errorCount + 1 }
  | .warning =>
    { result with diagnostics := result.diagnostics ++ [diagnostic],
                  warningCount := result.warningCount + 1 }

/-- Adds findings in order. -/
def extend (result : CheckResult) (diagnostics : List Diagnostic) : CheckResult :=
  diagnostics.foldl add result

/-- Adds the findings of another check after those of this one. -/
def merge (result other : CheckResult) : CheckResult :=
  result.extend other.diagnostics

/-- Whether an error was found. -/
def hasErrors (result : CheckResult) : Bool := 0 < result.errorCount

/-- Whether anything was found. -/
def hasDiagnostics (result : CheckResult) : Bool := !result.diagnostics.isEmpty

end CheckResult

end ClassFactory
