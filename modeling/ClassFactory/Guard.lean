/-
Module: ClassFactory.Guard
Purpose: Filtering the diagnostics of a host checker, which knows nothing of factories. A diagnostic
  that one of the rules recognizes is dropped; all others are kept in order.
Main exports: GuardRule, Guard, Guard.ruleFor?, Guard.filter
-/
import ClassFactory.Component.Type
import ClassFactory.Factory.Registry
import ClassFactory.Source.Files

namespace ClassFactory

/-- What makes a diagnostic of the host void. -/
inductive GuardRule where
  /-- Unknown documentation tags in the library's own sources. -/
  | libraryDoc
  /-- `this` in a method of a specification. -/
  | specMethodThis
  /-- A hook, which the library calls, in a specification. -/
  | dispatchedHook
  /-- A member that the host cannot know of. -/
  | synthesizedMember
  /-- The statement that declares a method of a mixin. -/
  | abstractDeclaration
  /-- A mismatch of props, which is reported in plain words elsewhere. -/
  | propsMismatch
deriving Repr, Inhabited, DecidableEq

namespace GuardRule

/-- The rules in the order in which they are tried. -/
def all : List GuardRule :=
  [.libraryDoc, .specMethodThis, .dispatchedHook, .synthesizedMember, .abstractDeclaration,
   .propsMismatch]

/-- The name of a rule. -/
def name : GuardRule → String
  | .libraryDoc => "library-jsdoc"
  | .specMethodThis => "spec-method-this"
  | .dispatchedHook => "dispatched-lifecycle-hook"
  | .synthesizedMember => "synthesized-member"
  | .abstractDeclaration => "mixin-abstract-declaration"
  | .propsMismatch => "props-validator-mismatch"

end GuardRule

/-- What the rules look at. -/
structure Guard where
  registry : Registry
  table : TypeTable
  files : SourceFiles
  options : Options

/-- The word after `Property ` at the start of a text, and what follows it. -/
def propertyAt? (cs : List Char) : Option (String × List Char) :=
  match Text.dropStart? "Property ".toList cs with
  | some rest =>
    let word := rest.takeWhile Text.isWordCharacter
    if word.isEmpty then none
    else some (String.ofList word, rest.dropWhile Text.isWordCharacter)
  | none => none

/-- The first property that a message names. -/
def namedProperty? (message : String) : Option String :=
  (Text.firstAt? propertyAt? message.toList).map Prod.fst

/-- The property and the owner that the start of a text says is without it. -/
def neverDefinedAt? (cs : List Char) : Option (String × List Char) := do
  let (property, rest) ← propertyAt? cs
  let rest ← Text.dropStart? " never defined on ".toList rest
  let owner := rest.takeWhile fun c => !Text.isBlank c
  if owner.isEmpty then none else some (property, owner)

/-- The name of an owner as messages decorate it: marks in front, punctuation behind, and the
prototype. -/
def plainOwner (owner : List Char) : String :=
  let bare := owner.dropWhile fun c => c = '!' || c = '?'
  let bare := (bare.reverse.dropWhile fun c => c = '.' || c = ',').reverse
  String.ofList (Text.trimSuffixes ".prototype".toList bare)

/-- The property that a message says is never defined, and on what. -/
def neverDefined? (message : String) : Option (String × String) :=
  (Text.firstAt? neverDefinedAt? message.toList).map fun (property, owner) =>
    (property, plainOwner owner)

/-- The component whose props a text says do not fit, all on one line. -/
def validatedAt? (cs : List Char) : Option String := do
  let rest ← Text.dropStart? "actual parameter 1 of ".toList cs
  let line := rest.takeWhile (· ≠ '\n')
  let name ← Text.beforeLast? "$$PropsValidator does not match formal parameter".toList line
  if name.isEmpty then none else some (String.ofList name)

/-- The component whose props a message says do not fit. -/
def validated? (message : String) : Option String :=
  Text.firstAt? validatedAt? message.toList

/-- Whether the library calls a member of that name. -/
def isDispatched (name : String) : Bool :=
  (Hook.ofName? name).isSome || standardMethods.any fun entry => entry.1 = name

/-- Whether two sites begin at the same place and end at most one byte apart. -/
def nearlySame (a b : Site) : Bool :=
  a.file = b.file && a.start = b.start && a.stop ≤ b.stop + 1 && b.stop ≤ a.stop + 1

namespace Guard

/-- The component of that name, or of that name for its interface. -/
def componentNamed? (guard : Guard) (name : String) : Option ComponentType :=
  match guard.table.component? name with
  | some component => some component
  | none => do
    let base ← Text.dropEnd? "Interface".toList name.toList
    let call ← guard.registry.components.find? fun call =>
      identifierOf call.name = String.ofList base
    guard.table.component? call.name

/-- Whether a message is about a member or static that its component has. -/
def isSynthesized (guard : Guard) (message : String) : Bool :=
  match neverDefined? message with
  | some (property, owner) =>
    (guard.componentNamed? owner).any fun component =>
      component.hasMember property || (component.static? property).isSome
  | none => false

/-- Whether a site lies in a method of a specification. -/
def inSpecMethod (guard : Guard) (site : Site) : Bool :=
  guard.registry.calls.any fun call =>
    call.spec.members.values.any fun member =>
      match member.kind with
      | .method _ _ functionSite => functionSite.contains site
      | _ => false

/-- Whether a site lies in a specification. -/
def inSpec (guard : Guard) (site : Site) : Bool :=
  guard.registry.calls.any fun call => call.specSite.contains site

/-- Whether a rule recognizes a diagnostic. -/
def recognizes (guard : Guard) (diagnostic : Diagnostic) : GuardRule → Bool
  | .libraryDoc =>
    diagnostic.code = .unknownDocTag &&
      guard.options.isLibrarySource (guard.files.name diagnostic.site.file)
  | .specMethodThis => diagnostic.code = .dangerousThisUsage && guard.inSpecMethod diagnostic.site
  | .dispatchedHook =>
    (diagnostic.code = .possiblyUndefinedProperty || diagnostic.code = .inexistentProperty) &&
      (namedProperty? diagnostic.message).any isDispatched && guard.inSpec diagnostic.site
  | .synthesizedMember =>
    diagnostic.code = .inexistentProperty && guard.isSynthesized diagnostic.message
  | .abstractDeclaration =>
    diagnostic.code = .uselessCode &&
      guard.registry.abstractSites.any fun site => nearlySame site diagnostic.site
  | .propsMismatch =>
    diagnostic.code = .typeMismatch &&
      (validated? diagnostic.message).any fun name => (guard.table.component? name).isSome

/-- The first rule that recognizes a diagnostic. -/
def ruleFor? (guard : Guard) (diagnostic : Diagnostic) : Option GuardRule :=
  GuardRule.all.find? (guard.recognizes diagnostic)

/-- The diagnostics that no rule recognizes. -/
def filter (guard : Guard) (diagnostics : List Diagnostic) : List Diagnostic :=
  diagnostics.filter fun d => (guard.ruleFor? d).isNone

end Guard

end ClassFactory
