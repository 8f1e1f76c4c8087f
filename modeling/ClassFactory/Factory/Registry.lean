/-
Module: ClassFactory.Factory.Registry
Purpose: All factory calls of a compilation. The first call bound to a name is the one that counts;
  a later one is set aside. Methods of mixins declared apart from their specification wait until
  every file has been read.
Main exports: AbstractDecl, Registry, Registry.insert, Registry.recordOpaque, Registry.addAbstract,
  Registry.report, Registry.finish, Registry.lookup?
-/
import ClassFactory.Diagnostic.Basic
import ClassFactory.DocBlock
import ClassFactory.Factory.Call

namespace ClassFactory

/-- A documented statement `Owner.name;` that declares a method of a mixin. -/
structure AbstractDecl where
  owner : String
  name : String
  site : Site
  doc : DocBlock
deriving Inhabited

/-- The factory calls of a compilation. -/
structure Registry where
  /-- The recorded calls; a call's number is its position. -/
  calls : List FactoryCall
  /-- The calls left out of the analysis. -/
  opaqueCalls : List OpaqueCall
  /-- The names that stand for calls left out and for no recorded call. -/
  opaqueNames : List String
  /-- The declarations of methods that are not attached yet. -/
  pending : List AbstractDecl
  /-- Where attached declarations stand. -/
  abstractSites : List Site
  diagnostics : List Diagnostic
deriving Inhabited

namespace Registry

/-- A registry without calls. -/
def empty : Registry :=
  { calls := [], opaqueCalls := [], opaqueNames := [], pending := [], abstractSites := [],
    diagnostics := [] }

/-- The number the next recorded call gets. -/
def nextId (registry : Registry) : Nat := registry.calls.length

/-- The call of a number. -/
def get? (registry : Registry) (id : Nat) : Option FactoryCall := registry.calls[id]?

/-- The call bound to a name. -/
def lookup? (registry : Registry) (name : String) : Option FactoryCall :=
  registry.calls.find? (·.name = name)

/-- The number of the call bound to a name. -/
def idOf? (registry : Registry) (name : String) : Option Nat :=
  (registry.lookup? name).map FactoryCall.id

/-- The calls that create components. -/
def components (registry : Registry) : List FactoryCall :=
  registry.calls.filter FactoryCall.isComponent

/-- The calls that create mixins. -/
def mixins (registry : Registry) : List FactoryCall :=
  registry.calls.filter FactoryCall.isMixin

/-- Whether the name stands for a call that was left out of the analysis. -/
def isOpaque (registry : Registry) (name : String) : Bool :=
  registry.opaqueNames.contains name

/-- Adds a finding. -/
def report (registry : Registry) (diagnostic : Diagnostic) : Registry :=
  { registry with diagnostics := registry.diagnostics ++ [diagnostic] }

/-- Leaves a call out of the analysis. Its name stays that of a recorded call, if there is one. -/
def recordOpaque (registry : Registry) (call : OpaqueCall) : Registry :=
  let names := match call.name with
    | some name =>
      if (registry.lookup? name).isSome then registry.opaqueNames
      else registry.opaqueNames ++ [name]
    | none => registry.opaqueNames
  { registry with opaqueCalls := registry.opaqueCalls ++ [call], opaqueNames := names }

/-- The warning for a second call bound to a name. -/
def duplicateWarning (call first : FactoryCall) : Diagnostic :=
  (Diagnostic.warning .duplicateFactory
    ("`" ++ call.name ++ "` is already bound to a factory call; this " ++ call.kind.label ++
      " is not checked")
    call.declSite).withRelated "first bound here" first.declSite

/-- Records a call under the next number, which it must carry; gives that number. A name that is
bound already keeps its first call: the new one is reported and left out. -/
def insert (registry : Registry) (call : FactoryCall) : Registry × Option Nat :=
  match registry.lookup? call.name with
  | some first =>
    let aside : OpaqueCall :=
      { name := some call.name, kind := call.kind, site := call.site, reason := .duplicate }
    ((registry.report (duplicateWarning call first)).recordOpaque aside, none)
  | none => ({ registry with calls := registry.calls ++ [call] }, some call.id)

/-- Keeps a declaration until the registry is finished. -/
def addAbstract (registry : Registry) (declaration : AbstractDecl) : Registry :=
  { registry with pending := registry.pending ++ [declaration] }

/-- The call with a declared method. A definition of that name stays, but takes the declared
signature if it has none. -/
def declareIn (declaration : AbstractDecl) (call : FactoryCall) : FactoryCall :=
  let signature := declaration.doc.abstractSignature
  match call.spec.member? declaration.name with
  | some member =>
    let member := { member with kind := member.kind.fillSignature signature }
    { call with
      spec := { call.spec with members := call.spec.members.insert declaration.name member } }
  | none =>
    { call with
      spec := call.spec.addMember call.id declaration.name declaration.site (.declared signature)
        declaration.doc.isPrivate }

/-- Attaches a declaration to the mixin it names; one for anything else is dropped. -/
def attach (registry : Registry) (declaration : AbstractDecl) : Registry :=
  match registry.lookup? declaration.owner with
  | some owner =>
    if owner.isMixin then
      { registry with
        calls := registry.calls.map fun call =>
          if call.id = owner.id then declareIn declaration call else call
        abstractSites := registry.abstractSites ++ [declaration.site] }
    else registry
  | none => registry

/-- Attaches all declarations that wait. -/
def finish (registry : Registry) : Registry :=
  registry.pending.foldl attach { registry with pending := [] }

/-- The findings so far, and the registry without them. -/
def takeDiagnostics (registry : Registry) : List Diagnostic × Registry :=
  (registry.diagnostics, { registry with diagnostics := [] })

end Registry

end ClassFactory
