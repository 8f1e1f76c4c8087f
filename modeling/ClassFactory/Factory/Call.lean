/-
Module: ClassFactory.Factory.Call
Purpose: Calls of component and mixin factories, as they were found in the sources: what each is
  bound to and what its specification says. Everything later works on these records and never
  looks at a specification in the source again.
Main exports: FactoryKind, DefinitionId, MemberKind, SpecMember, FactorySpec, FactoryCall,
  OpaqueReason, OpaqueCall
-/
import ClassFactory.Keyed
import ClassFactory.Lifecycle
import ClassFactory.Source.Site
import ClassFactory.Validator

namespace ClassFactory

/-- What a factory creates. -/
inductive FactoryKind where
  | component
  | mixin
deriving Repr, Inhabited, DecidableEq

/-- The word for what a factory creates. -/
def FactoryKind.label : FactoryKind → String
  | .component => "component"
  | .mixin => "mixin"

/-- The identity of a definition: the call whose specification holds it, and its number there. It
stays the same however definitions are merged. -/
structure DefinitionId where
  owner : Nat
  index : Nat
deriving Repr, Inhabited, DecidableEq

/-- What a member of a specification is. -/
inductive MemberKind where
  /-- A function with its documented signature, the number of its parameters and its place. -/
  | method (signature : Option Signature) (arity : Nat) (functionSite : Site)
  /-- A method of a mixin that is declared without a definition. -/
  | declared (signature : Option Signature)
  | value (type : Ty)
deriving Inhabited

namespace MemberKind

/-- The signature a member declares. -/
def signature? : MemberKind → Option Signature
  | .method signature _ _ => signature
  | .declared signature => signature
  | .value _ => none

/-- Whether the member is declared without a definition. -/
def isDeclared : MemberKind → Bool
  | .declared _ => true
  | _ => false

/-- Whether the member is neither a method nor a declaration of one. -/
def isValue : MemberKind → Bool
  | .value _ => true
  | _ => false

/-- The member with a signature, if it is a method that has none. -/
def fillSignature (kind : MemberKind) (signature : Option Signature) : MemberKind :=
  match kind with
  | .method none arity functionSite => .method signature arity functionSite
  | _ => kind

end MemberKind

/-- A member of a specification. The site is that of the property or of the declaration. -/
structure SpecMember where
  definition : DefinitionId
  name : String
  site : Site
  kind : MemberKind
  isPrivate : Bool
deriving Inhabited

/-- The hook that the member implements, if its name is one. -/
def SpecMember.hook? (member : SpecMember) : Option Hook :=
  Hook.ofName? member.name

/-- An entry of a `mixins` list. -/
structure MixinRef where
  name : String
  site : Site
deriving Repr, Inhabited, DecidableEq

/-- A static of a specification. -/
structure StaticDef where
  definition : DefinitionId
  name : String
  site : Site
  type : Ty
deriving Inhabited

/-- An entry of `propTypes`. A documented type takes the place of the validator's. -/
structure PropDef where
  name : String
  site : Site
  validator : Validator
  documented : Option Ty
deriving Inhabited

/-- What `getInitialState` says about the state: by its documentation, or by the object it
returns. -/
structure StateHint where
  type : Ty
  isAnnotated : Bool
  site : Site
deriving Inhabited

/-- The contents of a specification. -/
structure FactorySpec where
  /-- Methods and values in order of their first keys. -/
  members : Keyed SpecMember
  mixins : List MixinRef
  statics : Keyed StaticDef
  /-- The declared props; `none` if nothing is known of them. -/
  propTypes : Option (Keyed PropDef)
  displayName : Option String
  /-- The keys of the object that `getDefaultProps` returns. -/
  defaultProps : List String
  stateHint : Option StateHint
  /-- How many definitions were numbered so far, those of overwritten keys included. -/
  definitionCount : Nat
deriving Inhabited

namespace FactorySpec

/-- A specification without entries. -/
def empty : FactorySpec :=
  { members := .empty, mixins := [], statics := .empty, propTypes := none, displayName := none,
    defaultProps := [], stateHint := none, definitionCount := 0 }

/-- The member of that name. -/
def member? (spec : FactorySpec) (name : String) : Option SpecMember :=
  spec.members.get? name

/-- Enters a member under a fresh number; it takes the place of an earlier one of its name. -/
def addMember (spec : FactorySpec) (owner : Nat) (name : String) (site : Site) (kind : MemberKind)
    (isPrivate : Bool) : FactorySpec :=
  let member : SpecMember :=
    { definition := { owner := owner, index := spec.definitionCount }, name := name, site := site,
      kind := kind, isPrivate := isPrivate }
  { spec with members := spec.members.insert name member,
              definitionCount := spec.definitionCount + 1 }

/-- Enters a static under a fresh number; it takes the place of an earlier one of its name. -/
def addStatic (spec : FactorySpec) (owner : Nat) (name : String) (site : Site) (type : Ty) :
    FactorySpec :=
  let entry : StaticDef :=
    { definition := { owner := owner, index := spec.definitionCount }, name := name, site := site,
      type := type }
  { spec with statics := spec.statics.insert name entry,
              definitionCount := spec.definitionCount + 1 }

/-- Whether `getDefaultProps` supplies the prop. -/
def hasDefault (spec : FactorySpec) (prop : String) : Bool :=
  spec.defaultProps.contains prop

/-- The props that `getDefaultProps` supplies, each once, in order of their characters. -/
def defaultPropNames (spec : FactorySpec) : List String :=
  spec.defaultProps.eraseDups.mergeSort fun a b => a ≤ b

end FactorySpec

/-- A call of a factory whose result has a name. -/
structure FactoryCall where
  /-- The number of the call, in the order in which the calls were recorded. -/
  id : Nat
  kind : FactoryKind
  /-- What the result is bound to, dotted for members. -/
  name : String
  site : Site
  /-- The name or member that is bound. -/
  declSite : Site
  /-- The specification. -/
  specSite : Site
  exported : Bool
  spec : FactorySpec
deriving Inhabited

namespace FactoryCall

/-- Whether the call creates a component. -/
def isComponent (call : FactoryCall) : Bool := call.kind = .component

/-- Whether the call creates a mixin. -/
def isMixin (call : FactoryCall) : Bool := call.kind = .mixin

end FactoryCall

/-- Why a call is left out of the analysis. -/
inductive OpaqueReason where
  | unbound
  | nonLiteralSpec
  | computedMixins
  | computedMixinEntry
  | computedStatics
  | duplicate
deriving Repr, Inhabited, DecidableEq

/-- The reason in words. -/
def OpaqueReason.description : OpaqueReason → String
  | .unbound => "result is not bound to a name"
  | .nonLiteralSpec => "specification is not an object literal"
  | .computedMixins => "mixins is not an array literal"
  | .computedMixinEntry => "mixins entry is not a name"
  | .computedStatics => "statics is not an object literal"
  | .duplicate => "name is already bound to a factory call"

/-- A call that is left out of the analysis. -/
structure OpaqueCall where
  name : Option String
  kind : FactoryKind
  site : Site
  reason : OpaqueReason
deriving Repr, Inhabited, DecidableEq

end ClassFactory
