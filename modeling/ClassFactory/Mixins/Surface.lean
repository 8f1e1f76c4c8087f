/-
Module: ClassFactory.Mixins.Surface
Purpose: What a mixin or component exposes once its mixins are merged into it: one definition for
  each ordinary member and static, and for each hook the chain of its definitions in call order.
Main exports: MemberDefinition, SurfaceMember, StaticMember, Ambiguity, Surface, Surface.hookChain
-/
import ClassFactory.Factory.Call

namespace ClassFactory

/-- A definition of a member and where it comes from. -/
structure MemberDefinition where
  definition : DefinitionId
  /-- The call whose specification holds the definition. -/
  origin : Nat
  site : Site
  kind : MemberKind
  isPrivate : Bool
deriving Inhabited

namespace MemberDefinition

/-- A member of a specification as a definition. -/
def ofMember (member : SpecMember) : MemberDefinition :=
  { definition := member.definition, origin := member.definition.owner, site := member.site,
    kind := member.kind, isPrivate := member.isPrivate }

/-- The signature that the definition declares. -/
def signature? (definition : MemberDefinition) : Option Signature :=
  definition.kind.signature?

/-- Whether the member is declared without a definition. -/
def isDeclared (definition : MemberDefinition) : Bool :=
  definition.kind.isDeclared

/-- The definition with the signature that another one declares, if it is a method without one. -/
def inherit (definition declared : MemberDefinition) : MemberDefinition :=
  { definition with kind := definition.kind.fillSignature declared.signature? }

end MemberDefinition

/-- A member of a surface. A hook has its chain of definitions, any other member just one. -/
structure SurfaceMember where
  name : String
  hook : Option Hook
  definitions : List MemberDefinition
deriving Inhabited

namespace SurfaceMember

/-- The definition that a call reaches; of a hook, the first one. -/
def primary? (member : SurfaceMember) : Option MemberDefinition :=
  member.definitions.head?

/-- The first signature that one of the definitions declares. -/
def signature? (member : SurfaceMember) : Option Signature :=
  member.definitions.findSome? MemberDefinition.signature?

/-- Whether the member is a plain value. -/
def isValue (member : SurfaceMember) : Bool :=
  member.definitions.all fun d => d.kind.isValue

/-- The type of a plain value. -/
def valueType? (member : SurfaceMember) : Option Ty :=
  match member.primary?.map MemberDefinition.kind with
  | some (.value type) => some type
  | _ => none

end SurfaceMember

/-- A static of a surface. -/
structure StaticMember where
  definition : DefinitionId
  name : String
  /-- The call whose specification holds the static. -/
  origin : Nat
  site : Site
  type : Ty
deriving Inhabited

/-- A static of a specification as one of a surface. -/
def StaticMember.ofStatic (entry : StaticDef) : StaticMember :=
  { definition := entry.definition, name := entry.name, origin := entry.definition.owner,
    site := entry.site, type := entry.type }

/-- A name that several mixins define of which none includes the others, and that nothing has
redefined. -/
structure Ambiguity where
  name : String
  isStatic : Bool
  /-- The calls that define the name, and where, in the order in which they were merged. -/
  origins : List (Nat × Site)
deriving Repr, Inhabited, DecidableEq

/-- The merged members of a mixin or component. -/
structure Surface where
  members : Keyed SurfaceMember
  statics : Keyed StaticMember
  /-- What is left to be settled by whoever includes the surface. -/
  ambiguities : List Ambiguity
  /-- The mixins that are included, directly or through others. -/
  includes : List Nat
  /-- Whether a library mixin implements `shouldComponentUpdate`. -/
  pureRender : Bool
deriving Inhabited

namespace Surface

/-- A surface without members. -/
def empty : Surface :=
  { members := .empty, statics := .empty, ambiguities := [], includes := [], pureRender := false }

/-- The member of that name. -/
def member? (surface : Surface) (name : String) : Option SurfaceMember :=
  surface.members.get? name

/-- The definition that a call of a member reaches. -/
def primary? (surface : Surface) (name : String) : Option MemberDefinition :=
  (surface.member? name).bind SurfaceMember.primary?

/-- The definitions of a hook in call order. -/
def hookChain (surface : Surface) (hook : Hook) : List MemberDefinition :=
  ((surface.member? hook.name).map SurfaceMember.definitions).getD []

end Surface

end ClassFactory
