/-
Module: ClassFactory.Mixins.Assembly
Purpose: Merging mixins into a surface. A later definition of an ordinary member or static takes the
  place of an earlier one; if neither mixin includes the other, the name stays ambiguous until the
  specification itself or a mixin that includes all the others defines it. Hooks are chained, each
  definition once. A declaration without a definition conflicts with nothing and lends its
  signature.
Main exports: HookConflict, Assembly, Assembly.addMixin, Assembly.own
-/
import ClassFactory.Mixins.Surface

namespace ClassFactory

/-- Two definitions of a hook that declare different signatures. -/
structure HookConflict where
  name : String
  earlier : MemberDefinition
  later : MemberDefinition
deriving Inhabited

/-- A surface being merged. -/
structure Assembly where
  surface : Surface
  /-- The names that are ambiguous so far, in the order in which they became so. -/
  pending : List Ambiguity
  /-- The first conflict of each hook. -/
  conflicts : List HookConflict
deriving Inhabited

/-- Whether the first mixin includes the second, directly or through others. -/
abbrev Includes := Nat → Nat → Bool

namespace Assembly

/-- Nothing merged yet. -/
def empty (pureRender : Bool) : Assembly :=
  { surface := { Surface.empty with pureRender := pureRender }, pending := [], conflicts := [] }

/-- Whether an ambiguity is that of the given name. -/
def concerns (name : String) (isStatic : Bool) (ambiguity : Ambiguity) : Bool :=
  ambiguity.name = name && ambiguity.isStatic = isStatic

/-- The ambiguity of a name. -/
def ambiguity? (assembly : Assembly) (name : String) (isStatic : Bool) : Option Ambiguity :=
  assembly.pending.find? (concerns name isStatic)

/-- Settles the ambiguity of a name. -/
def settle (assembly : Assembly) (name : String) (isStatic : Bool) : Assembly :=
  { assembly with pending := assembly.pending.filter fun a => !concerns name isStatic a }

/-- The ambiguity with one more origin, unless it has it. -/
def addOrigin (ambiguity : Ambiguity) (origin : Nat) (site : Site) : Ambiguity :=
  if ambiguity.origins.any fun o => o.1 = origin then ambiguity
  else { ambiguity with origins := ambiguity.origins ++ [(origin, site)] }

/-- Notes that a mixin defines an ambiguous name. -/
def note (assembly : Assembly) (name : String) (isStatic : Bool) (origin : Nat) (site : Site) :
    Assembly :=
  match assembly.ambiguity? name isStatic with
  | some _ =>
    { assembly with
      pending := assembly.pending.map fun a =>
        if concerns name isStatic a then addOrigin a origin site else a }
  | none =>
    { assembly with
      pending := assembly.pending ++
        [{ name := name, isStatic := isStatic, origins := [(origin, site)] }] }

/-- Notes all origins of an ambiguity of an included mixin. -/
def carry (assembly : Assembly) (ambiguity : Ambiguity) : Assembly :=
  ambiguity.origins.foldl
    (fun a origin => a.note ambiguity.name ambiguity.isStatic origin.1 origin.2) assembly

/-- Writes an ordinary member. -/
def set (assembly : Assembly) (name : String) (definition : MemberDefinition) : Assembly :=
  let member : SurfaceMember := { name := name, hook := none, definitions := [definition] }
  { assembly with
    surface := { assembly.surface with members := assembly.surface.members.insert name member } }

/-- Writes a static. -/
def setStatic (assembly : Assembly) (entry : StaticMember) : Assembly :=
  { assembly with
    surface :=
      { assembly.surface with statics := assembly.surface.statics.insert entry.name entry } }

/-- The first definition of a chain that declares a signature other than that of the given one. -/
def conflicting? (chain : List MemberDefinition) (definition : MemberDefinition) :
    Option MemberDefinition :=
  definition.signature?.bind fun signature =>
    chain.find? fun earlier => earlier.signature?.any fun other => !other.same signature

/-- The conflicts with that of a hook, unless one of that hook is known. -/
def addConflict (conflicts : List HookConflict) (name : String)
    (earlier later : MemberDefinition) : List HookConflict :=
  if conflicts.any fun c => c.name = name then conflicts
  else conflicts ++ [{ name := name, earlier := earlier, later := later }]

/-- Adds a definition at the end of the chain of a hook, unless the chain has it. -/
def chain (assembly : Assembly) (name : String) (hook : Hook) (definition : MemberDefinition) :
    Assembly :=
  let member := (assembly.surface.member? name).getD
    { name := name, hook := some hook, definitions := [] }
  if member.definitions.any fun d => d.definition = definition.definition then assembly
  else
    let conflicts := match conflicting? member.definitions definition with
      | some earlier => addConflict assembly.conflicts name earlier definition
      | none => assembly.conflicts
    let longer := { member with definitions := member.definitions ++ [definition] }
    { assembly with
      surface := { assembly.surface with members := assembly.surface.members.insert name longer }
      conflicts := conflicts }

/-- Whether a mixin is, or includes, every origin of the ambiguity of a name. -/
def settles (includes : Includes) (assembly : Assembly) (name : String) (mixin : Nat) : Bool :=
  (assembly.ambiguity? name false).any fun ambiguity =>
    ambiguity.origins.all fun origin => origin.1 = mixin || includes mixin origin.1

/-- Merges a definition of an included mixin with the one that is there, both being no mere
declarations. -/
def contend (includes : Includes) (assembly : Assembly) (name : String)
    (existing incoming : MemberDefinition) : Assembly :=
  if includes incoming.origin existing.origin then
    let settled :=
      if settles includes assembly name incoming.origin then assembly.settle name false
      else assembly
    settled.set name incoming
  else if includes existing.origin incoming.origin then assembly
  else
    ((assembly.note name false existing.origin existing.site).note name false incoming.origin
      incoming.site).set name incoming

/-- Merges a definition of an ordinary member of an included mixin. -/
def merge (includes : Includes) (assembly : Assembly) (name : String)
    (incoming : MemberDefinition) : Assembly :=
  match assembly.surface.primary? name with
  | none => assembly.set name incoming
  | some existing =>
    if existing.definition = incoming.definition then assembly
    else if incoming.isDeclared then
      if existing.isDeclared then assembly else assembly.set name (existing.inherit incoming)
    else if existing.isDeclared then assembly.set name (incoming.inherit existing)
    else contend includes assembly name existing incoming

/-- Merges a static of an included mixin. -/
def mergeStatic (includes : Includes) (assembly : Assembly) (incoming : StaticMember) :
    Assembly :=
  match assembly.surface.statics.get? incoming.name with
  | none => assembly.setStatic incoming
  | some existing =>
    if existing.definition = incoming.definition || includes existing.origin incoming.origin then
      assembly
    else if includes incoming.origin existing.origin then assembly.setStatic incoming
    else
      ((assembly.note incoming.name true existing.origin existing.site).note incoming.name true
        incoming.origin incoming.site).setStatic incoming

/-- Merges one member of an included mixin. -/
def mergeMember (includes : Includes) (assembly : Assembly) (name : String)
    (member : SurfaceMember) : Assembly :=
  match member.hook with
  | some hook => member.definitions.foldl (fun a d => a.chain name hook d) assembly
  | none =>
    match member.primary? with
    | some definition => assembly.merge includes name definition
    | none => assembly

/-- Adds a number to a list that stands for a set. -/
def addId (ids : List Nat) (id : Nat) : List Nat :=
  if ids.contains id then ids else ids ++ [id]

/-- Merges an included mixin, given its surface. -/
def addMixin (includes : Includes) (assembly : Assembly) (target : Nat) (included : Surface) :
    Assembly :=
  let surface :=
    { assembly.surface with
      includes := (target :: included.includes).foldl addId assembly.surface.includes
      pureRender := assembly.surface.pureRender || included.pureRender }
  let assembly := included.ambiguities.foldl carry { assembly with surface := surface }
  let assembly := included.members.entries.foldl
    (fun a entry => a.mergeMember includes entry.1 entry.2) assembly
  included.statics.values.foldl (mergeStatic includes) assembly

/-- Writes an own definition of an ordinary member over what the mixins supply. A mere declaration
leaves a definition in place, and a definition settles the name. -/
def overrideWith (assembly : Assembly) (name : String) (own : MemberDefinition) : Assembly :=
  match assembly.surface.primary? name with
  | none => assembly.set name own
  | some existing =>
    if own.isDeclared then
      assembly.set name (if existing.isDeclared then own else existing.inherit own)
    else
      (assembly.settle name false).set name
        (if existing.isDeclared then own.inherit existing else own)

/-- Adds an own member. A hook that is only declared adds nothing. -/
def ownMember (assembly : Assembly) (member : SpecMember) : Assembly :=
  let own := MemberDefinition.ofMember member
  match member.hook? with
  | some hook => if own.isDeclared then assembly else assembly.chain member.name hook own
  | none => assembly.overrideWith member.name own

/-- Adds an own static, which settles its name. -/
def ownStatic (assembly : Assembly) (entry : StaticDef) : Assembly :=
  (assembly.settle entry.name true).setStatic (StaticMember.ofStatic entry)

/-- Adds the own members and statics of a call, after all its mixins. -/
def own (assembly : Assembly) (spec : FactorySpec) : Assembly :=
  spec.statics.values.foldl ownStatic (spec.members.values.foldl ownMember assembly)

end Assembly

end ClassFactory
