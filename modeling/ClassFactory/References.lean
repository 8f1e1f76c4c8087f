/-
Module: ClassFactory.References
Purpose: Where the results of factory calls are read, and which calls could be removed because
  nothing that stays reads them. A read inside the specification of a removable call does not count,
  so calls that only serve each other are removable together.
Main exports: Reference, references, sweep, refine, SideEffects, SideEffects.ofReferences
-/
import ClassFactory.Factory.Registry
import ClassFactory.Script.Nodes

namespace ClassFactory

open Script (Program Node)

/-- A read of a name that is bound to a factory call. -/
structure Reference where
  name : String
  site : Site
deriving Repr, Inhabited, DecidableEq

/-- The name that a node may read, and where: a variable, or a member of a dotted name. -/
def readName? : Node → Option (String × Span)
  | .expr (.ident name span) => some (name, span)
  | .expr (.member owner property _ span) =>
    owner.qualifiedName?.map fun name => (name ++ "." ++ property, span)
  | .tag (.reference name span) => some (name, span)
  | .tag (.member object property span) =>
    object.name?.map fun name => (name ++ "." ++ property, span)
  | _ => none

/-- Whether a place of the given name reads it: the name is bound to a call, and the place is neither
part of the binding nor of a method declaration. -/
def isRead (registry : Registry) (name : String) (site : Site) : Bool :=
  match registry.lookup? name with
  | some call =>
    !call.declSite.contains site && !registry.abstractSites.any fun s => s.contains site
  | none => false

/-- The reads in one program, in the order of the source. The registry must hold every call. -/
def references (registry : Registry) (file : Nat) (program : Program) : List Reference :=
  program.nodes.filterMap fun node =>
    (readName? node).bind fun (name, span) =>
      let site := span.inFile file
      if isRead registry name site then some { name := name, site := site } else none

/-- The reads of one name. -/
def readersOf (reads : List Reference) (name : String) : List Reference :=
  reads.filter (·.name = name)

/-- Whether a place lies inside the specification of one of the calls. -/
def insideSpecs (calls : List FactoryCall) (site : Site) : Bool :=
  calls.any fun call => call.specSite.contains site

/-- Whether a call is read anywhere but in its own specification and those of the unread calls. -/
def hasLiveRead (reads : List Reference) (unread : List FactoryCall) (call : FactoryCall) : Bool :=
  (readersOf reads call.name).any fun read =>
    !call.specSite.contains read.site && !insideSpecs unread read.site

/-- One round over the unread calls, those of `kept` looked at already. A call with a live read is
dropped at once, so its specification keeps nothing after it. -/
def sweep (reads : List Reference) : List FactoryCall → List FactoryCall → List FactoryCall
  | kept, [] => kept
  | kept, call :: rest =>
    if hasLiveRead reads (kept ++ call :: rest) call then sweep reads kept rest
    else sweep reads (kept ++ [call]) rest

/-- Goes round until no call is dropped. Each round before that drops one at least. -/
def refine (reads : List Reference) (unread : List FactoryCall) : List FactoryCall :=
  let swept := sweep reads [] unread
  if swept.length < unread.length then refine reads swept else swept
termination_by unread.length

/-- The largest set of calls, none of them exported, that are read inside their own specifications
only. -/
def removableCalls (calls : List FactoryCall) (reads : List Reference) : List FactoryCall :=
  refine reads (calls.filter fun call => !call.exported)

/-- For every bound name, in order, whether its call could be removed. -/
structure SideEffects where
  facts : List (String × Bool)
deriving Repr, Inhabited

namespace SideEffects

/-- What the reads say about every call. -/
def ofReferences (registry : Registry) (reads : List Reference) : SideEffects :=
  let removable := (removableCalls registry.calls reads).map FactoryCall.id
  { facts := registry.calls.map fun call => (call.name, removable.contains call.id) }

/-- Whether the call bound to the name could be removed. -/
def isFree (effects : SideEffects) (name : String) : Bool :=
  effects.facts.any fun fact => fact.1 = name && fact.2

/-- The names whose calls could be removed. -/
def removable (effects : SideEffects) : List String :=
  (effects.facts.filter Prod.snd).map Prod.fst

end SideEffects

end ClassFactory
