/-
Module: ClassFactory.Mixins.Dependency
Purpose: What the entries of `mixins` lists name, and the order in which mixins can be merged: each
  after all that it includes, as far as the inclusions form no cycle. The order is that of a
  depth-first walk, which also finds the cycles.
Main exports: Dependency, classify, entryProblem?, edges, Traversal, visit, traverse
-/
import ClassFactory.Factory.Registry
import ClassFactory.Text.Suggestion

namespace ClassFactory

/-- What an entry of a `mixins` list names. -/
inductive Dependency where
  /-- A recorded mixin; the site is that of the entry. -/
  | mixin (id : Nat) (site : Site)
  /-- A library mixin that implements `shouldComponentUpdate`. -/
  | pureRender
  /-- A call that was left out of the analysis. -/
  | leftOut
  /-- A component, which cannot be included. -/
  | component (declSite : Site)
  | unknown
deriving Repr, Inhabited, DecidableEq

/-- What an entry names. A library mixin is known by its name whatever else has that name. -/
def classify (registry : Registry) (options : Options) (entry : MixinRef) : Dependency :=
  if options.isPureRenderMixin entry.name then .pureRender
  else
    match registry.lookup? entry.name with
    | some target =>
      if target.isMixin then .mixin target.id entry.site else .component target.declSite
    | none => if registry.isOpaque entry.name then .leftOut else .unknown

/-- The finding for an entry that names no mixin. -/
def entryProblem? (registry : Registry) (options : Options) (entry : MixinRef) :
    Option Diagnostic :=
  match classify registry options entry with
  | .component declSite =>
    some ((Diagnostic.error .unknownMixin
      ("`" ++ entry.name ++ "` is a component, not a mixin") entry.site).withRelated
        "declared here" declSite)
  | .unknown =>
    let names := registry.mixins.map FactoryCall.name
    some (Diagnostic.error .unknownMixin
      ("unknown mixin `" ++ entry.name ++ "`" ++ Text.suggestionTail entry.name names) entry.site)
  | _ => none

/-- The findings for the entries of a call. -/
def entryProblems (registry : Registry) (options : Options) (call : FactoryCall) :
    List Diagnostic :=
  call.spec.mixins.filterMap (entryProblem? registry options)

/-- What the entries of a call name, in order. -/
def dependencies (registry : Registry) (options : Options) (call : FactoryCall) :
    List Dependency :=
  call.spec.mixins.map (classify registry options)

/-- Whether an entry of the call names no mixin. -/
def hasBadEntry (registry : Registry) (options : Options) (call : FactoryCall) : Bool :=
  call.spec.mixins.any fun entry => (entryProblem? registry options entry).isSome

/-- A step from a call to a mixin, as the entry that makes it. -/
def Dependency.edge? : Dependency → Option (Nat × Site)
  | .mixin id site => some (id, site)
  | _ => none

/-- The mixins that a call includes itself, each with the entry that names it. -/
def edges (registry : Registry) (options : Options) (id : Nat) : List (Nat × Site) :=
  match registry.get? id with
  | some call => (dependencies registry options call).filterMap Dependency.edge?
  | none => []

/-- A way along inclusions: each mixin with the entry that leads on from it. -/
abbrev InclusionPath := List (Nat × Site)

/-- The state of a walk over the mixins. -/
structure Traversal where
  /-- The mixins whose inclusions are all visited, in the order in which that came about. -/
  order : List Nat
  /-- The mixins known to lie on a cycle. -/
  cyclic : List Nat
  /-- The cycles to report. The last entry of each leads back to its first mixin. -/
  cycles : List InclusionPath
deriving Repr, Inhabited, DecidableEq

namespace Traversal

/-- A walk before its first step. -/
def start : Traversal := { order := [], cyclic := [], cycles := [] }

/-- Whether the walk is done with a mixin. -/
def isDone (walk : Traversal) (id : Nat) : Bool := walk.order.contains id

/-- Notes a cycle. It is reported if some mixin on it was not known to lie on one. -/
def close (walk : Traversal) (cycle : InclusionPath) : Traversal :=
  let ids := cycle.map Prod.fst
  { walk with
    cyclic := walk.cyclic ++ ids
    cycles := if ids.all walk.cyclic.contains then walk.cycles else walk.cycles ++ [cycle] }

/-- Notes that all inclusions of a mixin are visited. -/
def leave (walk : Traversal) (id : Nat) : Traversal :=
  { walk with order := walk.order ++ [id] }

end Traversal

/-- Visits a mixin and all that it includes. `path` leads from the start of the walk to the mixin,
and an inclusion of a mixin on it closes a cycle. `depth` bounds how far inclusions are followed;
the mixins on a path differ, so their number is enough. -/
def visit (edges : Nat → List (Nat × Site)) :
    Nat → InclusionPath → Nat → Traversal → Traversal
  | 0, _, _, walk => walk
  | depth + 1, path, id, walk =>
    let visited := (edges id).foldl
      (fun (walk : Traversal) (step : Nat × Site) =>
        let path := path ++ [(id, step.2)]
        if walk.isDone step.1 then walk
        else if path.any fun place => place.1 = step.1 then
          walk.close (path.dropWhile fun place => place.1 ≠ step.1)
        else visit edges depth path step.1 walk)
      walk
    visited.leave id

/-- Visits each of the mixins that the walk has not come to before. -/
def traverse (edges : Nat → List (Nat × Site)) (depth : Nat) (ids : List Nat) : Traversal :=
  ids.foldl
    (fun walk id => if walk.isDone id then walk else visit edges depth [] id walk)
    Traversal.start

end ClassFactory
