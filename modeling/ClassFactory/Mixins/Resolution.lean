/-
Module: ClassFactory.Mixins.Resolution
Purpose: Resolving every factory call to its merged surface: mixins in dependency order, then
  components. A call fails with a finding of its own or because a mixin it includes failed, and it
  is left out without a finding if it depends on a call that was left out.
Main exports: Resolution, Resolutions, Resolved, resolve
-/
import ClassFactory.Mixins.Assembly
import ClassFactory.Mixins.Dependency
import ClassFactory.Types.Text

namespace ClassFactory

/-- What became of a call. -/
inductive Resolution where
  | resolved (surface : Surface)
  /-- The call depends on one that was left out of the analysis. -/
  | leftOut
  /-- Something is wrong with the call or with a mixin it includes. -/
  | failed
deriving Inhabited

/-- What became of the calls resolved so far, by their numbers. -/
abbrev Resolutions := List (Nat × Resolution)

namespace Resolutions

/-- What became of a call; `none` if it is not resolved yet. -/
def get? : Resolutions → Nat → Option Resolution
  | [], _ => none
  | (key, resolution) :: rest, id => if key = id then some resolution else get? rest id

/-- The surface of a call that resolved. -/
def surface? (resolutions : Resolutions) (id : Nat) : Option Surface :=
  match resolutions.get? id with
  | some (.resolved surface) => some surface
  | _ => none

/-- Whether the surface of the first mixin includes the second. -/
def includes (resolutions : Resolutions) : Includes := fun outer inner =>
  (resolutions.surface? outer).any fun surface => surface.includes.contains inner

end Resolutions

/-- What became of every call. -/
structure Resolved where
  resolutions : Resolutions
  /-- The mixins in the order in which they were merged. -/
  mixinOrder : List Nat
  diagnostics : List Diagnostic
deriving Inhabited

/-- What became of a call; one that was never reached failed. -/
def Resolved.get (resolved : Resolved) (id : Nat) : Resolution :=
  (resolved.resolutions.get? id).getD .failed

/-- The surface of a call that resolved. -/
def Resolved.surface? (resolved : Resolved) (id : Nat) : Option Surface :=
  resolved.resolutions.surface? id

/-- The name of a call. -/
def Registry.nameOf (registry : Registry) (id : Nat) : String :=
  ((registry.get? id).map FactoryCall.name).getD ""

/-- A name as messages quote it. -/
def quoted (name : String) : String := "`" ++ name ++ "`"

/-- The finding for a cycle. -/
def cycleProblem (registry : Registry) (cycle : InclusionPath) : Diagnostic :=
  let names := cycle.map fun step => registry.nameOf step.1
  let closing := ((cycle.getLast?).map Prod.snd).getD default
  cycle.dropLast.foldl
    (fun diagnostic step =>
      diagnostic.withRelated
        (quoted (registry.nameOf step.1) ++ " includes the next mixin here") step.2)
    (Diagnostic.error .cyclicMixin
      ("cyclic mixin inclusion: " ++ Text.joinWith " -> " (names ++ names.head?.toList)) closing)

/-- What the dependencies of a call come to, given what became of the mixins. -/
structure Inclusions where
  /-- The mixins that resolved, with their surfaces. -/
  merged : List (Nat × Surface)
  /-- The mixins that failed, with the entries that name them. -/
  unavailable : List (Nat × Site)
  /-- Whether something was left out of the analysis. -/
  incomplete : Bool
  pureRender : Bool
deriving Inhabited

namespace Inclusions

/-- No dependencies. -/
def empty : Inclusions :=
  { merged := [], unavailable := [], incomplete := false, pureRender := false }

/-- Adds one dependency. -/
def add (resolutions : Resolutions) (inclusions : Inclusions) : Dependency → Inclusions
  | .mixin id site =>
    match resolutions.get? id with
    | some (.resolved surface) =>
      { inclusions with merged := inclusions.merged ++ [(id, surface)] }
    | some .leftOut => { inclusions with incomplete := true }
    | some .failed => { inclusions with unavailable := inclusions.unavailable ++ [(id, site)] }
    | none => { inclusions with unavailable := inclusions.unavailable ++ [(id, site)] }
  | .pureRender => { inclusions with pureRender := true }
  | .leftOut => { inclusions with incomplete := true }
  | .component _ => inclusions
  | .unknown => inclusions

/-- What some dependencies come to. -/
def ofDependencies (resolutions : Resolutions) (dependencies : List Dependency) : Inclusions :=
  dependencies.foldl (add resolutions) empty

end Inclusions

/-- The finding for a call that includes failed mixins. -/
def unavailableProblem (registry : Registry) (call : FactoryCall)
    (unavailable : List (Nat × Site)) : Diagnostic :=
  let names := unavailable.map fun entry => quoted (registry.nameOf entry.1)
  unavailable.foldl (fun diagnostic entry => diagnostic.withRelated "included here" entry.2)
    (Diagnostic.error .mixinSurfaceUnavailable
      (call.kind.label ++ " " ++ quoted call.name ++ " cannot be checked because mixin " ++
        Text.joinWith ", " names ++ " failed to resolve")
      call.declSite)

/-- The text of the signature of a definition, empty without one. -/
def signatureText (definition : MemberDefinition) : String :=
  (definition.signature?.map Signature.text).getD ""

/-- The finding for two definitions of a hook that declare different signatures. -/
def hookProblem (registry : Registry) (conflict : HookConflict) : Diagnostic :=
  (Diagnostic.error .hookSignatureConflict
    (quoted conflict.name ++ " is declared as " ++ signatureText conflict.later ++
      " here but as " ++ signatureText conflict.earlier ++ " by " ++
      quoted (registry.nameOf conflict.earlier.origin))
    conflict.later.site).withRelated "conflicting declaration" conflict.earlier.site

/-- The finding for an own `render` with parameters. -/
def renderArityProblem (call : FactoryCall) : List Diagnostic :=
  match call.spec.member? "render" with
  | some render =>
    match render.kind with
    | .method _ arity _ =>
      if 0 < arity then
        [Diagnostic.error .renderArity
          ("render takes no parameters, but " ++ quoted call.name ++ " declares " ++
            toString arity)
          render.site]
      else []
    | _ => []
  | none => []

/-- The finding for a `shouldComponentUpdate` beside a library mixin that implements it. -/
def pureRenderProblem (surface : Surface) : List Diagnostic :=
  if surface.pureRender then
    match surface.primary? "shouldComponentUpdate" with
    | some definition =>
      [Diagnostic.error .pureRenderMixinOverride
        "shouldComponentUpdate must not be defined alongside PureRenderMixin" definition.site]
    | none => []
  else []

/-- The finding for a name that stays ambiguous. -/
def ambiguityProblem (registry : Registry) (call : FactoryCall) (ambiguity : Ambiguity) :
    Diagnostic :=
  let names := ambiguity.origins.map fun origin => quoted (registry.nameOf origin.1)
  let (code, what) : DiagnosticCode × String :=
    if ambiguity.isStatic then (.ambiguousMixinStatic, "static")
    else (.ambiguousMixinMethod, "method")
  ambiguity.origins.foldl
    (fun diagnostic origin =>
      diagnostic.withRelated ("defined by " ++ quoted (registry.nameOf origin.1)) origin.2)
    (Diagnostic.error code
      (what ++ " " ++ quoted ambiguity.name ++ " of component " ++ quoted call.name ++
        " is defined by sibling mixins " ++ Text.joinWith " and " names ++
        "; define it on the component to choose")
      call.declSite)

/-- Whether the call itself defines `render`. -/
def definesRender (call : FactoryCall) : Bool :=
  (call.spec.member? "render").any fun member => !member.kind.isDeclared

/-- The finding for a component that receives no `render`, or more than one, from its mixins. -/
def renderProblem (registry : Registry) (call : FactoryCall) (surface : Surface) :
    List Diagnostic :=
  if definesRender call then []
  else
    match surface.hookChain .render with
    | [] =>
      [Diagnostic.error .missingRender
        ("component " ++ quoted call.name ++
          " has no render and none of its mixins supplies one")
        call.declSite]
    | [_] => []
    | renders =>
      let names := renders.map fun render => quoted (registry.nameOf render.origin)
      [renders.foldl
        (fun diagnostic render => diagnostic.withRelated "render defined here" render.site)
        (Diagnostic.error .renderConflict
          ("component " ++ quoted call.name ++ " receives render from several mixins: " ++
            Text.joinWith ", " names)
          call.declSite)]

/-- Everything that is wrong with a merged call. -/
def assemblyProblems (registry : Registry) (call : FactoryCall) (assembly : Assembly) :
    List Diagnostic :=
  assembly.conflicts.map (hookProblem registry) ++ renderArityProblem call ++
    pureRenderProblem assembly.surface ++
    (if call.isComponent then
      assembly.pending.map (ambiguityProblem registry call) ++
        renderProblem registry call assembly.surface
    else [])

/-- The surface that a call merged without problems exposes. A mixin leaves its ambiguities to
whoever includes it. -/
def exposed (call : FactoryCall) (assembly : Assembly) : Surface :=
  if call.isComponent then assembly.surface
  else { assembly.surface with ambiguities := assembly.pending }

/-- A call merged with the mixins it includes. -/
def assemble (resolutions : Resolutions) (call : FactoryCall) (inclusions : Inclusions) :
    Assembly :=
  (inclusions.merged.foldl (fun a entry => a.addMixin resolutions.includes entry.1 entry.2)
    (Assembly.empty inclusions.pureRender)).own call.spec

/-- Merges a call whose entries all name mixins. Failed mixins are reported first; after that, a call
that depends on something left out is left out itself. -/
def flatten (registry : Registry) (options : Options) (resolutions : Resolutions)
    (call : FactoryCall) : Resolution × List Diagnostic :=
  let inclusions := Inclusions.ofDependencies resolutions (dependencies registry options call)
  if !inclusions.unavailable.isEmpty then
    (.failed, [unavailableProblem registry call inclusions.unavailable])
  else if inclusions.incomplete then (.leftOut, [])
  else
    let assembly := assemble resolutions call inclusions
    match assemblyProblems registry call assembly with
    | [] => (.resolved (exposed call assembly), [])
    | problems => (.failed, problems)

/-- Resolves one call after the mixins it includes. -/
def resolveCall (registry : Registry) (options : Options) (cyclic : List Nat)
    (state : Resolutions × List Diagnostic) (call : FactoryCall) :
    Resolutions × List Diagnostic :=
  if cyclic.contains call.id || hasBadEntry registry options call then
    (state.1 ++ [(call.id, .failed)], state.2)
  else
    let (resolution, problems) := flatten registry options state.1 call
    (state.1 ++ [(call.id, resolution)], state.2 ++ problems)

/-- The walk over the mixins of a registry. -/
def mixinWalk (registry : Registry) (options : Options) : Traversal :=
  traverse (edges registry options) (registry.calls.length + 1)
    (registry.mixins.map FactoryCall.id)

/-- Resolves every call of a registry. -/
def resolve (registry : Registry) (options : Options) : Resolved :=
  let walk := mixinWalk registry options
  let entryProblems := registry.calls.flatMap (entryProblems registry options)
  let cycleProblems := walk.cycles.map (cycleProblem registry)
  let mixins := walk.order.filterMap registry.get?
  let (resolutions, problems) :=
    (mixins ++ registry.components).foldl (resolveCall registry options walk.cyclic) ([], [])
  { resolutions := resolutions, mixinOrder := walk.order,
    diagnostics := entryProblems ++ cycleProblems ++ problems }

end ClassFactory
