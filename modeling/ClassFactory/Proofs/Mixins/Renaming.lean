/-
Module: ClassFactory.Proofs.Mixins.Renaming
Purpose: Renaming the calls and places of a surface, and of everything that it is made of. Each write
  to an assembly looks at the numbers of calls only to tell them apart, and at places not at all, so
  it may come before a renaming as well as after.
Main exports: Renaming, Surface.rename, Resolution.rename, Assembly.rename, Assembly.rename_note,
  Assembly.rename_set, Assembly.rename_setStatic, Assembly.rename_chain
-/
import ClassFactory.Mixins.Resolution
import ClassFactory.Proofs.Keyed
import Mathlib.Logic.Function.Basic

namespace ClassFactory

/-! ## Renaming -/

/-- New numbers for calls, no two of which fall together, and new places. -/
structure Renaming where
  ids : Nat → Nat
  sites : Site → Site
  injective : Function.Injective ids

/-- New numbers tell calls apart as the old ones did. -/
@[simp]
theorem Renaming.ids_eq_iff (naming : Renaming) {one other : Nat} :
    naming.ids one = naming.ids other ↔ one = other :=
  naming.injective.eq_iff

section Rename

variable (naming : Renaming)

/-- The same definition of the renamed call. -/
def DefinitionId.rename (definition : DefinitionId) : DefinitionId :=
  { definition with owner := naming.ids definition.owner }

/-- What a member is, with the place of its function renamed. -/
def MemberKind.rename : MemberKind → MemberKind
  | .method signature arity functionSite =>
    .method signature arity (naming.sites functionSite)
  | .declared signature => .declared signature
  | .value type => .value type

/-- A member of a specification as the renamed call has it. -/
def SpecMember.rename (member : SpecMember) : SpecMember :=
  { member with
    definition := member.definition.rename naming
    site := naming.sites member.site
    kind := member.kind.rename naming }

/-- A static of a specification as the renamed call has it. -/
def StaticDef.rename (entry : StaticDef) : StaticDef :=
  { entry with
    definition := entry.definition.rename naming
    site := naming.sites entry.site }

/-- A definition in a surface, with the call that it comes from and its places renamed. -/
def MemberDefinition.rename (definition : MemberDefinition) : MemberDefinition :=
  { definition with
    definition := definition.definition.rename naming
    origin := naming.ids definition.origin
    site := naming.sites definition.site
    kind := definition.kind.rename naming }

/-- A member of a surface with all its definitions renamed; its name stays. -/
def SurfaceMember.rename (member : SurfaceMember) : SurfaceMember :=
  { member with definitions := member.definitions.map (MemberDefinition.rename naming) }

/-- A static of a surface, with the call that it comes from and its place renamed. -/
def StaticMember.rename (entry : StaticMember) : StaticMember :=
  { entry with
    definition := entry.definition.rename naming
    origin := naming.ids entry.origin
    site := naming.sites entry.site }

/-- An ambiguity between the renamed mixins. The name that they contend for stays. -/
def Ambiguity.rename (ambiguity : Ambiguity) : Ambiguity :=
  { ambiguity with
    origins := ambiguity.origins.map fun origin =>
      (naming.ids origin.1, naming.sites origin.2) }

/-- A conflict between the renamed definitions. -/
def HookConflict.rename (conflict : HookConflict) : HookConflict :=
  { conflict with
    earlier := conflict.earlier.rename naming
    later := conflict.later.rename naming }

/-- A surface with the numbers and places of everything in it renamed. -/
def Surface.rename (surface : Surface) : Surface :=
  { members := surface.members.mapValues (SurfaceMember.rename naming)
    statics := surface.statics.mapValues (StaticMember.rename naming)
    ambiguities := surface.ambiguities.map (Ambiguity.rename naming)
    includes := surface.includes.map naming.ids
    pureRender := surface.pureRender }

/-- What became of a call, renamed: of the same kind, and with the same surface up to renaming. -/
def Resolution.rename : Resolution → Resolution
  | .resolved surface => .resolved (surface.rename naming)
  | .leftOut => .leftOut
  | .failed => .failed

/-- An assembly with the numbers and places of everything in it renamed. -/
def Assembly.rename (assembly : Assembly) : Assembly :=
  { surface := assembly.surface.rename naming
    pending := assembly.pending.map (Ambiguity.rename naming)
    conflicts := assembly.conflicts.map (HookConflict.rename naming) }

end Rename

/-! ## Definitions -/

section Definitions

variable (naming : Renaming)

/-- Renaming tells definitions apart. -/
@[simp]
theorem DefinitionId.rename_inj {one other : DefinitionId} :
    one.rename naming = other.rename naming ↔ one = other := by
  obtain ⟨owner, index⟩ := one
  obtain ⟨otherOwner, otherIndex⟩ := other
  simp [rename]

@[simp]
theorem MemberKind.rename_signature? (kind : MemberKind) :
    (kind.rename naming).signature? = kind.signature? := by
  cases kind <;> rfl

@[simp]
theorem MemberKind.rename_isDeclared (kind : MemberKind) :
    (kind.rename naming).isDeclared = kind.isDeclared := by
  cases kind <;> rfl

/-- A signature may be filled in before the renaming as well as after. -/
theorem MemberKind.rename_fillSignature (kind : MemberKind) (signature : Option Signature) :
    (kind.fillSignature signature).rename naming =
      (kind.rename naming).fillSignature signature := by
  cases kind with
  | method own => cases own <;> rfl
  | declared => rfl
  | value => rfl

@[simp]
theorem MemberDefinition.rename_signature? (definition : MemberDefinition) :
    (definition.rename naming).signature? = definition.signature? :=
  MemberKind.rename_signature? naming definition.kind

@[simp]
theorem MemberDefinition.rename_isDeclared (definition : MemberDefinition) :
    (definition.rename naming).isDeclared = definition.isDeclared :=
  MemberKind.rename_isDeclared naming definition.kind

/-- A signature may be inherited before the renaming as well as after. -/
@[simp]
theorem MemberDefinition.rename_inherit (definition declared : MemberDefinition) :
    (definition.inherit declared).rename naming =
      (definition.rename naming).inherit (declared.rename naming) := by
  unfold inherit
  rw [rename_signature?]
  simp [rename, MemberKind.rename_fillSignature]

theorem MemberDefinition.rename_ofMember (member : SpecMember) :
    (ofMember member).rename naming = ofMember (member.rename naming) :=
  rfl

/-- Members stand under their names in the renamed surface. -/
@[simp]
theorem Surface.rename_member? (surface : Surface) (name : String) :
    (surface.rename naming).member? name =
      (surface.member? name).map (SurfaceMember.rename naming) :=
  Keyed.get?_mapValues _ _ _

@[simp]
theorem SurfaceMember.rename_primary? (member : SurfaceMember) :
    (member.rename naming).primary? =
      member.primary?.map (MemberDefinition.rename naming) := by
  simp [rename, primary?]

/-- Under each name the renamed surface reaches the renamed definition. -/
@[simp]
theorem Surface.rename_primary? (surface : Surface) (name : String) :
    (surface.rename naming).primary? name =
      (surface.primary? name).map (MemberDefinition.rename naming) := by
  rw [primary?, rename_member?, primary?]
  cases surface.member? name with
  | none => rfl
  | some member => exact SurfaceMember.rename_primary? naming member

/-- The chain of a hook is renamed link by link. -/
theorem Surface.rename_hookChain (surface : Surface) (hook : Hook) :
    (surface.rename naming).hookChain hook =
      (surface.hookChain hook).map (MemberDefinition.rename naming) := by
  rw [hookChain, rename_member?, hookChain]
  cases surface.member? hook.name <;> rfl

/-- What failed has no other renamed version, and nothing else has that one. -/
@[simp]
theorem Resolution.rename_eq_failed_iff {resolution : Resolution} :
    resolution.rename naming = .failed ↔ resolution = .failed := by
  cases resolution <;> simp [rename]

@[simp]
theorem Resolution.rename_eq_leftOut_iff {resolution : Resolution} :
    resolution.rename naming = .leftOut ↔ resolution = .leftOut := by
  cases resolution <;> simp [rename]

end Definitions

namespace Assembly

/-! ## Elementary operations -/

section Elementary

variable (naming : Renaming) (assembly : Assembly)

@[simp]
theorem rename_surface : (assembly.rename naming).surface = assembly.surface.rename naming :=
  rfl

/-- Ambiguities are found under their names in the renamed assembly. -/
@[simp]
theorem rename_ambiguity? (name : String) (isStatic : Bool) :
    (assembly.rename naming).ambiguity? name isStatic =
      (assembly.ambiguity? name isStatic).map (Ambiguity.rename naming) := by
  have same : concerns name isStatic ∘ Ambiguity.rename naming = concerns name isStatic := rfl
  rw [ambiguity?, rename, List.find?_map, same]
  rfl

/-- Whether an origin is noted already is told by numbers alone. -/
theorem rename_addOrigin (ambiguity : Ambiguity) (origin : Nat) (site : Site) :
    (addOrigin ambiguity origin site).rename naming =
      addOrigin (ambiguity.rename naming) (naming.ids origin) (naming.sites site) := by
  have known : ((ambiguity.rename naming).origins.any fun o => o.1 = naming.ids origin) =
      ambiguity.origins.any fun o => o.1 = origin := by
    simp [Ambiguity.rename, List.any_map, Function.comp_def]
  unfold addOrigin
  rw [known]
  split
  · rfl
  · simp [Ambiguity.rename]

/-- Noting an origin may come before the renaming as well as after. -/
theorem rename_note (name : String) (isStatic : Bool) (origin : Nat) (site : Site) :
    (assembly.note name isStatic origin site).rename naming =
      (assembly.rename naming).note name isStatic (naming.ids origin)
        (naming.sites site) := by
  unfold note
  rw [rename_ambiguity?]
  cases assembly.ambiguity? name isStatic with
  | none => simp [rename, Ambiguity.rename]
  | some ambiguity =>
      simp only [Option.map_some, rename, List.map_map, mk.injEq, true_and, and_true]
      refine List.map_congr_left fun a _ => ?_
      have same : concerns name isStatic (a.rename naming) = concerns name isStatic a := rfl
      simp only [Function.comp_apply, same]
      split
      · exact rename_addOrigin naming a origin site
      · rfl

/-- Settling a name may come before the renaming as well as after. -/
theorem rename_settle (name : String) (isStatic : Bool) :
    (assembly.settle name isStatic).rename naming =
      (assembly.rename naming).settle name isStatic := by
  have same : (fun a => !concerns name isStatic a) ∘ Ambiguity.rename naming =
      fun a => !concerns name isStatic a := rfl
  simp [settle, rename, List.filter_map, same]

/-- A member may be put in place before the renaming as well as after. -/
theorem rename_set (name : String) (definition : MemberDefinition) :
    (assembly.set name definition).rename naming =
      (assembly.rename naming).set name (definition.rename naming) := by
  simp [set, rename, Surface.rename, SurfaceMember.rename]

/-- A static may be put in place before the renaming as well as after. -/
theorem rename_setStatic (entry : StaticMember) :
    (assembly.setStatic entry).rename naming =
      (assembly.rename naming).setStatic (entry.rename naming) := by
  simp [setStatic, rename, Surface.rename, StaticMember.rename]

/-- Conflicts are told by signatures, which a renaming leaves alone. -/
theorem rename_conflicting? (chain : List MemberDefinition) (definition : MemberDefinition) :
    conflicting? (chain.map (MemberDefinition.rename naming)) (definition.rename naming) =
      (conflicting? chain definition).map (MemberDefinition.rename naming) := by
  unfold conflicting?
  rw [MemberDefinition.rename_signature?]
  cases definition.signature? with
  | none => rfl
  | some signature =>
      have same : (fun earlier : MemberDefinition =>
          earlier.signature?.any fun other => !other.same signature) ∘
            MemberDefinition.rename naming =
          fun earlier => earlier.signature?.any fun other => !other.same signature := by
        funext earlier
        rw [Function.comp_apply, MemberDefinition.rename_signature?]
      rw [Option.bind_some, Option.bind_some, List.find?_map, same]

/-- One conflict for each hook is kept before the renaming and after. -/
theorem rename_addConflict (conflicts : List HookConflict) (name : String)
    (earlier later : MemberDefinition) :
    (addConflict conflicts name earlier later).map (HookConflict.rename naming) =
      addConflict (conflicts.map (HookConflict.rename naming)) name (earlier.rename naming)
        (later.rename naming) := by
  have known : ((conflicts.map (HookConflict.rename naming)).any fun c => c.name = name) =
      conflicts.any fun c => c.name = name := by
    rw [List.any_map]
    rfl
  unfold addConflict
  rw [known]
  split
  · rfl
  · simp [HookConflict.rename]

/-- A definition may be linked before the renaming as well as after. -/
theorem rename_chain (name : String) (hook : Hook) (definition : MemberDefinition) :
    (assembly.chain name hook definition).rename naming =
      (assembly.rename naming).chain name hook (definition.rename naming) := by
  have member : ((assembly.rename naming).surface.member? name).getD
      { name := name, hook := some hook, definitions := [] } =
        ((assembly.surface.member? name).getD
          { name := name, hook := some hook, definitions := [] }).rename naming := by
    rw [rename_surface, Surface.rename_member?]
    cases assembly.surface.member? name <;> rfl
  unfold chain
  rw [member]
  generalize (assembly.surface.member? name).getD
    { name := name, hook := some hook, definitions := [] } = member
  have known : ((member.rename naming).definitions.any fun d =>
      d.definition = (definition.rename naming).definition) =
        member.definitions.any fun d => d.definition = definition.definition := by
    simp [SurfaceMember.rename, MemberDefinition.rename, List.any_map, Function.comp_def]
  have conflict : conflicting? (member.rename naming).definitions (definition.rename naming) =
      (conflicting? member.definitions definition).map (MemberDefinition.rename naming) :=
    rename_conflicting? naming member.definitions definition
  dsimp only
  rw [known, conflict]
  split
  · rfl
  · cases conflicting? member.definitions definition with
    | none => simp [rename, Surface.rename, SurfaceMember.rename]
    | some earlier =>
        simp [rename, Surface.rename, SurfaceMember.rename, rename_addConflict]

end Elementary

end Assembly

end ClassFactory
