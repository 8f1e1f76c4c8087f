/-
Module: ClassFactory.Proofs.Mixins.Mirroring
Purpose: Merging a mixin and adding own definitions mirror themselves under a renaming. Renaming all
  that goes in renames what comes out, as far as it is known alike on both sides what the calls that
  take part include.
Main exports: Surface.Within, Includes.Agree, Assembly.within_addMixin, Assembly.rename_addMixin,
  Assembly.rename_own
-/
import ClassFactory.Proofs.Mixins.Renaming
import ClassFactory.Proofs.Mixins.Writes
import Mathlib.Data.Set.Defs

namespace ClassFactory

/-! ## Scopes -/

/-- All definitions in the surface are by calls of the scope. -/
structure Surface.Within (scope : Set Nat) (surface : Surface) : Prop where
  members : ∀ entry ∈ surface.members.entries,
    ∀ definition ∈ entry.2.definitions, definition.origin ∈ scope
  statics : ∀ entry ∈ surface.statics.entries, entry.2.origin ∈ scope

/-- It is known alike on both sides of a renaming what the calls of the scope include. -/
def Includes.Agree (naming : Renaming) (scope : Set Nat) (includes others : Includes) : Prop :=
  ∀ outer ∈ scope, ∀ inner, others (naming.ids outer) (naming.ids inner) = includes outer inner

namespace Surface.Within

variable {scope : Set Nat} {surface : Surface} {name : String}

/-- What a call reaches under a name is by a call of the scope. -/
theorem definition (within : surface.Within scope) {definition : MemberDefinition}
    (held : surface.primary? name = some definition) : definition.origin ∈ scope := by
  obtain ⟨member, found, first⟩ := Option.bind_eq_some_iff.mp held
  exact within.members _ (Keyed.mem_of_lookup found) definition (List.mem_of_mem_head? first)

/-- A static that stands in a surface is by a call of the scope. -/
theorem static (within : surface.Within scope) {entry : StaticMember}
    (held : surface.statics.get? name = some entry) : entry.origin ∈ scope :=
  within.statics _ (Keyed.mem_of_lookup held)

theorem mono (within : surface.Within scope) {wider : Set Nat} (part : scope ⊆ wider) :
    surface.Within wider :=
  ⟨fun entry mem definition listed => part (within.members entry mem definition listed),
    fun entry mem => part (within.statics entry mem)⟩

end Surface.Within

namespace Assembly

section Scope

variable {scope : Set Nat} {assembly : Assembly} {includes : Includes} {name : String}

theorem within_note (within : assembly.surface.Within scope) (name : String) (isStatic : Bool)
    (origin : Nat) (site : Site) :
    (assembly.note name isStatic origin site).surface.Within scope := by
  rwa [note_surface]

/-- A definition of the scope may take the place of any other. -/
theorem within_set (within : assembly.surface.Within scope) (name : String)
    {definition : MemberDefinition} (mem : definition.origin ∈ scope) :
    (assembly.set name definition).surface.Within scope where
  members := by
    intro entry listed
    rcases Keyed.mem_write listed with rfl | old
    · intro other only
      rwa [List.mem_singleton.mp only]
    · exact within.members entry old
  statics := within.statics

/-- A static of the scope may take the place of any other. -/
theorem within_setStatic (within : assembly.surface.Within scope) {entry : StaticMember}
    (mem : entry.origin ∈ scope) : (assembly.setStatic entry).surface.Within scope where
  members := within.members
  statics := by
    intro other listed
    rcases Keyed.mem_write listed with rfl | old
    · exact mem
    · exact within.statics other old

/-- A definition of the scope may be linked. -/
theorem within_chain (within : assembly.surface.Within scope) (name : String) (hook : Hook)
    {definition : MemberDefinition} (mem : definition.origin ∈ scope) :
    (assembly.chain name hook definition).surface.Within scope := by
  unfold chain
  dsimp only
  split
  · exact within
  · refine ⟨fun entry listed => ?_, within.statics⟩
    rcases Keyed.mem_write listed with rfl | old
    · intro other linked
      rcases List.mem_append.mp linked with earlier | here
      · cases found : assembly.surface.member? name with
        | none => simp [found] at earlier
        | some member =>
            rw [found] at earlier
            exact within.members _ (Keyed.mem_of_lookup found) other earlier
      · rwa [List.mem_singleton.mp here]
    · exact within.members entry old

/-- Whichever of two definitions of the scope wins, the surface stays within it. -/
theorem within_contend (within : assembly.surface.Within scope) (existing : MemberDefinition)
    {incoming : MemberDefinition} (mem : incoming.origin ∈ scope) :
    (assembly.contend includes name existing incoming).surface.Within scope := by
  unfold contend
  split
  · refine within_set ?_ name mem
    split <;> exact within
  · split
    · exact within
    · exact within_set (within_note (within_note within _ _ _ _) _ _ _ _) name mem

/-- Merging a definition of the scope stays within it. -/
theorem within_merge (within : assembly.surface.Within scope) {incoming : MemberDefinition}
    (mem : incoming.origin ∈ scope) :
    (assembly.merge includes name incoming).surface.Within scope := by
  unfold merge
  split
  · exact within_set within name mem
  · rename_i existing held
    split
    · exact within
    · split
      · split
        · exact within
        · have origin : existing.origin ∈ scope := within.definition held
          exact within_set within name origin
      · split
        · exact within_set within name mem
        · exact within_contend within existing mem

theorem within_mergeMember (within : assembly.surface.Within scope) {member : SurfaceMember}
    (mem : ∀ definition ∈ member.definitions, definition.origin ∈ scope) :
    (assembly.mergeMember includes name member).surface.Within scope := by
  unfold mergeMember
  split
  · rename_i hook _
    refine List.foldlRecOn (motive := fun a : Assembly => a.surface.Within scope)
      member.definitions _ within fun state held definition listed => ?_
    exact within_chain held name hook (mem definition listed)
  · split
    · rename_i definition first
      exact within_merge within (mem definition (List.mem_of_mem_head? first))
    · exact within

theorem within_mergeStatic (within : assembly.surface.Within scope) {incoming : StaticMember}
    (mem : incoming.origin ∈ scope) :
    (assembly.mergeStatic includes incoming).surface.Within scope := by
  unfold mergeStatic
  split
  · exact within_setStatic within mem
  · split
    · exact within
    · split
      · exact within_setStatic within mem
      · exact within_setStatic (within_note (within_note within _ _ _ _) _ _ _ _) mem

end Scope

/-! ## Merging -/

section Runs

variable {σ τ ι κ : Type} (state : σ → τ) (input : ι → κ)

/-- Two runs that mirror each other step by step mirror each other in the end. -/
theorem foldl_mirrors {step : σ → ι → σ} {stepped : τ → κ → τ} (each : ∀ s item, state (step s item) = stepped (state s) (input item))
    (items : List ι) (start : σ) :
    state (items.foldl step start) = (items.map input).foldl stepped (state start) := by
  rw [List.foldl_map]
  exact (List.foldl_hom state fun s item => (each s item).symm).symm

/-- Where the steps mirror each other only as long as something holds, which they keep. -/
theorem foldl_mirrors_within (step : σ → ι → σ) (stepped : τ → κ → τ) (holds : σ → Prop) {items : List ι} {start : σ}
    (keeps : ∀ s, ∀ item ∈ items, holds s → holds (step s item))
    (each : ∀ s, ∀ item ∈ items, holds s → state (step s item) = stepped (state s) (input item))
    (first : holds start) :
    state (items.foldl step start) = (items.map input).foldl stepped (state start) := by
  induction items generalizing start with
  | nil => rfl
  | cons item rest ih =>
      rw [List.foldl_cons, List.map_cons, List.foldl_cons,
        ← each start item List.mem_cons_self first]
      exact ih (fun s later mem => keeps s later (List.mem_cons_of_mem _ mem))
        (fun s later mem => each s later (List.mem_cons_of_mem _ mem))
        (keeps start item List.mem_cons_self first)

end Runs

section Merging

variable {naming : Renaming} {scope : Set Nat} {includes others : Includes} {assembly : Assembly}
  {name : String}

/-- Whether a newcomer settles an ambiguity is the same before and after the renaming. -/
theorem rename_settles (agree : Includes.Agree naming scope includes others) {mixin : Nat}
    (mem : mixin ∈ scope) :
    (assembly.rename naming).settles others name (naming.ids mixin) =
      assembly.settles includes name mixin := by
  unfold settles
  rw [rename_ambiguity?]
  cases assembly.ambiguity? name false with
  | none => rfl
  | some ambiguity => simp [Ambiguity.rename, List.all_map, Function.comp_def, agree mixin mem]

/-- Two definitions contend alike before and after the renaming. -/
theorem rename_contend (agree : Includes.Agree naming scope includes others)
    {existing incoming : MemberDefinition} (old : existing.origin ∈ scope)
    (new : incoming.origin ∈ scope) :
    (assembly.contend includes name existing incoming).rename naming =
      (assembly.rename naming).contend others name (existing.rename naming)
        (incoming.rename naming) := by
  have newAbove : others (incoming.rename naming).origin (existing.rename naming).origin =
      includes incoming.origin existing.origin := agree _ new _
  have oldAbove : others (existing.rename naming).origin (incoming.rename naming).origin =
      includes existing.origin incoming.origin := agree _ old _
  have settled : (assembly.rename naming).settles others name (incoming.rename naming).origin =
      assembly.settles includes name incoming.origin := rename_settles agree new
  unfold contend
  rw [newAbove, oldAbove, settled]
  dsimp only
  split
  · rw [rename_set]
    split
    · rw [rename_settle]
    · rfl
  · split
    · rfl
    · rw [rename_set, rename_note, rename_note]
      rfl

/-- Merging a definition mirrors itself under a renaming. -/
theorem rename_merge (agree : Includes.Agree naming scope includes others)
    (within : assembly.surface.Within scope) {incoming : MemberDefinition}
    (new : incoming.origin ∈ scope) :
    (assembly.merge includes name incoming).rename naming =
      (assembly.rename naming).merge others name (incoming.rename naming) := by
  unfold merge
  rw [rename_surface, Surface.rename_primary?]
  cases held : assembly.surface.primary? name with
  | none => exact rename_set naming assembly name incoming
  | some existing =>
      have same : (existing.rename naming).definition = (incoming.rename naming).definition ↔
          existing.definition = incoming.definition := DefinitionId.rename_inj naming
      simp only [Option.map_some, same, MemberDefinition.rename_isDeclared]
      split
      · rfl
      · split
        · split
          · rfl
          · rw [rename_set, MemberDefinition.rename_inherit]
        · split
          · rw [rename_set, MemberDefinition.rename_inherit]
          · exact rename_contend agree (within.definition held) new

/-- Merging a static mirrors itself under a renaming. -/
theorem rename_mergeStatic (agree : Includes.Agree naming scope includes others)
    (within : assembly.surface.Within scope) {incoming : StaticMember}
    (new : incoming.origin ∈ scope) :
    (assembly.mergeStatic includes incoming).rename naming =
      (assembly.rename naming).mergeStatic others (incoming.rename naming) := by
  have looked : (assembly.rename naming).surface.statics.get? (incoming.rename naming).name =
      (assembly.surface.statics.get? incoming.name).map (StaticMember.rename naming) :=
    Keyed.get?_mapValues _ _ _
  unfold mergeStatic
  rw [looked]
  cases held : assembly.surface.statics.get? incoming.name with
  | none => exact rename_setStatic naming assembly incoming
  | some existing =>
      have same : (existing.rename naming).definition = (incoming.rename naming).definition ↔
          existing.definition = incoming.definition := DefinitionId.rename_inj naming
      have oldAbove : others (existing.rename naming).origin (incoming.rename naming).origin =
          includes existing.origin incoming.origin := agree _ (within.static held) _
      have newAbove : others (incoming.rename naming).origin (existing.rename naming).origin =
          includes incoming.origin existing.origin := agree _ new _
      simp only [Option.map_some, same, oldAbove, newAbove]
      split
      · rfl
      · split
        · exact rename_setStatic naming assembly incoming
        · rw [rename_setStatic, rename_note, rename_note]
          rfl

/-- Merging a member mirrors itself under a renaming, for hooks and ordinary members alike. -/
theorem rename_mergeMember (agree : Includes.Agree naming scope includes others)
    (within : assembly.surface.Within scope) {member : SurfaceMember}
    (new : ∀ definition ∈ member.definitions, definition.origin ∈ scope) :
    (assembly.mergeMember includes name member).rename naming =
      (assembly.rename naming).mergeMember others name (member.rename naming) := by
  have kind : (member.rename naming).hook = member.hook := rfl
  unfold mergeMember
  rw [kind, SurfaceMember.rename_primary?]
  cases member.hook with
  | some hook =>
      exact foldl_mirrors (rename naming) (MemberDefinition.rename naming)
        (fun state definition => rename_chain naming state name hook definition) _ _
  | none =>
      cases first : member.primary? with
      | none => rfl
      | some definition =>
          exact rename_merge agree within (new definition (List.mem_of_mem_head? first))

/-- Carrying an ambiguity over mirrors itself under any renaming: it only tells origins apart. -/
theorem rename_carry (naming : Renaming) (assembly : Assembly) (ambiguity : Ambiguity) :
    (assembly.carry ambiguity).rename naming =
      (assembly.rename naming).carry (ambiguity.rename naming) := by
  unfold carry
  exact foldl_mirrors (rename naming)
    (fun origin : Nat × Site => (naming.ids origin.1, naming.sites origin.2))
    (fun state origin => rename_note naming state _ _ _ _) _ _

theorem map_addId (naming : Renaming) (ids : List Nat) (id : Nat) :
    (addId ids id).map naming.ids = addId (ids.map naming.ids) (naming.ids id) := by
  have known : (ids.map naming.ids).contains (naming.ids id) = ids.contains id := by
    rw [Bool.eq_iff_iff, List.contains_iff_mem, List.contains_iff_mem,
      List.mem_map_of_injective naming.injective]
  unfold addId
  rw [known]
  split
  · rfl
  · simp

/-- Noting what a mixin includes mirrors itself under any renaming. -/
theorem rename_including (naming : Renaming) (assembly : Assembly) (target : Nat)
    (included : Surface) :
    (assembly.including target included).rename naming =
      (assembly.rename naming).including (naming.ids target) (included.rename naming) := by
  have ids : ((target :: included.includes).foldl addId assembly.surface.includes).map naming.ids =
      ((target :: included.includes).map naming.ids).foldl addId
        (assembly.surface.includes.map naming.ids) :=
    foldl_mirrors (List.map naming.ids) naming.ids (map_addId naming) _ _
  unfold including
  simp only [rename, Surface.rename, mk.injEq, Surface.mk.injEq, and_true, true_and]
  exact ids

theorem within_mergeMembers (within : assembly.surface.Within scope) {included : Surface}
    (includedWithin : included.Within scope) :
    (assembly.mergeMembers includes included.members).surface.Within scope :=
  List.foldlRecOn (motive := fun a : Assembly => a.surface.Within scope) _ _ within
    fun _ held entry mem => within_mergeMember held (includedWithin.members entry mem)

theorem rename_mergeMembers (agree : Includes.Agree naming scope includes others)
    (within : assembly.surface.Within scope) {included : Surface}
    (includedWithin : included.Within scope) :
    (assembly.mergeMembers includes included.members).rename naming =
      (assembly.rename naming).mergeMembers others (included.rename naming).members :=
  foldl_mirrors_within (rename naming)
    (fun entry : String × SurfaceMember => (entry.1, entry.2.rename naming))
    (fun a entry => a.mergeMember includes entry.1 entry.2)
    (fun a entry => a.mergeMember others entry.1 entry.2) (fun a => a.surface.Within scope)
    (fun _ entry mem held => within_mergeMember held (includedWithin.members entry mem))
    (fun _ entry mem held => rename_mergeMember agree held (includedWithin.members entry mem))
    within

theorem within_mergeStatics (within : assembly.surface.Within scope) {included : Surface}
    (includedWithin : included.Within scope) :
    (assembly.mergeStatics includes included.statics).surface.Within scope :=
  List.foldlRecOn (motive := fun a : Assembly => a.surface.Within scope) _ _ within
    fun _ held entry mem => within_mergeStatic held (includedWithin.statics entry mem)

theorem rename_mergeStatics (agree : Includes.Agree naming scope includes others)
    (within : assembly.surface.Within scope) {included : Surface}
    (includedWithin : included.Within scope) :
    (assembly.mergeStatics includes included.statics).rename naming =
      (assembly.rename naming).mergeStatics others (included.rename naming).statics :=
  foldl_mirrors_within (rename naming)
    (fun entry : String × StaticMember => (entry.1, entry.2.rename naming))
    (fun a entry => a.mergeStatic includes entry.2)
    (fun a entry => a.mergeStatic others entry.2) (fun a => a.surface.Within scope)
    (fun _ entry mem held => within_mergeStatic held (includedWithin.statics entry mem))
    (fun _ entry mem held => rename_mergeStatic agree held (includedWithin.statics entry mem))
    within

theorem within_carried (within : assembly.surface.Within scope) (target : Nat)
    (included : Surface) :
    (included.ambiguities.foldl carry (assembly.including target included)).surface.Within
      scope := by
  rw [carryAll_surface]
  exact ⟨within.members, within.statics⟩

theorem within_addMixin (within : assembly.surface.Within scope) (target : Nat)
    {included : Surface} (includedWithin : included.Within scope) :
    (assembly.addMixin includes target included).surface.Within scope := by
  rw [addMixin_eq]
  exact within_mergeStatics
    (within_mergeMembers (within_carried within target included) includedWithin) includedWithin

/-- Merging a renamed mixin is merging the mixin and renaming what comes of it. -/
theorem rename_addMixin (agree : Includes.Agree naming scope includes others)
    (within : assembly.surface.Within scope) (target : Nat) {included : Surface}
    (includedWithin : included.Within scope) :
    (assembly.addMixin includes target included).rename naming =
      (assembly.rename naming).addMixin others (naming.ids target) (included.rename naming) := by
  have carried : (included.ambiguities.foldl carry
      (assembly.including target included)).rename naming =
        (included.rename naming).ambiguities.foldl carry
          ((assembly.rename naming).including (naming.ids target) (included.rename naming)) := by
    rw [← rename_including]
    exact foldl_mirrors (rename naming) (Ambiguity.rename naming) (rename_carry naming) _ _
  have start := within_carried within target included
  rw [addMixin_eq, addMixin_eq, ← carried, ← rename_mergeMembers agree start includedWithin]
  exact rename_mergeStatics agree (within_mergeMembers start includedWithin) includedWithin

end Merging

/-! ## Own definitions -/

section Own

variable (naming : Renaming) (assembly : Assembly)

/-- An own definition overrides alike before and after the renaming. -/
theorem rename_overrideWith (name : String) (own : MemberDefinition) :
    (assembly.overrideWith name own).rename naming =
      (assembly.rename naming).overrideWith name (own.rename naming) := by
  unfold overrideWith
  rw [rename_surface, Surface.rename_primary?]
  cases assembly.surface.primary? name with
  | none => exact rename_set naming assembly name own
  | some existing =>
      simp only [Option.map_some, MemberDefinition.rename_isDeclared]
      split
      · rw [rename_set]
        split
        · rfl
        · rw [MemberDefinition.rename_inherit]
      · rw [rename_set, rename_settle]
        split
        · rw [MemberDefinition.rename_inherit]
        · rfl

/-- Adding an own member mirrors itself under any renaming. -/
theorem rename_ownMember (member : SpecMember) :
    (assembly.ownMember member).rename naming =
      (assembly.rename naming).ownMember (member.rename naming) := by
  have kind : (member.rename naming).hook? = member.hook? := rfl
  unfold ownMember
  rw [kind, ← MemberDefinition.rename_ofMember]
  dsimp only
  rw [MemberDefinition.rename_isDeclared]
  cases member.hook? with
  | some hook =>
      dsimp only
      split
      · rfl
      · exact rename_chain naming assembly _ hook _
  | none => exact rename_overrideWith naming assembly _ _

/-- Adding an own static mirrors itself under any renaming. -/
theorem rename_ownStatic (entry : StaticDef) :
    (assembly.ownStatic entry).rename naming =
      (assembly.rename naming).ownStatic (entry.rename naming) := by
  unfold ownStatic
  rw [rename_setStatic, rename_settle]
  rfl

/-- Adding a renamed specification is adding the specification and renaming what comes of it. -/
theorem rename_own {spec other : FactorySpec}
    (members : other.members = spec.members.mapValues (SpecMember.rename naming))
    (statics : other.statics = spec.statics.mapValues (StaticDef.rename naming)) :
    (assembly.own spec).rename naming = (assembly.rename naming).own other := by
  have own : (spec.members.values.foldl ownMember assembly).rename naming =
      other.members.values.foldl ownMember (assembly.rename naming) := by
    rw [members, Keyed.values_mapValues]
    exact foldl_mirrors (rename naming) (SpecMember.rename naming) (rename_ownMember naming) _ _
  unfold Assembly.own
  rw [← own, statics, Keyed.values_mapValues]
  exact foldl_mirrors (rename naming) (StaticDef.rename naming) (rename_ownStatic naming) _ _

end Own

end Assembly

end ClassFactory
