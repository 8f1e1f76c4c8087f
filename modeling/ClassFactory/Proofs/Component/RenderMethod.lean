/-
Module: ClassFactory.Proofs.Component.RenderMethod
Purpose: Which `render` the method of that name describes. A component runs its own one, but the
  method is read from the first definition of the chain, and what a component includes comes before
  its own. The two are the same unless a component overrides the `render` of a mixin.
Main exports: OverridesRender, MethodType.Describes, method?_render, precedes_own,
  render_method_effective_iff
-/
import ClassFactory.Proofs.Component.InstanceMembers
import ClassFactory.Proofs.Component.Render

namespace ClassFactory

/-- The call has a `render` of its own, and so has a mixin that it includes. -/
def OverridesRender (registry : Registry) (options : Options) (id : Nat) : Prop :=
  SuppliesRender registry id ∧
    ∃ mixin, Reaches (edges registry options) id mixin ∧ SuppliesRender registry mixin

/-- A method is shown as defined where a definition of a hook is. -/
def MethodType.Describes (method : MethodType) (link : HookLink) : Prop :=
  method.source = .defined link.origin ∧ method.site = some link.site

section RenderMethod

variable {registry : Registry} {options : Options} {call : FactoryCall} {surface : Surface}
  {method : MethodType} {hook : Hook}

/-- The link of a call is never a mere declaration. -/
theorem OwnLink.not_isDeclared {id : Nat} {definition : MemberDefinition}
    (own : OwnLink registry hook id definition) : definition.isDeclared = false := by
  obtain ⟨call, -, isOwn⟩ := own
  obtain ⟨member, -, isLink⟩ := Option.bind_eq_some_iff.mp isOwn
  unfold SpecMember.link? at isLink
  split at isLink
  · cases isLink
  · rename_i concrete
    rw [← Option.some.inj isLink]
    exact Bool.eq_false_iff.mpr concrete

/-- The library supplies no `render`: the method is that of the surface. -/
theorem method?_render (stocked : surface.Stocked) :
    (componentType registry options call surface).method? "render" =
      (surface.member? "render").bind (memberMethod? "render") := by
  have unsupplied : ∀ pureRender, suppliedMethod? pureRender "render" = none := by decide
  rw [method?_componentType, surfaceMethods_get? stocked.distinct, unsupplied, Option.or_none]

/-- A component has a render method just if some link of its chain is not a value. -/
theorem isSome_render_iff (stocked : surface.Stocked) :
    ((componentType registry options call surface).method? "render").isSome = true ↔
      ∃ definition ∈ surface.hookChain .render, definition.kind.isValue = false := by
  have chain : surface.hookChain .render =
      ((surface.member? "render").map SurfaceMember.definitions).getD [] := rfl
  rw [method?_render stocked, chain]
  cases has : surface.member? "render" with
  | none => simp
  | some member =>
      rw [Option.bind_some, memberMethod?_isSome (stocked.of_get? has).1]
      simp [SurfaceMember.isValue]

/-- The method describes the first definition of the chain. -/
theorem exists_head_described (h : registry.WellFormed) {id : Nat}
    (found : (resolve registry options).surface? id = some surface)
    (shown : (componentType registry options call surface).method? "render" = some method) :
    ∃ first, (surface.hookChain .render).head? = some first ∧
      method.Describes (hookLink first) := by
  have stocked : surface.Stocked := surface_stocked h found
  rw [method?_render stocked] at shown
  obtain ⟨member, has, made⟩ := Option.bind_eq_some_iff.mp shown
  have chain : surface.hookChain .render = member.definitions := by
    have has : surface.member? Hook.render.name = some member := has
    rw [Surface.hookChain, has]
    rfl
  unfold memberMethod? at made
  split at made
  · cases made
  · obtain ⟨first, head, rfl⟩ := Option.map_eq_some_iff.mp made
    have head : member.definitions.head? = some first := head
    refine ⟨first, chain ▸ head, ?_, rfl⟩
    have mem : first ∈ surface.hookChain .render := chain ▸ List.mem_of_head? head
    obtain ⟨mixin, -, own⟩ := (mem_hookChain_iff h found .render).mp mem
    have concrete : member.definitions.all MemberDefinition.isDeclared = false :=
      List.all_eq_false.mpr ⟨first, List.mem_of_head? head, by simp [own.not_isDeclared]⟩
    rw [methodSource, concrete, if_neg Bool.false_ne_true]
    rfl

/-- What a call includes stands before its own definition in the chain of a hook. -/
theorem precedes_own (h : registry.WellFormed) {id : Nat}
    (found : (resolve registry options).surface? id = some surface) {own early : MemberDefinition}
    {mixin : Nat} (isOwn : OwnLink registry hook id own)
    (reaches : Reaches (edges registry options) id mixin)
    (ownEarly : OwnLink registry hook mixin early) :
    Precedes (surface.hookChain hook) early own := by
  have mem : own ∈ surface.hookChain hook := (mem_hookChain_iff h found hook).mpr ⟨id, .refl, isOwn⟩
  obtain ⟨full, expands, chain⟩ := exists_expands h found hook
  rw [chain] at mem ⊢
  exact expands.precedes_linkAll h (expands.leading h isOwn ownEarly reaches) mem

/-- Every link stands in a chain once. -/
theorem hookChain_nodup (h : registry.WellFormed) {id : Nat}
    (found : (resolve registry options).surface? id = some surface) (hook : Hook) :
    (surface.hookChain hook).Nodup := by
  obtain ⟨full, -, chain⟩ := exists_expands h found hook
  have distinct : ((linkAll [] full).map MemberDefinition.definition).Nodup :=
    linkAll_nodup List.nodup_nil
  rw [chain]
  exact distinct.of_map

/-- Where a component overrides a `render`, its chain starts with the definition of a mixin. -/
theorem exists_mixin_of_head (h : registry.WellFormed) {id : Nat}
    (found : (resolve registry options).surface? id = some surface)
    (overrides : OverridesRender registry options id) {first : MemberDefinition}
    (head : (surface.hookChain .render).head? = some first) :
    ∃ mixin, Reaches (edges registry options) id mixin ∧ mixin ≠ id ∧
      OwnLink registry .render mixin first := by
  obtain ⟨⟨own, isOwn⟩, inner, reaches, early, ownEarly⟩ := overrides
  obtain ⟨before, after, split, earlyMem⟩ := precedes_own h found isOwn reaches ownEarly
  have firstMem : first ∈ before := by
    obtain ⟨next, rest, rfl⟩ := List.exists_cons_of_ne_nil (List.ne_nil_of_mem earlyMem)
    rw [split, List.cons_append, List.head?_cons] at head
    exact Option.some.inj head ▸ List.mem_cons_self
  have distinct := hookChain_nodup h found .render
  rw [split] at distinct
  have apart : first ≠ own := (List.nodup_append.mp distinct).2.2 first firstMem own
    List.mem_cons_self
  obtain ⟨mixin, covers, ownFirst⟩ :=
    (mem_hookChain_iff h found .render).mp (List.mem_of_head? head)
  have other : mixin ≠ id := by
    rintro rfl
    exact apart (ownFirst.unique isOwn)
  exact ⟨mixin, (Relation.reflTransGen_iff_eq_or_transGen.mp covers).resolve_left other, other,
    ownFirst⟩

/-- Where it does not, the chain starts with the only definition that runs. -/
theorem SoleRender.eq_of_mem (h : registry.WellFormed) {id : Nat}
    (found : (resolve registry options).surface? id = some surface)
    (keeps : ¬ OverridesRender registry options id) {sole definition : MemberDefinition}
    (isSole : SoleRender registry options id sole) (mem : definition ∈ surface.hookChain .render) :
    definition = sole := by
  obtain ⟨mixin, covers, own⟩ := (mem_hookChain_iff h found .render).mp mem
  rcases isSole with isOwn | ⟨none, only, reaches, ownOnly, unique⟩
  · rcases Relation.reflTransGen_iff_eq_or_transGen.mp covers with rfl | included
    · exact own.unique isOwn
    · exact absurd ⟨⟨sole, isOwn⟩, mixin, included, definition, own⟩ keeps
  · rcases Relation.reflTransGen_iff_eq_or_transGen.mp covers with rfl | included
    · exact absurd ⟨definition, own⟩ none
    · obtain rfl := unique mixin included ⟨definition, own⟩
      exact own.unique ownOnly

end RenderMethod

/-- A published component has a method `render` if it or a mixin that it includes has one that is no
plain value. The method describes the definition that runs just if the component does not override
the `render` of a mixin; if it does, its own definition runs and the method describes that of a
mixin. -/
theorem render_method_effective_iff {registry : Registry} {options : Options}
    (h : registry.WellFormed) :
    ∀ type ∈ (synthesize registry options (resolve registry options)).table.components,
      ((type.method? "render").isSome = true ↔
        ∃ callee, Covers (edges registry options) type.id callee ∧
          ∃ definition, OwnLink registry .render callee definition ∧
            definition.kind.isValue = false) ∧
      ∃ link, type.hookChain .render = [link] ∧
        (OverridesRender registry options type.id → link.origin = type.id) ∧
        ∀ method, type.method? "render" = some method →
          (method.Describes link ↔ ¬ OverridesRender registry options type.id) ∧
          (OverridesRender registry options type.id →
            ∃ mixin definition, Reaches (edges registry options) type.id mixin ∧
              OwnLink registry .render mixin definition ∧
                method.Describes (hookLink definition)) := by
  intro type published
  obtain ⟨call, callMem, surface, found, rfl⟩ := (mem_components_iff h).mp published
  obtain ⟨mem, component⟩ := List.mem_filter.mp callMem
  obtain ⟨sole, runs, isSole⟩ := exists_soleRender h mem component found
  have ofOwn : OverridesRender registry options call.id → sole.origin = call.id := by
    rintro ⟨supplies, -⟩
    rcases isSole with isOwn | ⟨none, -⟩
    · exact isOwn.origin h
    · exact absurd supplies none
  refine ⟨?_, hookLink sole, (hookChain_componentType ..).trans runs, ofOwn,
    fun method shown => ?_⟩
  · rw [isSome_render_iff (surface_stocked h found)]
    constructor
    · rintro ⟨definition, listed, isMethod⟩
      obtain ⟨callee, covers, own⟩ := (mem_hookChain_iff h found .render).mp listed
      exact ⟨callee, covers, definition, own, isMethod⟩
    · rintro ⟨callee, covers, definition, own, isMethod⟩
      exact ⟨definition, (mem_hookChain_iff h found .render).mpr ⟨callee, covers, own⟩, isMethod⟩
  · obtain ⟨first, head, describes⟩ := exists_head_described h found shown
    refine ⟨⟨fun described overrides => ?_, fun keeps => ?_⟩, fun overrides => ?_⟩
    · obtain ⟨mixin, -, other, ownFirst⟩ := exists_mixin_of_head h found overrides head
      have sources : MethodSource.defined first.origin = .defined sole.origin :=
        describes.1.symm.trans described.1
      rw [ownFirst.origin h, ofOwn overrides] at sources
      exact other (MethodSource.defined.inj sources)
    · obtain rfl := isSole.eq_of_mem h found keeps (List.mem_of_head? head)
      exact describes
    · obtain ⟨mixin, reaches, -, ownFirst⟩ := exists_mixin_of_head h found overrides head
      exact ⟨mixin, first, reaches, ownFirst, describes⟩

/-- A mixin with a `render`, a component that takes it, and one that has its own. -/
def templateRegistry : Registry :=
  memberRegistry [⟨.mixin, "Template", [], [("render", .method none 0 default)]⟩,
    ⟨.component, "Plain", ["Template"], []⟩,
    ⟨.component, "Page", ["Template"], [("render", .method none 0 default)]⟩]

/-- The method of the first component describes what runs, and that of the second one does not. -/
theorem render_method_effective_iff_page :
    templateRegistry.WellFormed ∧
      (∃ type ∈ (synthesize templateRegistry .standard
          (resolve templateRegistry .standard)).table.components,
        type.name = "Plain" ∧ ∃ link method, type.hookChain .render = [link] ∧
          type.method? "render" = some method ∧ method.Describes link) ∧
      ∃ type ∈ (synthesize templateRegistry .standard
          (resolve templateRegistry .standard)).table.components,
        type.name = "Page" ∧ ∃ link method, type.hookChain .render = [link] ∧
          type.method? "render" = some method ∧ ¬ method.Describes link := by
  have sound : templateRegistry.WellFormed := memberRegistry_wellFormed _
  have shown := @render_method_effective_iff templateRegistry .standard sound
  have published : ∀ call ∈ templateRegistry.components, ∀ surface,
      (resolve templateRegistry .standard).surface? call.id = some surface →
      componentType templateRegistry .standard call surface ∈ (synthesize templateRegistry
        .standard (resolve templateRegistry .standard)).table.components :=
    fun call mem surface found => (mem_components_iff sound).mpr ⟨call, mem, surface, found, rfl⟩
  have toTemplate : ∀ id, id = 1 ∨ id = 2 →
      Reaches (edges templateRegistry .standard) id 0 := by
    rintro id (rfl | rfl)
    · exact .single ⟨default, by decide⟩
    · exact .single ⟨default, by decide⟩
  have template : OwnLink templateRegistry .render 0 _ := ⟨_, rfl, rfl⟩
  have methods : ∀ type ∈ (synthesize templateRegistry .standard
      (resolve templateRegistry .standard)).table.components, type.id = 1 ∨ type.id = 2 →
      ∃ method, type.method? "render" = some method := by
    intro type mem number
    exact Option.isSome_iff_exists.mp ((shown type mem).1.mpr
      ⟨0, (toTemplate type.id number).to_reflTransGen, _, template, rfl⟩)
  have both : ∃ plain ∈ templateRegistry.components, ∃ page ∈ templateRegistry.components,
      plain.name = "Plain" ∧ plain.id = 1 ∧ page.name = "Page" ∧ page.id = 2 ∧
        ((resolve templateRegistry .standard).surface? plain.id).isSome = true ∧
        ((resolve templateRegistry .standard).surface? page.id).isSome = true :=
    ⟨_, .head _, _, .tail _ (.head _), by decide, by decide, by decide, by decide, by decide,
      by decide⟩
  obtain ⟨plain, plainMem, page, pageMem, plainNamed, isOne, pageNamed, isTwo, plainResolved,
    pageResolved⟩ := both
  obtain ⟨plainSurface, plainFound⟩ := Option.isSome_iff_exists.mp plainResolved
  obtain ⟨pageSurface, pageFound⟩ := Option.isSome_iff_exists.mp pageResolved
  have plainPublished := published plain plainMem _ plainFound
  have pagePublished := published page pageMem _ pageFound
  refine ⟨sound, ⟨_, plainPublished, plainNamed, ?_⟩, ⟨_, pagePublished, pageNamed, ?_⟩⟩
  · obtain ⟨method, has⟩ := methods _ plainPublished (.inl isOne)
    obtain ⟨-, link, runs, -, tells⟩ := shown _ plainPublished
    refine ⟨link, method, runs, has, (tells method has).1.mpr ?_⟩
    rintro ⟨⟨definition, call, found, own⟩, -⟩
    have number : (componentType templateRegistry .standard plain plainSurface).id = 1 := isOne
    rw [number] at found
    obtain rfl := Option.some.inj ((show templateRegistry.get? 1 = some _ from rfl).symm.trans
      found)
    cases own
  · obtain ⟨method, has⟩ := methods _ pagePublished (.inr isTwo)
    obtain ⟨-, link, runs, -, tells⟩ := shown _ pagePublished
    refine ⟨link, method, runs, has, fun described => (tells method has).1.mp described ?_⟩
    have number : (componentType templateRegistry .standard page pageSurface).id = 2 := isTwo
    rw [number]
    exact ⟨⟨_, _, rfl, rfl⟩, 0, toTemplate 2 (.inr rfl), _, template⟩

end ClassFactory
