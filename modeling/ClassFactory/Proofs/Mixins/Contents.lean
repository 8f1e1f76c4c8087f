/-
Module: ClassFactory.Proofs.Mixins.Contents
Purpose: What a surface contains. Nothing that a call or a mixin it includes defines is lost on the
  way up, and nothing is there that none of them defines: the names of a surface are those of the
  covered specifications, and each of its definitions stands in one.
Main exports: Surface.Accounted, Surface.Stocked, mem_members_iff, pureRender_iff, surface_accounted
-/
import ClassFactory.Proofs.Mixins.Chain
import ClassFactory.Proofs.Mixins.Provenance

namespace ClassFactory

/-- Some entry of the call names a library mixin that implements `shouldComponentUpdate`. -/
def ListsPureRender (registry : Registry) (options : Options) (id : Nat) : Prop :=
  ∃ call, registry.get? id = some call ∧
    ∃ entry ∈ call.spec.mixins, options.isPureRenderMixin entry.name = true

/-- Where everything in the surface of a call comes from. -/
structure Surface.Accounted (registry : Registry) (options : Options) (id : Nat)
    (surface : Surface) : Prop where
  /-- The mixins are those that the call includes, directly or through others. -/
  includes : ∀ mixin, mixin ∈ surface.includes ↔ Reaches (edges registry options) id mixin
  pureRender : surface.pureRender = true ↔
    ∃ callee ∈ covered registry options id, ListsPureRender registry options callee
  /-- The names of members are those of the covered specifications. -/
  members : ∀ name, name ∈ surface.members.keys ↔
    ∃ callee ∈ covered registry options id, Contributes registry name callee
  /-- The names of statics are those of the covered specifications. -/
  statics : ∀ name, name ∈ surface.statics.keys ↔
    ∃ callee ∈ covered registry options id, Defines registry name true callee
  ordinary : ∀ name member, Hook.ofName? name = none → surface.member? name = some member →
    ∃ definition, member.definitions = [definition]
  descends : ∀ name member, surface.member? name = some member →
    ∀ definition ∈ member.definitions,
      Descends registry name (covered registry options id) definition
  staticDescends : ∀ name entry, surface.statics.get? name = some entry →
    StaticDescends registry name (covered registry options id) entry

section Contents

variable {registry : Registry} {options : Options} {call : FactoryCall} {name : String}
  {calls : Set Nat} {includes : Includes}

/-! ## Hooks -/

/-- The chain of a hook consists of the own definitions of the calls that are covered. -/
theorem mem_hookChain_iff (h : registry.WellFormed) {id : Nat} {surface : Surface}
    (found : (resolve registry options).surface? id = some surface) (hook : Hook)
    {definition : MemberDefinition} :
    definition ∈ surface.hookChain hook ↔
      ∃ mixin ∈ covered registry options id, OwnLink registry hook mixin definition := by
  obtain ⟨full, expands, chain⟩ := exists_expands h found hook
  rw [chain]
  exact expands.mem_linkAll_iff h

/-- A call contributes to a hook just if it has a link of its own. -/
theorem contributes_iff_ownLink {hook : Hook} {id : Nat} :
    Contributes registry hook.name id ↔ ∃ definition, OwnLink registry hook id definition := by
  have named : Hook.ofName? hook.name ≠ none := by simp [hook.ofName?_name]
  constructor
  · rintro ⟨call, found, member, has, shows⟩
    have concrete : member.kind.isDeclared = false := shows.resolve_left named
    exact ⟨MemberDefinition.ofMember member, call, found,
      by simp [FactorySpec.link?, has, SpecMember.link?, concrete]⟩
  · rintro ⟨definition, call, found, links⟩
    obtain ⟨member, has, link⟩ := Option.bind_eq_some_iff.mp links
    refine ⟨call, found, member, has, .inr ?_⟩
    by_contra declared
    simp [SpecMember.link?, declared] at link

/-- A link of a covered call descends from that call. -/
theorem OwnLink.descends (h : registry.WellFormed) {hook : Hook} {id : Nat}
    {definition : MemberDefinition} (own : OwnLink registry hook id definition) (mem : id ∈ calls) :
    Descends registry hook.name calls definition := by
  obtain ⟨call, found, links⟩ := own
  obtain ⟨member, has, link⟩ := Option.bind_eq_some_iff.mp links
  unfold SpecMember.link? at link
  split at link
  · cases link
  · obtain rfl := Option.some.inj link
    exact .own h (Registry.mem_of_get? found) (h.id_of_get? found ▸ mem) has

/-! ## Members that stand in a surface -/

/-- Every member has a definition, and an ordinary one just one. -/
def Surface.Stocked (surface : Surface) : Prop :=
  surface.members.Sound fun name member => member.definitions ≠ [] ∧
    (Hook.ofName? name = none → ∃ definition, member.definitions = [definition])

/-- No write leaves a member without definitions. -/
theorem Assembly.stocked_apply (assembly : Assembly) (write : Write) (name : String)
    (isStatic : Bool) (concerns : write.Concerns name isStatic)
    (stocked : assembly.surface.Stocked) : (write.apply assembly).surface.Stocked := by
  cases concerns with
  | note =>
      rw [Write.apply, note_surface]
      exact stocked
  | settle => exact stocked
  | set _ definition => exact stocked.insert ⟨by simp, fun _ => ⟨definition, rfl⟩⟩
  | chain named =>
      simp only [Write.apply, chain]
      split
      · exact stocked
      · exact stocked.insert ⟨by simp, fun ordinary => by simp [named] at ordinary⟩
  | setStatic => exact stocked

/-- Every member of a surface of a resolution has some definition. -/
theorem surface_stocked (h : registry.WellFormed) {id : Nat} {surface : Surface}
    (found : (resolve registry options).surface? id = some surface) : surface.Stocked := by
  obtain ⟨call, -, -, -, rfl⟩ := exists_mergeable h found
  rw [exposed_view Surface.Stocked fun _ _ => rfl]
  refine assembled_keeps (fun assembly => assembly.surface.Stocked)
    (fun _ => Keyed.Sound.empty) ?_ ?_
  · intro assembly stocked entry mem
    exact Assembly.addMixin_keeps (fun a => a.surface.Stocked)
      (fun a write name isStatic => Assembly.stocked_apply a write name isStatic) _
      (merged_fitting h entry mem) stocked
  · intro assembly stocked
    exact Assembly.own_keeps (fun a => a.surface.Stocked)
      (fun a write name isStatic => Assembly.stocked_apply a write name isStatic) _ stocked

/-- The names of members are those that some covered call contributes to. -/
theorem mem_members_iff (h : registry.WellFormed) {id : Nat} {surface : Surface}
    (found : (resolve registry options).surface? id = some surface) (name : String) :
    name ∈ surface.members.keys ↔
      ∃ callee ∈ covered registry options id, Contributes registry name callee := by
  have stocked : surface.Stocked := surface_stocked h found
  cases isHook : Hook.ofName? name with
  | none =>
      have gathered := surface_gathered h isHook found
      rw [← gathered.exists_iff, Keyed.mem_keys_iff]
      · constructor
        · rintro ⟨member, has⟩
          obtain ⟨definition, only⟩ := (stocked.of_get? has).2 isHook
          have has : surface.member? name = some member := has
          exact ⟨definition, by simp [Surface.primary?, has, SurfaceMember.primary?, only]⟩
        · rintro ⟨definition, primary⟩
          obtain ⟨member, has, -⟩ := Option.bind_eq_some_iff.mp primary
          exact ⟨member, has⟩
      · rintro definition ⟨mem, call, member, recorded, has, -⟩
        exact ⟨definition.origin, mem, call, recorded, member, has, .inl isHook⟩
  | some hook =>
      obtain rfl := Hook.name_of_ofName? isHook
      rw [Keyed.mem_keys_iff]
      constructor
      · rintro ⟨member, has⟩
        obtain ⟨definition, mem⟩ := List.exists_mem_of_ne_nil _ (stocked.of_get? has).1
        have has : surface.member? hook.name = some member := has
        have chained : definition ∈ surface.hookChain hook := by
          simpa [Surface.hookChain, has] using mem
        obtain ⟨callee, covers, own⟩ := (mem_hookChain_iff h found hook).mp chained
        exact ⟨callee, covers, contributes_iff_ownLink.mpr ⟨definition, own⟩⟩
      · rintro ⟨callee, covers, contributes⟩
        obtain ⟨definition, own⟩ := contributes_iff_ownLink.mp contributes
        have chained := (mem_hookChain_iff h found hook).mpr ⟨callee, covers, own⟩
        by_contra absent
        have missing : surface.member? hook.name = none :=
          Option.eq_none_iff_forall_not_mem.mpr fun member has => absent ⟨member, has⟩
        simp [Surface.hookChain, missing] at chained

/-- Each definition of a member descends from a covered call. -/
theorem descends_of_mem_definitions (h : registry.WellFormed) {id : Nat} {surface : Surface}
    (found : (resolve registry options).surface? id = some surface) {member : SurfaceMember}
    (has : surface.member? name = some member) {definition : MemberDefinition}
    (mem : definition ∈ member.definitions) :
    Descends registry name (covered registry options id) definition := by
  cases isHook : Hook.ofName? name with
  | none =>
      have stocked : surface.Stocked := surface_stocked h found
      obtain ⟨only, same⟩ := (stocked.of_get? has).2 isHook
      rw [same, List.mem_singleton] at mem
      subst mem
      refine (surface_gathered h isHook found).descends definition ?_
      simp [Surface.primary?, has, SurfaceMember.primary?, same]
  | some hook =>
      obtain rfl := Hook.name_of_ofName? isHook
      have chained : definition ∈ surface.hookChain hook := by
        simpa [Surface.hookChain, has] using mem
      obtain ⟨callee, covers, own⟩ := (mem_hookChain_iff h found hook).mp chained
      exact own.descends h covers

/-! ## Library mixins -/

theorem Assembly.pureRender_merged {entries : List (Nat × Surface)}
    (fitting : ∀ entry ∈ entries, entry.2.Fitting) (start : Assembly) :
    (entries.foldl (fun a entry => a.addMixin includes entry.1 entry.2)
        start).surface.pureRender =
      (start.surface.pureRender || entries.any fun entry => entry.2.pureRender) := by
  induction entries generalizing start with
  | nil => simp
  | cons entry rest ih =>
      have added : (start.addMixin includes entry.1 entry.2).surface.pureRender =
          (start.surface.pureRender || entry.2.pureRender) :=
        addMixin_keeps (fun a => a.surface.pureRender = _)
          (view_apply Surface.pureRender (fun _ _ _ => rfl) _) includes
          (fitting entry List.mem_cons_self) rfl
      rw [List.foldl_cons, ih fun later mem => fitting later (List.mem_cons_of_mem _ mem), added,
        List.any_cons, Bool.or_assoc]

/-- A call has a pure-render mixin merged in just if it lists one. -/
theorem listsPureRender_iff (h : registry.WellFormed) (mem : call ∈ registry.calls) :
    ListsPureRender registry options call.id ↔
      (inclusions registry options call).pureRender = true := by
  rw [inclusions, Inclusions.ofDependencies_eq]
  simp only [ListsPureRender, h.get?_id mem, Option.some.injEq, exists_eq_left', dependencies,
    List.any_map, List.any_eq_true, Function.comp_apply, decide_eq_true_eq]
  refine exists_congr fun entry => and_congr_right fun _ => ?_
  unfold classify
  constructor
  · intro pure
    rw [if_pos pure]
  · intro classified
    by_contra other
    rw [if_neg other] at classified
    repeat' split at classified
    all_goals cases classified

/-- A surface renders purely just if its call, or something it includes, lists a pure-render
mixin. -/
theorem pureRender_iff (h : registry.WellFormed) {id : Nat} {surface : Surface}
    (found : (resolve registry options).surface? id = some surface) :
    surface.pureRender = true ↔
      ∃ callee ∈ covered registry options id, ListsPureRender registry options callee := by
  refine surface_induction (fun id surface => surface.pureRender = true ↔
    ∃ callee ∈ covered registry options id, ListsPureRender registry options callee) h
    (fun call mergeable _ each => ?_) found
  have own : ∀ assembly : Assembly,
      (assembly.own call.spec).surface.pureRender = assembly.surface.pureRender :=
    fun assembly => Assembly.own_keeps (fun a => a.surface.pureRender = _)
      (Assembly.view_apply Surface.pureRender (fun _ _ _ => rfl) _) call.spec rfl
  have start : (Assembly.empty (inclusions registry options call).pureRender).surface.pureRender =
      (inclusions registry options call).pureRender := rfl
  rw [exposed_view Surface.pureRender fun _ _ => rfl, assembled, assemble, own,
    Assembly.pureRender_merged (merged_fitting h), start, Bool.or_eq_true,
    ← listsPureRender_iff h mergeable.mem, List.any_eq_true, mergeable.covered_eq h]
  constructor
  · rintro (lists | ⟨entry, mem, pure⟩)
    · exact ⟨call.id, .inr rfl, lists⟩
    · obtain ⟨callee, covers, lists⟩ := (each entry mem).mp pure
      exact ⟨callee, .inl (.inr ⟨entry, mem, covers⟩), lists⟩
  · rintro ⟨callee, (none | ⟨entry, mem, covers⟩) | rfl, lists⟩
    · exact absurd none (Set.notMem_empty _)
    · exact .inr ⟨entry, mem, (each entry mem).mpr ⟨callee, covers, lists⟩⟩
    · exact .inl lists

end Contents

/-! ## The whole surface -/

/-- The surface of every call that resolved contains what the calls it covers define, and nothing
else. -/
theorem surface_accounted {registry : Registry} {options : Options} (h : registry.WellFormed)
    {id : Nat} {surface : Surface}
    (found : (resolve registry options).surface? id = some surface) :
    surface.Accounted registry options id where
  includes := fun _ => mem_includes_iff h found
  pureRender := pureRender_iff h found
  members := mem_members_iff h found
  statics := by
    intro name
    have gathered := surface_static_gathered h name found
    rw [Keyed.mem_keys_iff, gathered.exists_iff]
    rintro entry ⟨mem, call, own, recorded, has, -⟩
    exact ⟨entry.origin, mem, call, recorded, own, has⟩
  ordinary := by
    intro name member ordinary has
    have stocked : surface.Stocked := surface_stocked h found
    exact (stocked.of_get? has).2 ordinary
  descends := fun _ _ has _ mem => descends_of_mem_definitions h found has mem
  staticDescends := fun name entry has =>
    (surface_static_gathered h name found).descends entry has

/-- A mixin with a method, a static and a hook, one that includes it and a library mixin, and a
component that includes the second. -/
def gatheredRegistry : Registry :=
  staticRegistry [⟨⟨.mixin, "Base", [], ["toggle", "componentDidMount"]⟩, ["shared"]⟩,
    ⟨⟨.mixin, "Over", ["Base", "PureRenderMixin"], ["toggle"]⟩, []⟩,
    ⟨⟨.component, "User", ["Over"], ["render"]⟩, []⟩]

/-- What the component has of its own and by two steps of inclusion. -/
theorem surface_accounted_gathered :
    ∃ surface, (resolve gatheredRegistry .standard).surface? 2 = some surface ∧
      surface.Accounted gatheredRegistry .standard 2 ∧
      surface.includes = [1, 0] ∧ surface.pureRender = true ∧
      surface.members.keys = ["toggle", "componentDidMount", "render"] ∧
      surface.statics.keys = ["shared"] := by
  have sound : gatheredRegistry.WellFormed := staticRegistry_wellFormed _
  have shown : ((resolve gatheredRegistry .standard).surface? 2).map (fun surface =>
      (surface.includes, surface.pureRender, surface.members.keys, surface.statics.keys)) =
      some ([1, 0], true, ["toggle", "componentDidMount", "render"], ["shared"]) := by decide
  obtain ⟨surface, found, contents⟩ := Option.map_eq_some_iff.mp shown
  simp only [Prod.mk.injEq] at contents
  exact ⟨surface, found, surface_accounted sound found, contents⟩

end ClassFactory
