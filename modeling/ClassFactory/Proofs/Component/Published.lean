/-
Module: ClassFactory.Proofs.Component.Published
Purpose: Which types are published. Names of calls differ, so no registration is refused: the table
  holds the type of every call that resolved, mixins before components, and nothing else. What a
  component's type says of a hook is what its surface says.
Main exports: publishedAs?, entries_synthesize, components_synthesize, mem_components_iff,
  hookChain_componentType
-/
import ClassFactory.Component.Synthesis
import ClassFactory.Proofs.Mixins.Sequence

namespace ClassFactory

/-! ## Registering -/

/-- The entry under which the type of a call is published, if the call resolved. -/
def publishedAs? (registry : Registry) (options : Options) (resolved : Resolved)
    (call : FactoryCall) : Option (String × NominalType) :=
  (resolved.surface? call.id).map fun surface =>
    (call.name,
      if call.isComponent then .component (componentType registry options call surface)
      else .mixin (mixinType call surface))

/-- A type under a name that is not taken goes last. -/
theorem TypeTable.register_fresh {table : TypeTable} {type : NominalType}
    (fresh : type.name ∉ table.types.keys) :
    table.register type =
      ({ table with types := ⟨table.types.entries ++ [(type.name, type)]⟩ }, true) := by
  have absent : table.types.contains type.name = false := by
    rw [Keyed.contains, Keyed.get?_eq_none_of_notMem fresh]
    rfl
  rw [register, absent, if_neg Bool.false_ne_true, Keyed.insert,
    Keyed.write_of_notMem (by exact fresh)]

namespace Synthesis

variable {registry : Registry} {options : Options} {resolved : Resolved} {synthesis : Synthesis}
  {call : FactoryCall}

/-- A mixin that is new is published at the end, if it is at all. -/
theorem entries_addMixin (isMixin : call.isComponent = false)
    (fresh : call.name ∉ synthesis.table.types.keys) :
    (synthesis.addMixin resolved call).table.types.entries =
      synthesis.table.types.entries ++ (publishedAs? registry options resolved call).toList := by
  unfold addMixin publishedAs?
  cases resolved.surface? call.id with
  | none => simp
  | some surface =>
      have registered : synthesis.table.register (.mixin (mixinType call surface)) = _ :=
        TypeTable.register_fresh fresh
      simp only [registered, isMixin, if_neg Bool.false_ne_true]
      rfl

/-- A component that is new is published at the end, if it is at all. -/
theorem entries_addComponent (component : call.isComponent = true)
    (fresh : call.name ∉ synthesis.table.types.keys) :
    (synthesis.addComponent registry options resolved call).table.types.entries =
      synthesis.table.types.entries ++ (publishedAs? registry options resolved call).toList := by
  unfold addComponent publishedAs?
  cases resolved.surface? call.id with
  | none => simp
  | some surface =>
      have registered : synthesis.table.register
          (.component (componentType registry options call surface)) = _ :=
        TypeTable.register_fresh fresh
      simp only [registered, component, if_true]
      rfl

/-- Where every call adds its own entry as long as its name is not taken, a run over calls whose
names differ adds the entries of all of them in order. -/
theorem entries_foldl {step : Synthesis → FactoryCall → Synthesis} {calls : List FactoryCall}
    (adds : ∀ synthesis, ∀ call ∈ calls, call.name ∉ synthesis.table.types.keys →
      (step synthesis call).table.types.entries =
        synthesis.table.types.entries ++ (publishedAs? registry options resolved call).toList)
    (distinct : (calls.map FactoryCall.name).Nodup)
    (fresh : ∀ call ∈ calls, call.name ∉ synthesis.table.types.keys) :
    (calls.foldl step synthesis).table.types.entries =
      synthesis.table.types.entries ++ calls.filterMap (publishedAs? registry options resolved) := by
  induction calls generalizing synthesis with
  | nil => simp
  | cons call rest ih =>
      obtain ⟨unique, distinct⟩ := List.nodup_cons.mp distinct
      have added := adds synthesis call List.mem_cons_self (fresh call List.mem_cons_self)
      have stillFresh : ∀ later ∈ rest, later.name ∉ (step synthesis call).table.types.keys := by
        intro later mem listed
        rw [Keyed.keys, added, List.map_append] at listed
        rcases List.mem_append.mp listed with old | new
        · exact fresh later (List.mem_cons_of_mem _ mem) old
        · obtain ⟨entry, entryMem, same⟩ := List.mem_map.mp new
          obtain ⟨surface, -, rfl⟩ := Option.map_eq_some_iff.mp (Option.mem_toList.mp entryMem)
          exact unique (List.mem_map.mpr ⟨later, mem, same.symm⟩)
      rw [List.foldl_cons, ih (fun s c mem => adds s c (List.mem_cons_of_mem _ mem)) distinct
        stillFresh, added, List.filterMap_cons]
      cases publishedAs? registry options resolved call with
      | none => simp
      | some entry => simp

end Synthesis

section Published

variable {registry : Registry} {options : Options} {resolved : Resolved}

theorem not_isComponent_of_mixins {call : FactoryCall} (mem : call ∈ registry.mixins) :
    call.isComponent = false :=
  not_isComponent_iff.mpr (List.mem_filter.mp mem).2

/-- What is published stands under the names of calls. -/
theorem names_published (calls : List FactoryCall) :
    (calls.filterMap (publishedAs? registry options resolved)).map Prod.fst ⊆
      calls.map FactoryCall.name := by
  intro name listed
  obtain ⟨entry, mem, rfl⟩ := List.mem_map.mp listed
  obtain ⟨call, callMem, published⟩ := List.mem_filterMap.mp mem
  obtain ⟨surface, -, rfl⟩ := Option.map_eq_some_iff.mp published
  exact List.mem_map_of_mem callMem

/-- Every call that resolved is published under its name: the mixins, then the components. -/
theorem entries_synthesize (h : registry.WellFormed) :
    (synthesize registry options resolved).table.types.entries =
      (registry.mixins ++ registry.components).filterMap
        (publishedAs? registry options resolved) := by
  have mixins : (registry.mixins.foldl (Synthesis.addMixin resolved)
      Synthesis.empty).table.types.entries =
        registry.mixins.filterMap (publishedAs? registry options resolved) := by
    refine Synthesis.entries_foldl ?_ (h.named.sublist (List.filter_sublist.map _)) ?_
    · intro synthesis call mem fresh
      exact Synthesis.entries_addMixin (not_isComponent_of_mixins mem) fresh
    · intro call _ listed
      cases listed
  rw [List.filterMap_append, ← mixins]
  refine Synthesis.entries_foldl ?_ (h.named.sublist (List.filter_sublist.map _)) ?_
  · intro synthesis call mem fresh
    exact Synthesis.entries_addComponent (List.mem_filter.mp mem).2 fresh
  · intro call mem listed
    rw [Keyed.keys, mixins] at listed
    obtain ⟨mixin, mixinMem, same⟩ := List.mem_map.mp (names_published _ listed)
    obtain ⟨callMem, component⟩ := List.mem_filter.mp mem
    obtain rfl := List.inj_on_of_nodup_map h.named (List.mem_of_mem_filter mixinMem) callMem same
    rw [not_isComponent_of_mixins mixinMem] at component
    cases component

/-- The published components are those that resolved, in order of declaration. -/
theorem components_synthesize (h : registry.WellFormed) :
    (synthesize registry options resolved).table.components =
      registry.components.filterMap fun call =>
        (resolved.surface? call.id).map (componentType registry options call) := by
  have asComponent : ∀ call : FactoryCall,
      ((publishedAs? registry options resolved call).bind fun entry => entry.2.component?) =
        if call.isComponent then
          (resolved.surface? call.id).map (componentType registry options call)
        else none := by
    intro call
    unfold publishedAs?
    cases resolved.surface? call.id with
    | none => simp
    | some surface =>
        cases call.isComponent with
        | false => rfl
        | true => rfl
  have mixins : registry.mixins.filterMap (fun call =>
      (publishedAs? registry options resolved call).bind fun entry => entry.2.component?) = [] := by
    rw [List.filterMap_eq_nil_iff]
    intro call mem
    rw [asComponent, not_isComponent_of_mixins mem, if_neg Bool.false_ne_true]
  rw [TypeTable.components, Keyed.values, entries_synthesize h, List.filterMap_map,
    List.filterMap_filterMap, List.filterMap_append]
  refine (congrArg (· ++ _) mixins).trans ?_
  rw [List.nil_append]
  refine List.filterMap_congr fun call mem => ?_
  exact (asComponent call).trans (if_pos (List.mem_filter.mp mem).2)

/-- The published components are the types of the component factory's calls that resolved. -/
theorem mem_components_iff (h : registry.WellFormed) {type : ComponentType} :
    type ∈ (synthesize registry options resolved).table.components ↔
      ∃ call ∈ registry.components, ∃ surface, resolved.surface? call.id = some surface ∧
        componentType registry options call surface = type := by
  rw [components_synthesize h]
  simp

end Published

/-! ## Hooks -/

section Hooks

variable {call : FactoryCall} {surface : Surface}

/-- Listing hooks with their chains, those without a definition left out, loses no chain. -/
theorem find?_filterMap_hooks (links : Hook → List HookLink) (hooks : List Hook) (hook : Hook)
    (mem : hook ∈ hooks ∨ links hook = []) :
    (((hooks.filterMap fun hook =>
        match links hook with
        | [] => none
        | links => some (hook, links)).find? (·.1 = hook)).map Prod.snd).getD [] =
      links hook := by
  induction hooks with
  | nil =>
      rcases mem with listed | none
      · cases listed
      · exact none.symm
  | cons first rest ih =>
      rw [List.filterMap_cons]
      by_cases same : first = hook
      · subst same
        cases found : links first with
        | nil => simpa [found] using ih (.inr found)
        | cons link more => simp
      · have later : hook ∈ rest ∨ links hook = [] := by
          rcases mem with listed | none
          · exact .inl ((List.mem_cons.mp listed).resolve_left (Ne.symm same))
          · exact .inr none
        cases found : links first with
        | nil => exact ih later
        | cons link more => simpa [same] using ih later

/-- The type of a component lists the definitions of a hook that run. -/
theorem hookChain_componentType (registry : Registry) (options : Options) (call : FactoryCall)
    (surface : Surface) (hook : Hook) :
    (componentType registry options call surface).hookChain hook = hookLinks call surface hook :=
  find?_filterMap_hooks (hookLinks call surface) Hook.all hook (.inl hook.mem_all)

end Hooks

end ClassFactory
