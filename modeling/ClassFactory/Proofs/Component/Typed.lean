/-
Module: ClassFactory.Proofs.Component.Typed
Purpose: The types that published components show. A component in the table is that of a call which
  resolved, under the name of the call; its props and its state have types that name no field of a
  record twice, and every instance has the methods that the library supplies.
Main exports: component?_components, component?_synthesize, component?_self,
  component?_eq_some_iff, exists_call_of_published, fieldType_wellKeyed, state_wellKeyed, exists_suppliedMethod, signature_of_builtin
-/
import ClassFactory.Proofs.Component.InstanceMembers
import ClassFactory.Proofs.Factory.Declared

namespace ClassFactory

/-! ## Published components -/

section Published

variable {registry : Registry} {options : Options} {resolved : Resolved} {name : String}
  {component : ComponentType}

/-- A component of the table is that of a component factory's call of its name. -/
theorem component?_components (h : registry.WellFormed)
    (found : (synthesize registry options resolved).table.component? name = some component) :
    ∃ call ∈ registry.components, ∃ surface, resolved.surface? call.id = some surface ∧
      call.name = name ∧ component = componentType registry options call surface := by
  obtain ⟨type, looked, isComponent⟩ := Option.bind_eq_some_iff.mp found
  have listed := Keyed.mem_of_lookup looked
  rw [entries_synthesize h] at listed
  obtain ⟨call, mem, published⟩ := List.mem_filterMap.mp listed
  obtain ⟨surface, surfaced, entry⟩ := Option.map_eq_some_iff.mp published
  cases entry
  split at isComponent
  next creates =>
    cases isComponent
    rcases List.mem_append.mp mem with mixin | component
    · rw [not_isComponent_of_mixins mixin] at creates
      cases creates
    · exact ⟨call, component, surface, surfaced, rfl, rfl⟩
  next => cases isComponent

/-- A component of the table is that of a call of its name. -/
theorem component?_synthesize (h : registry.WellFormed)
    (found : (synthesize registry options resolved).table.component? name = some component) :
    ∃ call ∈ registry.calls, ∃ surface, resolved.surface? call.id = some surface ∧
      call.name = name ∧ component = componentType registry options call surface := by
  obtain ⟨call, mem, made⟩ := component?_components h found
  exact ⟨call, List.mem_of_mem_filter mem, made⟩

/-- A component of the table is there under its own name. -/
theorem component?_self (h : registry.WellFormed)
    (found : (synthesize registry options resolved).table.component? name = some component) :
    (synthesize registry options resolved).table.component? component.name = some component := by
  obtain ⟨call, -, surface, -, named, rfl⟩ := component?_synthesize h found
  rw [← named] at found
  exact found

/-- The table has the type of a call under the name of the call. -/
theorem get?_published (h : registry.WellFormed) {call : FactoryCall}
    (mem : call ∈ registry.mixins ++ registry.components) {entry : String × NominalType}
    (published : publishedAs? registry options resolved call = some entry) :
    (synthesize registry options resolved).table.types.get? call.name = some entry.2 := by
  have recorded : ∀ {call}, call ∈ registry.mixins ++ registry.components →
      call ∈ registry.calls :=
    fun mem => (List.mem_append.mp mem).elim List.mem_of_mem_filter List.mem_of_mem_filter
  have named : ∀ {call entry}, publishedAs? registry options resolved call = some entry →
      call.name = entry.1 := by
    intro call entry published
    obtain ⟨surface, -, rfl⟩ := Option.map_eq_some_iff.mp published
    rfl
  have listed : call.name ∈ (synthesize registry options resolved).table.types.keys := by
    rw [Keyed.keys, entries_synthesize h, named published]
    exact List.mem_map_of_mem (List.mem_filterMap.mpr ⟨call, mem, published⟩)
  obtain ⟨type, looked⟩ := Keyed.mem_keys_iff.mp listed
  have holds := Keyed.mem_of_lookup looked
  rw [entries_synthesize h] at holds
  obtain ⟨holder, holderMem, also⟩ := List.mem_filterMap.mp holds
  obtain rfl : holder = call :=
    List.inj_on_of_nodup_map h.named (recorded holderMem) (recorded mem) (named also)
  cases published.symm.trans also
  exact looked

/-- A component is published under its own name. -/
theorem component?_eq_some_iff (h : registry.WellFormed) :
    (synthesize registry options resolved).table.component? name = some component ↔
      component ∈ (synthesize registry options resolved).table.components ∧
        component.name = name := by
  rw [mem_components_iff h]
  constructor
  · intro found
    obtain ⟨call, mem, surface, surfaced, rfl, rfl⟩ := component?_components h found
    exact ⟨⟨call, mem, surface, surfaced, rfl⟩, rfl⟩
  · rintro ⟨⟨call, mem, surface, surfaced, rfl⟩, rfl⟩
    have entry : publishedAs? registry options resolved call = some (call.name,
        .component (componentType registry options call surface)) := by
      rw [publishedAs?, surfaced, Option.map_some, if_pos (List.mem_filter.mp mem).2]
    exact Option.bind_eq_some_iff.mpr
      ⟨_, get?_published h (List.mem_append_right _ mem) entry, rfl⟩

/-- A published component shows the number and the name of its call. -/
theorem exists_call_of_published (h : registry.WellFormed)
    (published : component ∈ (synthesize registry options resolved).table.components) :
    ∃ call ∈ registry.components, call.id = component.id ∧ call.name = component.name := by
  obtain ⟨call, mem, surface, -, rfl⟩ := (mem_components_iff h).mp published
  exact ⟨call, mem, rfl, rfl⟩

end Published

section Types

variable {registry : Registry} {options : Options} {call : FactoryCall} {surface : Surface}

/-! ## Props -/

/-- The type that is shown for a prop is well-keyed. -/
theorem propType?_wellKeyed {prop : PropDef}
    (typed : (∀ type, prop.documented = some type → type.WellKeyed) ∧
      prop.validator.toType.WellKeyed) {found : Ty × Bool} (shown : propType? prop = some found) :
    found.1.WellKeyed := by
  unfold propType? at shown
  split at shown
  · rename_i type documented
    cases shown
    exact typed.1 type documented
  · split at shown
    · cases shown
      exact typed.2
    · cases shown

/-- The field of a prop has a well-keyed type. -/
theorem propField_wellKeyed {prop : PropDef}
    (typed : (∀ type, prop.documented = some type → type.WellKeyed) ∧
      prop.validator.toType.WellKeyed) : (propField registry call surface prop).type.WellKeyed := by
  unfold propField
  cases shown : propType? prop with
  | none => exact .unknown
  | some found => exact propType?_wellKeyed typed shown

/-- The types of all props are such that no comparison depends on the order of fields. -/
theorem fieldType_wellKeyed (typed : call.spec.WellTyped) {name : String} {field : PropField}
    (found : (componentProps registry options call surface).field? name = some field) :
    field.type.WellKeyed := by
  have added : ∀ {declared : Keyed PropField}, (∀ entry ∈ declared.entries, entry.2.type.WellKeyed) →
      (declared.insertNew "children" childrenField).get? name = some field →
        field.type.WellKeyed := by
    intro declared each found
    rcases Keyed.mem_insertNew (Keyed.mem_of_lookup found) with same | earlier
    · cases same
      exact .renderable
    · exact each _ earlier
  unfold componentProps at found
  split at found
  · rename_i declared checked
    apply added _ found
    intro entry listed
    obtain ⟨prop, mem, rfl⟩ := List.mem_map.mp listed
    have given : call.spec.propTypes = some declared := by
      unfold checkedProps? at checked
      split at checked
      · exact checked
      · cases checked
    exact propField_wellKeyed (typed.props declared given prop.2 (List.mem_map_of_mem mem))
  · exact added (by simp [Keyed.empty]) found

/-! ## State -/

/-- The record of a known state is well-keyed. -/
theorem stateFields?_wellKeyed (typed : registry.WellTyped) {origin : Nat} {fields : List Field}
    (known : stateFields? registry origin = some fields) : (Ty.record fields).WellKeyed := by
  unfold stateFields? at known
  split at known
  · rename_i hint hinted
    obtain ⟨call, recorded, given⟩ := Option.bind_eq_some_iff.mp hinted
    have keyed := ((typed call (Registry.mem_of_get? recorded)).state hint given).nonNullish
    split at known
    · rename_i others record
      cases known
      rw [record] at keyed
      exact keyed
    · cases known
  · cases known

/-- The records of all definitions written one over another have distinct names. -/
theorem state_wellKeyed (typed : registry.WellTyped) {state : List Field}
    (known : componentState registry surface = some state) : (Ty.record state).WellKeyed := by
  unfold componentState at known
  split at known
  · cases known
  · obtain ⟨records, read, rfl⟩ := Option.map_eq_some_iff.mp known
    apply List.foldlRecOn records _ (motive := fun fields => (Ty.record fields).WellKeyed)
    · exact Ty.WellKeyed.spelled.noFields
    · intro fields keyed later mem
      obtain ⟨definition, -, returned⟩ := exists_left_of_forall₂ (forall₂_of_mapM read) mem
      apply Ty.WellKeyed.spelled.extend keyed
      cases stateFields?_wellKeyed typed returned with
      | record types => exact types

/-! ## Methods -/

/-- An instance has every method that the library supplies. -/
theorem exists_suppliedMethod {name : String} (supplied : name ∈ instanceMethods.map Prod.fst) :
    ∃ method, (componentType registry options call surface).method? name = some method := by
  rw [method?_componentType, suppliedMethod?, if_pos supplied]
  cases (surfaceMethods surface).get? name with
  | none => exact ⟨_, rfl⟩
  | some method => exact ⟨method, rfl⟩

/-- The methods that the library supplies have the signatures of its catalogue; an update, which a
component that renders purely is given too, has another. -/
theorem signature_of_builtin {name : String} {method : MethodType}
    (found : (componentType registry options call surface).method? name = some method)
    (noUpdate : name ≠ "shouldComponentUpdate") (builtin : method.source = .builtin) :
    method.signature = instanceSignature? name := by
  rw [method?_componentType] at found
  rcases Option.or_eq_some_iff.mp found with own | ⟨-, supplied⟩
  · obtain ⟨entry, -, made⟩ := List.mem_filterMap.mp (Keyed.mem_of_lookup own)
    obtain ⟨same, shown, named⟩ := Option.map_eq_some_iff.mp made
    cases named
    exact absurd builtin (memberMethod?_source shown)
  · unfold suppliedMethod? at supplied
    split at supplied
    · cases supplied
      rfl
    · rw [if_neg fun update => noUpdate update.2] at supplied
      cases supplied

end Types

end ClassFactory
