/-
Module: ClassFactory.Proofs.Factory.Declared
Purpose: The types that specifications declare. Reading a specification establishes that the types of
  its state and of its props name no field of a record twice, and a method that is declared apart
  changes neither; so this holds of every call of a compilation.
Main exports: FactorySpec.WellTyped, Registry.WellTyped, Registry.single_wellFormed,
  collectAll_wellTyped
-/
import ClassFactory.Proofs.Factory.Specified
import ClassFactory.Proofs.Types.Sources

namespace ClassFactory

open Script (Expr Property)

/-! ## Registries that are well typed -/

/-- The property holds of the specifications of all calls. -/
def Registry.AllSpecs (holds : FactorySpec → Prop) (registry : Registry) : Prop :=
  ∀ call ∈ registry.calls, holds call.spec

/-- The types of the state and of the props name no field of a record twice. -/
structure FactorySpec.WellTyped (spec : FactorySpec) : Prop where
  state : ∀ hint, spec.stateHint = some hint → hint.type.WellKeyed
  props : ∀ declared, spec.propTypes = some declared → ∀ prop ∈ declared.values,
    (∀ type, prop.documented = some type → type.WellKeyed) ∧ prop.validator.toType.WellKeyed

/-- The specifications of all calls are such. -/
def Registry.WellTyped (registry : Registry) : Prop :=
  registry.AllSpecs FactorySpec.WellTyped

namespace Registry

variable {call : FactoryCall}

/-- A registry of one call. -/
def single (call : FactoryCall) : Registry :=
  { Registry.empty with calls := [call] }

/-- A registry of one sound call is well-formed. -/
theorem single_wellFormed (first : call.id = 0) (spec : call.spec.WellFormed 0) :
    (single call).WellFormed where
  numbered := by
    intro index other found
    obtain ⟨bound, rfl⟩ := List.getElem?_eq_some_iff.mp found
    have zero : index = 0 := Nat.lt_one_iff.mp bound
    subst zero
    exact first
  named := List.nodup_singleton _
  specs := by
    intro other mem
    rw [List.mem_singleton.mp mem, first]
    exact spec

/-- A registry of one well-typed call is well-typed. -/
theorem single_wellTyped (typed : call.spec.WellTyped) : (single call).WellTyped := by
  intro other mem
  rw [List.mem_singleton.mp mem]
  exact typed

end Registry

/-! ## Reading a specification -/

section Specifications

variable {unit : SourceUnit} {owner : Nat} {spec result : FactorySpec}

/-- Whatever a documentation block says has well-keyed types. -/
theorem docAt_wellKeyed (offset : Nat) : (unit.docAt offset).WellKeyed :=
  docBlockAt_wellKeyed unit.text unit.comments offset

/-- Whether a specification is well-typed is told by its state and its props alone. -/
theorem FactorySpec.WellTyped.of_same (typed : spec.WellTyped)
    (state : result.stateHint = spec.stateHint) (props : result.propTypes = spec.propTypes) :
    result.WellTyped :=
  ⟨state ▸ typed.state, props ▸ typed.props⟩

/-- The type that a value shows is well-keyed. -/
theorem shownType_wellKeyed (e : Expr) : e.shownType.WellKeyed := by
  unfold Script.Expr.shownType
  split
  case h_5 => exact .array .unknown
  case h_9 =>
    split
    · exact .primitive _
    · exact .unknown
  all_goals constructor

theorem stateField?_wellKeyed {property : Property} {field : Field}
    (read : stateField? property = some field) : field.type.WellKeyed := by
  cases property with
  | entry key value span =>
      obtain ⟨name, -, rfl⟩ := Option.map_eq_some_iff.mp read
      exact shownType_wellKeyed value
  | spread => cases read

/-- A hint at the state is well-keyed, whether it comes from a block or from the value. -/
theorem stateHint?_wellKeyed {doc : DocBlock} (ofDoc : doc.WellKeyed) {value : Expr} {span : Span}
    {hint : StateHint} (given : stateHint? unit doc value span = some hint) :
    hint.type.WellKeyed := by
  unfold stateHint? at given
  split at given
  · rename_i type documented
    cases given
    exact ofDoc.returns type documented
  · obtain ⟨properties, -, given⟩ := Option.bind_eq_some_iff.mp given
    obtain ⟨fields, read, given⟩ := Option.bind_eq_some_iff.mp given
    cases given
    apply Ty.WellKeyed.spelled.ofList
    intro field mem
    obtain ⟨property, -, shown⟩ := exists_left_of_forall₂ (forall₂_of_mapM read) mem
    exact stateField?_wellKeyed shown

/-- The hints that a member gives keep a specification well-typed. -/
theorem enterHints_wellTyped (typed : spec.WellTyped) (name : String) {doc : DocBlock}
    (ofDoc : doc.WellKeyed) (value : Expr) (span : Span) :
    (enterHints unit spec name doc value span).WellTyped := by
  unfold enterHints
  split
  · split
    · exact typed.of_same rfl rfl
    · exact typed
  · exact ⟨fun hint given => stateHint?_wellKeyed ofDoc given, typed.props⟩
  · exact typed

/-- Declared props have well-keyed types, documented or validated. -/
theorem declaredProps?_wellKeyed {value : Expr} {declared : Keyed PropDef}
    (given : declaredProps? unit value = some declared) : ∀ prop ∈ declared.values,
      (∀ type, prop.documented = some type → type.WellKeyed) ∧
        prop.validator.toType.WellKeyed := by
  unfold declaredProps? at given
  split at given
  · rename_i properties _
    obtain ⟨entries, read, rfl⟩ := Option.map_eq_some_iff.mp given
    have sound : (Keyed.ofList entries).Sound fun _ prop =>
        (∀ type, prop.documented = some type → type.WellKeyed) ∧
          prop.validator.toType.WellKeyed := by
      refine List.foldlRecOn entries _ Keyed.Sound.empty fun _ keeps entry mem => keeps.insert ?_
      obtain ⟨property, -, defines⟩ := exists_left_of_forall₂ (forall₂_of_mapM read) mem
      cases property with
      | entry key value span =>
          obtain ⟨name, -, rfl⟩ := Option.map_eq_some_iff.mp defines
          refine ⟨?_, Validator.ofExpr_wellKeyed unit.options value⟩
          intro type documented
          obtain ⟨tag, tagged, rfl⟩ := Option.map_eq_some_iff.mp documented
          exact (docAt_wellKeyed span.start).typeTag tag tagged
      | spread => cases defines
    intro prop mem
    obtain ⟨entry, listed, rfl⟩ := List.mem_map.mp mem
    exact sound.values entry listed
  · cases given

/-- Statics keep a specification well-typed. -/
theorem FactorySpec.AddsStatics.wellTyped (adds : spec.AddsStatics owner result)
    (typed : spec.WellTyped) : result.WellTyped := by
  induction adds with
  | done => exact typed
  | next _ _ _ _ ih => exact ih.of_same rfl rfl

/-- Whatever a property makes of a specification is well-typed. -/
theorem SourceUnit.Enters.wellTyped {property : Property}
    (enters : unit.Enters owner spec property result) (typed : spec.WellTyped) :
    result.WellTyped := by
  cases enters with
  | statics _ adds => exact adds.wellTyped typed
  | propTypes => exact ⟨typed.state, fun declared given => declaredProps?_wellKeyed given⟩
  | member value span =>
      exact (enterHints_wellTyped typed _ (docAt_wellKeyed _) _ _).of_same rfl rfl
  | mixins | displayName | ignored => exact typed.of_same rfl rfl

/-- A specification that was read is well typed. -/
theorem buildSpec_wellTyped {kind : FactoryKind} {properties : List Property}
    (built : buildSpec unit owner kind properties = .ok spec) : spec.WellTyped := by
  have none : FactorySpec.empty.WellTyped :=
    ⟨by simp [FactorySpec.empty], by simp [FactorySpec.empty]⟩
  exact foldlM_preserves (fun _ _ _ typed entered => (enterProperty_ok entered).wellTyped typed)
    none built

end Specifications

/-- Whatever programs are collected, the types that their specifications declare name no field of a
record twice. -/
theorem collectAll_wellTyped (options : Options) (files : List ParsedFile) :
    (collectAll options files).WellTyped := by
  intro call recorded
  obtain ⟨parsed, -, properties, node, -, collected, declarations, specifies, declares⟩ :=
    exists_specifies recorded
  obtain ⟨members, count, rfl⟩ := declares.alike
  exact (buildSpec_wellTyped specifies.reads).of_same rfl rfl

end ClassFactory
