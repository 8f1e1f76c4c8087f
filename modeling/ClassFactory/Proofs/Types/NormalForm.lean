/-
Module: ClassFactory.Proofs.Types.NormalForm
Purpose: Every type that is read, admitted by a validator or inferred is in normal form: a union in it,
  at any depth, has several members, none of them a union or unconstrained, and no two of them equal.
  Joins are made so out of types that are so, and nothing else makes a union.
Main exports: Ty.Normal, Ty.Normal.join, Ty.Normal.spelled, Validator.toType_normal,
  ComponentType.Normal, Setting.Normal, types_normal
-/
import ClassFactory.Proofs.Types.Normalization
import ClassFactory.Proofs.Types.Sources
import ClassFactory.Proofs.Usage.Inferred

namespace ClassFactory

open Script (Expr)

/-- Types of which each union, at any depth, has at least two members, none of them a union or
unconstrained, and no two of them equal. -/
inductive Ty.Normal : Ty → Prop where
  | simple {type : Ty} (simple : type.isSimple = true) : Normal type
  | constructor (component : String) : Normal (.constructor component)
  | array {item : Ty} (ofItem : Normal item) : Normal (.array item)
  | map {value : Ty} (ofValue : Normal value) : Normal (.map value)
  | record {fields : List Field} (types : ∀ field ∈ fields, Normal field.type) :
      Normal (.record fields)
  | function {params : List Param} {returns : Ty} (types : ∀ param ∈ params, Normal param.type)
      (result : Normal returns) : Normal (.function params returns)
  | union {members : List Ty} (types : ∀ member ∈ members, Normal member)
      (several : 2 ≤ members.length)
      (flat : ∀ member ∈ members, member ≠ .unknown ∧ member.isUnion = false)
      (distinct : members.Pairwise fun one other => one.same other = false) :
      Normal (.union members)

/-! ## Joins -/

section Joins

variable {type : Ty} {types kept : List Ty}

/-- Members that are added differ from those that are there. -/
theorem addMembers_distinct (pieces : List Ty)
    (distinct : kept.Pairwise fun one other => one.same other = false) :
    (pieces.foldl Ty.addMember kept).Pairwise fun one other => one.same other = false := by
  induction pieces generalizing kept with
  | nil => exact distinct
  | cons piece rest ih =>
      apply ih
      by_cases present : kept.any (fun member => member.same piece) = true
      · rw [addMember_of_present present]
        exact distinct
      · rw [addMember_of_absent present, List.pairwise_append]
        refine ⟨distinct, List.pairwise_singleton _ _, ?_⟩
        intro one mem other here
        rw [List.mem_singleton.mp here]
        simp only [List.any_eq_true, not_exists, not_and, Bool.not_eq_true] at present
        exact present one mem

namespace Ty.Normal

/-- A type in normal form is flat. -/
theorem flat (normal : type.Normal) : type.Flat := by
  rintro members rfl
  cases normal with
  | simple simple => cases simple
  | union _ several flat => exact ⟨List.ne_nil_of_length_pos (by omega), flat⟩

theorem memberTypes (normal : (Ty.union types).Normal) : ∀ type ∈ types, type.Normal := by
  cases normal with
  | union types => exact types
  | simple simple => cases simple

/-- The parts of a type in normal form are in normal form. -/
theorem parts (normal : type.Normal) : ∀ part ∈ type.parts, part.Normal := by
  cases type with
  | union members => exact normal.memberTypes
  | _ => exact List.forall_mem_singleton.mpr normal

/-- A join of types in normal form is in normal form. -/
theorem join (normal : ∀ type ∈ types, type.Normal) : (Ty.join types).Normal := by
  by_cases known : .unknown ∈ types
  · rw [join_of_unknown known]
    exact .simple rfl
  have each : ∀ member ∈ (types.flatMap Ty.parts).foldl Ty.addMember [],
      member.Normal ∧ member ≠ .unknown ∧ member.isUnion = false := by
    intro member mem
    rcases mem_addMembers mem with none | listed
    · cases none
    · obtain ⟨type, within, part⟩ := List.mem_flatMap.mp listed
      have ofType := normal type within
      exact ⟨ofType.parts member part,
        ofType.flat.parts (ne_of_mem_of_not_mem within known) member part⟩
  have distinct := addMembers_distinct (types.flatMap Ty.parts) List.Pairwise.nil
  rw [join_eq known]
  generalize (types.flatMap Ty.parts).foldl Ty.addMember [] = members at each distinct
  rcases members with _ | ⟨first, _ | ⟨second, rest⟩⟩
  · exact .simple rfl
  · exact (each first List.mem_cons_self).1
  · exact .union (fun member mem => (each member mem).1) (by simp)
      (fun member mem => (each member mem).2) distinct

end Ty.Normal

end Joins

/-! ## Types that are read -/

section Fields

variable {field : Field} {fields : List Field}

namespace Ty.Normal

theorem fieldTypes (normal : (Ty.record fields).Normal) : ∀ field ∈ fields, field.type.Normal := by
  cases normal with
  | record types => exact types
  | simple simple => cases simple

/-- Writing a field of a normal type into a normal record gives a normal record. -/
theorem insert (normal : (Ty.record fields).Normal) (ofField : field.type.Normal) :
    (Ty.record (Fields.insert field fields)).Normal := by
  apply Ty.Normal.record
  intro other mem
  rcases mem_insert mem with rfl | earlier
  · exact ofField
  · exact normal.fieldTypes other earlier

/-- What type expressions spell is in normal form. -/
theorem spelled : Ty.Spelled Ty.Normal where
  simple := .simple
  array := .array
  map := .map
  function := .function
  noFields := .record (by simp)
  insert := insert
  join := join

end Ty.Normal

end Fields

/-! ## Types that validators admit -/

namespace Validator

mutual
/-- A validator admits values of a type in normal form. -/
theorem toType_normal : (validator : Validator) → validator.toType.Normal
  | .scalar kind => Ty.Normal.spelled.scalarType kind
  | .arrayOf item => .array (toType_normal item)
  | .objectOf value => .map (toType_normal value)
  | .instanceOf _ | .unresolved => .simple rfl
  | .oneOf values => Ty.Normal.spelled.literals values
  | .oneOfType alternatives => .join (allTypes_normal alternatives)
  | .shape fields => .record (shapeTypes_normal fields)
  | .required inner => toType_normal inner

theorem allTypes_normal : (validators : List Validator) → ∀ type ∈ allTypes validators, type.Normal
  | [] => by simp [allTypes]
  | validator :: rest => List.forall_mem_cons.mpr ⟨toType_normal validator, allTypes_normal rest⟩

theorem fieldType_normal : (field : ShapeField) → (fieldType field).type.Normal
  | .mk _ validator => toType_normal validator

theorem shapeTypes_normal : (fields : List ShapeField) →
    ∀ field ∈ shapeTypes fields, field.type.Normal
  | [] => by simp [shapeTypes]
  | field :: rest => List.forall_mem_cons.mpr ⟨fieldType_normal field, shapeTypes_normal rest⟩
end

end Validator

/-! ## Types that are inferred -/

/-- The types of all that users see of a component are in normal form. -/
structure ComponentType.Normal (component : ComponentType) : Prop where
  props : ∀ entry ∈ component.props.fields.entries, entry.2.type.Normal
  state : ∀ fields, component.state = some fields → (Ty.record fields).Normal
  fields : ∀ entry ∈ component.fields.entries, entry.2.Normal
  methods : ∀ entry ∈ component.methods.entries, ∀ signature, entry.2.signature = some signature →
    signature.toType.Normal
  statics : ∀ entry ∈ component.statics.entries, entry.2.type.Normal

/-- The types of the variables around an expression, and those of the known components, are in normal
form. -/
structure Setting.Normal (setting : Setting) : Prop where
  scopes : ∀ scope ∈ setting.scopes, ∀ entry ∈ scope, entry.2.Normal
  components : ∀ name component, setting.table.component? name = some component → component.Normal

namespace ComponentType.Normal

variable {component : ComponentType} (normal : component.Normal)

include normal

/-- The signature that is found for a method is in normal form. -/
theorem method {name : String} {signature : Signature}
    (found : (component.method? name).bind MethodType.signature = some signature) :
    signature.toType.Normal := by
  obtain ⟨method, listed, signed⟩ := Option.bind_eq_some_iff.mp found
  exact normal.methods (name, method) (Keyed.mem_of_lookup listed) signature signed

/-- The type of a static is in normal form. -/
theorem typeOfStatic (name : String) : (typeOfStatic component name).Normal := by
  unfold ClassFactory.typeOfStatic
  cases found : component.static? name with
  | none => exact .simple rfl
  | some static => exact normal.statics (name, static) (Keyed.mem_of_lookup found)

/-- The type of a property of an instance is in normal form. -/
theorem memberOfInstance (property : String) : (memberOfInstance component property).Normal := by
  unfold ClassFactory.memberOfInstance
  split
  · apply Ty.Normal.record
    intro field mem
    obtain ⟨entry, listed, rfl⟩ := List.mem_map.mp mem
    exact normal.props entry listed
  · split
    · cases known : component.state with
      | none => exact .simple rfl
      | some fields => exact normal.state fields known
    · split
      next type found => exact normal.fields (property, type) (Keyed.mem_of_lookup found)
      next =>
        cases signed : (component.method? property).bind MethodType.signature with
        | none => exact .simple rfl
        | some signature => exact normal.method signed

end ComponentType.Normal

/-- The result of a normal function type is in normal form. -/
theorem Ty.Normal.returns {params : List Param} {returns : Ty}
    (normal : (Ty.function params returns).Normal) : returns.Normal := by
  cases normal with
  | function _ result => exact result
  | simple simple => cases simple

namespace Setting.Normal

variable {setting : Setting} (normal : setting.Normal)

include normal

/-- A component that a type has as its instances has types in normal form only. -/
theorem instanceOf? {type : Ty} {component : ComponentType}
    (found : setting.instanceOf? type = some component) : component.Normal := by
  unfold Setting.instanceOf? at found
  split at found
  next name _ => exact normal.components name component found
  next => cases found

/-- A component that a type constructs has types in normal form only. -/
theorem constructorOf? {type : Ty} {component : ComponentType}
    (found : setting.constructorOf? type = some component) : component.Normal := by
  unfold Setting.constructorOf? at found
  split at found
  next name => exact normal.components name component found
  next => cases found

/-- The type that calling a method gives is in normal form. -/
theorem returnType (receiver : Ty) (property : String) :
    (setting.returnType receiver property).Normal := by
  unfold Setting.returnType
  split
  next component found =>
    cases signed : (component.method? property).bind MethodType.signature with
    | none => exact .simple rfl
    | some signature => exact ((normal.instanceOf? found).method signed).returns
  next =>
    split
    next component found =>
      cases signed : (component.static? property).bind fun s => s.type.signature? with
      | none => exact .simple rfl
      | some signature =>
          obtain ⟨static, listed, shape⟩ := Option.bind_eq_some_iff.mp signed
          have ofStatic := (normal.constructorOf? found).statics (property, static)
            (Keyed.mem_of_lookup listed)
          dsimp only at ofStatic
          unfold Ty.signature? at shape
          split at shape
          next params returns ofFunction =>
            cases shape
            rw [ofFunction] at ofStatic
            exact ofStatic.returns
          next => cases shape
    next => exact .simple rfl

/-- What is inferred among types in normal form is in normal form. -/
theorem infers : setting.Infers Ty.Normal where
  toSpelled := Ty.Normal.spelled
  fields := .fieldTypes
  members := .memberTypes
  scopes := normal.scopes
  constructor _ := .constructor _
  ofInstance found := (normal.instanceOf? found).memberOfInstance
  ofConstructor found := (normal.constructorOf? found).typeOfStatic
  result := normal.returnType

end Setting.Normal

/-- Every type that is read, admitted by a validator, or inferred among types in normal form is in
normal form. -/
theorem types_normal {setting : Setting} (normal : setting.Normal) :
    (∀ text, (readType text).Normal) ∧
    (∀ options e, (Validator.ofExpr options e).toType.Normal) ∧
    ∀ e, (setting.infer e).Normal :=
  ⟨Ty.Normal.spelled.readDeclaredType, fun _ _ => Validator.toType_normal _,
    infer_holds normal.infers⟩

/-- A component whose value may be absent, and is a number or a text otherwise. -/
def meter : ComponentType :=
  { (default : ComponentType) with
    name := "Meter"
    props :=
      { fields := .ofList [("value", { (default : PropField) with
          type := .union [.number, .string], required := false })]
        isDeclared := true }
    state := some [.mk "shown" (.array .string) false] }

/-- Inside of the component, next to a variable that is a number or `null`. -/
def meterSetting : Setting :=
  { table := (TypeTable.empty.register (.component meter)).1, options := .standard
    scopes := [[("size", .union [.number, .null])]], self := some meter }

theorem meter_normal : meter.Normal where
  props := by
    intro entry listed
    rw [List.mem_singleton.mp listed]
    refine .union ?_ (by decide) (by simp [Ty.isUnion]) (by simp [Ty.same])
    simpa using ⟨.simple rfl, .simple rfl⟩
  state := by
    rintro fields ⟨⟩
    exact .record (by simpa [Field.type] using .array (.simple rfl))
  fields := fun _ none => by cases none
  methods := fun _ none => by cases none
  statics := fun _ none => by cases none

theorem meterSetting_normal : meterSetting.Normal where
  scopes := by
    intro scope within entry bound
    rw [List.mem_singleton.mp within] at bound
    rw [List.mem_singleton.mp bound]
    refine .union ?_ (by decide) (by simp [Ty.isUnion]) (by simp [Ty.same])
    simpa using ⟨.simple rfl, .simple rfl⟩
  components := by
    intro name component found
    obtain ⟨type, looked, isComponent⟩ := Option.bind_eq_some_iff.mp found
    have listed : (name, type) ∈ [("Meter", NominalType.component meter)] :=
      Keyed.mem_of_lookup looked
    cases List.mem_singleton.mp listed
    cases isComponent
    exact meter_normal

/-- Among these types the value or the size, whichever is asked for, is in normal form. -/
theorem types_normal_meter :
    meterSetting.Normal ∧
    (∀ text, (readType text).Normal) ∧
    (∀ options e, (Validator.ofExpr options e).toType.Normal) ∧
    ∀ e, (meterSetting.infer e).Normal :=
  ⟨meterSetting_normal, types_normal meterSetting_normal⟩

example : meterSetting.infer
    (.conditional (.bool true default)
      (.member (.member (.this default) "props" default default) "value" default default)
      (.ident "size" default) default) =
    .union [.number, .string, .undefined, .null] := by
  rfl

end ClassFactory
