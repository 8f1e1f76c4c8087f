/-
Module: ClassFactory.Proofs.Usage.Inferred
Purpose: Where inferred types come from. They are made as type expressions make theirs, taken out of
  records and unions, or those of known components and of variables. A property that all of these keep
  is one of every inferred type, however the expression is nested.
Main exports: Setting.Infers, Setting.Infers.memberType, infer_holds
-/
import ClassFactory.Proofs.Types.Sources
import ClassFactory.Usage.Infer

namespace ClassFactory

open Script (Expr Item Property)

variable {setting : Setting} {holds : Ty → Prop}

/-- The property holds of whatever is inferred in the setting. -/
structure Setting.Infers (setting : Setting) (holds : Ty → Prop) : Prop extends
    Ty.Spelled holds where
  fields : ∀ {fields : List Field}, holds (.record fields) → ∀ field ∈ fields, holds field.type
  members : ∀ {members : List Ty}, holds (.union members) → ∀ member ∈ members, holds member
  scopes : ∀ scope ∈ setting.scopes, ∀ entry ∈ scope, holds entry.2
  constructor : ∀ {name : String}, setting.isComponent name = true → holds (.constructor name)
  ofInstance : ∀ {type : Ty} {component : ComponentType}, setting.instanceOf? type = some component →
    ∀ property, holds (memberOfInstance component property)
  ofConstructor : ∀ {type : Ty} {component : ComponentType},
    setting.constructorOf? type = some component → ∀ property, holds (typeOfStatic component property)
  result : ∀ receiver property, holds (setting.returnType receiver property)

/-! ## Variables and members -/

namespace Setting.Infers

variable (infers : setting.Infers holds)

include infers

/-- The type of a variable has the property, whether it is bound, registered or neither. -/
theorem variableType (name : String) : holds (setting.variableType name) := by
  unfold Setting.variableType
  split
  · exact infers.simple rfl
  · split
    next type found =>
      obtain ⟨scope, within, bound⟩ := List.exists_of_findSome?_eq_some found
      obtain ⟨later, earlier, rfl, -⟩ := List.lookup_eq_some_iff.mp bound
      exact infers.scopes _ within (name, type) (by simp)
    next =>
      split
      next known => exact infers.constructor known
      next => exact infers.simple rfl

/-- Taking away `null` and `undefined` keeps the property. -/
theorem nonNullish {type : Ty} (given : holds type) : holds type.nonNullish := by
  cases type with
  | union members =>
      exact infers.join fun member mem => infers.members given member (List.mem_of_mem_filter mem)
  | _ => exact given

/-- A member of a value with the property has it. -/
theorem memberOfValue {object : Ty} (given : holds object) (property : String) :
    holds (memberOfValue object property) := by
  unfold ClassFactory.memberOfValue
  have value := infers.nonNullish given
  split
  next fields shape =>
    rw [shape] at value
    split
    next field found =>
      have ofField := infers.fields value field (of_findField found).1
      split
      · exact infers.join (by simpa using ⟨ofField, infers.simple rfl⟩)
      · exact ofField
    next => exact infers.simple rfl
  next => split <;> exact infers.simple rfl
  next => split <;> exact infers.simple rfl

/-- So has a member of anything with the property, components included. -/
theorem memberType {object : Ty} (given : holds object) (property : String) :
    holds (setting.memberType object property) := by
  unfold Setting.memberType
  split
  next component found => exact infers.ofInstance found property
  next =>
    split
    next component found => exact infers.ofConstructor found property
    next => exact infers.memberOfValue given property

end Setting.Infers

/-! ## Types that no operand decides -/

/-- A unary operation gives a simple type. -/
theorem unaryType_isSimple (op : Script.UnaryOp) (operand : Expr) :
    (unaryType op operand).isSimple = true := by
  cases op with
  | negate =>
      rw [unaryType, negatedType]
      split <;> rfl
  | _ => rfl

/-- So does a binary operation. -/
theorem binaryType_isSimple (op : Script.BinaryOp) (left right : Ty) :
    (binaryType op left right).isSimple = true := by
  cases op with
  | add =>
      rw [binaryType, sumType]
      split
      · rfl
      · split <;> rfl
  | _ => rfl

theorem elementMadeBy_isSimple (type : Ty) : (elementMadeBy type).isSimple = true := by
  cases type <;> rfl

theorem mountedFrom_isSimple (type : Ty) : (mountedFrom type).isSimple = true := by
  cases type with
  | element component => cases component <;> rfl
  | _ => rfl

/-! ## Types of expressions -/

mutual
/-- The property holds of the type of every expression. -/
theorem infer_holds (infers : setting.Infers holds) : (e : Expr) → holds (setting.infer e)
  | .string _ _ | .number _ _ | .bool _ _ | .null _ | .template _ _ | .regex _ => infers.simple rfl
  | .paren inner _ => infer_holds infers inner
  | .ident name _ => infers.variableType name
  | .this _ => by
    rw [Setting.infer]
    cases setting.self with
    | none => exact infers.simple rfl
    | some component => exact infers.simple rfl
  | .member owner property _ _ => by
    have ofMember := infers.memberType (infer_holds infers owner) property
    rw [Setting.infer]
    split
    · split
      next known => exact infers.constructor known
      next => exact ofMember
    · exact ofMember
  | .array items _ => by
    have each := inferItems_holds infers items
    rw [Setting.infer]
    split
    next types found => exact infers.array (infers.join (each types found))
    next => exact infers.array (infers.simple rfl)
  | .object properties _ => by
    have each := inferProperties_holds infers properties
    rw [Setting.infer]
    split
    next fields found => exact infers.ofList (each fields found)
    next => exact infers.simple rfl
  | .unary op operand _ => infers.simple (unaryType_isSimple op operand)
  | .binary op _ _ _ => infers.simple (binaryType_isSimple op _ _)
  | .conditional _ consequent alternate _ => by
    have first := infer_holds infers consequent
    have second := infer_holds infers alternate
    rw [Setting.infer]
    exact infers.join (by simpa using ⟨first, second⟩)
  | .construct callee _ _ => by
    rw [Setting.infer]
    cases callee.qualifiedName? <;> exact infers.simple rfl
  | .call callee args _ => by
    have ofCall := inferCall_holds infers callee
    rw [Setting.infer]
    split
    · split
      · cases setting.inferFirst args with
        | none => exact infers.simple rfl
        | some tag => exact infers.simple (elementMadeBy_isSimple tag)
      · split
        · cases setting.inferFirst args with
          | none => exact infers.simple rfl
          | some element => exact infers.simple (mountedFrom_isSimple element)
        · exact ofCall
    · exact ofCall
  | .function _ _ _ | .arrow _ _ _ _ | .element _ _ _ _ _ | .fragment _ _ | .assign _ _ _
  | .other _ _ _ => infers.simple rfl

theorem inferCall_holds (infers : setting.Infers holds) :
    (callee : Expr) → holds (setting.inferCall callee)
  | .paren inner _ => inferCall_holds infers inner
  | .member _ property _ _ => infers.result _ property
  | .ident _ _ | .this _ | .string _ _ | .number _ _ | .bool _ _ | .null _ | .regex _
  | .template _ _ | .array _ _ | .object _ _ | .function _ _ _ | .arrow _ _ _ _ | .call _ _ _
  | .construct _ _ _ | .unary _ _ _ | .binary _ _ _ _ | .conditional _ _ _ _ | .assign _ _ _
  | .element _ _ _ _ _ | .fragment _ _ | .other _ _ _ => infers.simple rfl

theorem inferItem_holds (infers : setting.Infers holds) :
    (item : Item) → ∀ type, setting.inferItem item = some type → holds type
  | .value e => by
    rintro _ ⟨⟩
    exact infer_holds infers e
  | .spread _ _ | .hole => fun _ none => by cases none

theorem inferItems_holds (infers : setting.Infers holds) :
    (items : List Item) → ∀ types, setting.inferItems items = some types → ∀ type ∈ types, holds type
  | [] => by
    rintro _ ⟨⟩ type mem
    cases mem
  | item :: rest => by
    have ofItem := inferItem_holds infers item
    have ofRest := inferItems_holds infers rest
    intro types read
    rw [Setting.inferItems] at read
    split at read
    next type others here later =>
      cases read
      rw [List.forall_mem_cons]
      exact ⟨ofItem type here, ofRest others later⟩
    next => cases read

theorem inferProperty_holds (infers : setting.Infers holds) :
    (property : Property) → ∀ field, setting.inferProperty property = some field → holds field.type
  | .entry key value _ => by
    have ofValue := infer_holds infers value
    intro field read
    obtain ⟨name, -, rfl⟩ := Option.map_eq_some_iff.mp read
    exact ofValue
  | .spread _ _ => fun _ none => by cases none

theorem inferProperties_holds (infers : setting.Infers holds) :
    (properties : List Property) → ∀ fields,
      setting.inferProperties properties = some fields → ∀ field ∈ fields, holds field.type
  | [] => by
    rintro _ ⟨⟩ field mem
    cases mem
  | property :: rest => by
    have ofProperty := inferProperty_holds infers property
    have ofRest := inferProperties_holds infers rest
    intro fields read
    rw [Setting.inferProperties] at read
    split at read
    next field others here later =>
      cases read
      rw [List.forall_mem_cons]
      exact ⟨ofProperty field here, ofRest others later⟩
    next => cases read
end

end ClassFactory
