/-
Module: ClassFactory.Proofs.Usage.Acceptance
Purpose: What the two widest declarations of a prop accept. The validator `any` lists the types that it
  admits, and neither symbols nor renderable children are among them. Children may be nested in arrays
  and unions as deep as they like, but no child is a map, and so nothing is that holds one.
Main exports: assignable_any_iff, any_accepts_iff, Ty.Nested, Ty.HoldsMap, nested_child_accepted_iff
-/
import ClassFactory.Proofs.Usage.Children

namespace ClassFactory

/-! ## The validator `any` -/

section AnyValue

variable {value one : Ty}

/-- Of the types that are no unions, `any` leaves out `null`, `undefined`, symbols and the renderable
child. -/
theorem single_assignable_any_iff (single : one.isUnion = false) :
    one.assignable ScalarValidator.any.toType = true ↔
      one.isNullish = false ∧ one ≠ .primitive .symbol ∧ one ≠ .renderable := by
  have listed : ScalarValidator.any.toType = .union [.number, .string, .boolean, .anyObject] := rfl
  rw [listed]
  cases one with
  | union members => cases single
  | primitive kind =>
      cases kind <;>
        simp [Ty.assignable, Ty.anyAlternative, someAlternative, Ty.meets, Ty.isObject, Ty.isNullish]
  | literal value =>
      cases value <;>
        simp [Ty.assignable, Ty.anyAlternative, someAlternative, Ty.meets, Literal.primitive,
          Ty.isNullish]
  | _ =>
      simp [Ty.assignable, Ty.anyAlternative, someAlternative, Ty.meets, Ty.isObject, Ty.isNullish]

/-- The validator for anything takes a value unless one of its alternatives is nullish, a symbol or
what can be rendered. -/
theorem assignable_any_iff : value.assignable ScalarValidator.any.toType = true ↔
    ∀ one : Ty, one.Alternative value →
      one.isNullish = false ∧ one ≠ .primitive .symbol ∧ one ≠ .renderable := by
  rw [assignable_iff_alternatives]
  exact forall₂_congr fun one alternative => single_assignable_any_iff alternative.isUnion

/-- Only where the prop is not required may its value be `null` or `undefined`. -/
theorem accepted_any_iff {field : PropField} (any : field.type = ScalarValidator.any.toType) :
    value.assignable field.accepted = true ↔
      ∀ one : Ty, one.Alternative value →
        (field.required = true → one.isNullish = false) ∧ one ≠ .primitive .symbol ∧
          one ≠ .renderable := by
  have keyed : field.type.WellKeyed := any ▸ Ty.WellKeyed.spelled.scalarType .any
  rw [accepted_assignable_iff keyed]
  refine forall₂_congr fun one alternative => ?_
  rw [any, single_assignable_any_iff alternative.isUnion]
  cases nullish : one.isNullish with
  | false => simp
  | true =>
      have apart : one ≠ .primitive .symbol ∧ one ≠ .renderable := by
        constructor
        · rintro rfl
          cases nullish
        · rintro rfl
          cases nullish
      simp [apart]

end AnyValue

theorem accepts_of_field {props : Props} {name : String} {field : PropField}
    (declared : props.field? name = some field) : props.accepts name = true := by
  have present : props.fields.contains name = true := by
    rw [Keyed.contains]
    change (props.field? name).isSome = true
    rw [declared, Option.isSome_some]
  rw [Props.accepts, present, Bool.or_true]

/-- What fits `any`, and what is found of a prop that is declared so: of the values that are neither
`null` nor `undefined`, symbols and renderable children are refused, alone or as alternatives of a
union, and everything else is accepted. -/
theorem any_accepts_iff {component : ComponentType} {name : String} {field : PropField}
    (declared : component.props.field? name = some field)
    (any : field.type = ScalarValidator.any.toType) :
    (∀ value : Ty, value.assignable ScalarValidator.any.toType = true ↔
      ∀ one : Ty, one.Alternative value →
        one.isNullish = false ∧ one ≠ .primitive .symbol ∧ one ≠ .renderable) ∧
    ∀ found : FoundType, givenProblem? component (name, found) = none ↔
      ∀ one : Ty, one.Alternative found.type →
        (field.required = true → one.isNullish = false) ∧ one ≠ .primitive .symbol ∧
          one ≠ .renderable := by
  refine ⟨fun value => assignable_any_iff, fun found => ?_⟩
  rw [← accepted_any_iff any, givenProblem?, accepts_of_field declared, if_pos rfl, declared,
    Option.bind_some]
  by_cases fits : found.type.assignable field.accepted = true
  · simp [fits]
  · simp [fits]

/-- A prop that may be anything. -/
def contentField : PropField :=
  { type := ScalarValidator.any.toType, required := false, hasDefault := false, site := none }

/-- A component with that prop. -/
def holder : ComponentType :=
  { (default : ComponentType) with
    name := "Holder", props := { fields := .ofList [("content", contentField)], isDeclared := true } }

/-- A list of symbols is accepted, a symbol is not, and neither are children that are passed on. -/
theorem any_accepts_iff_holder :
    (holder.props.field? "content" = some contentField ∧
      contentField.type = ScalarValidator.any.toType) ∧
    (Ty.array (.primitive .symbol)).assignable ScalarValidator.any.toType = true ∧
    (Ty.primitive .symbol).assignable ScalarValidator.any.toType = false ∧
    givenProblem? holder ("content", ⟨.union [.anyFunction, .null], default⟩) = none ∧
    givenProblem? holder ("content", ⟨.renderable, default⟩) ≠ none := by
  have declared : holder.props.field? "content" = some contentField := rfl
  have found := any_accepts_iff declared rfl
  refine ⟨⟨declared, rfl⟩, ?_, ?_, ?_, ?_⟩
  · rw [found.1]
    rintro one ⟨⟩
    simp [Ty.isNullish]
  · rw [← Bool.not_eq_true, found.1]
    exact fun all => (all (.primitive .symbol) (.itself rfl)).2.1 rfl
  · rw [found.2]
    intro one alternative
    cases alternative with
    | itself none => cases none
    | member mem within =>
        rcases List.mem_pair.mp mem with rfl | rfl
        · cases within
          simp [Ty.isNullish]
        · cases within
          simp [contentField]
  · rw [Ne, found.2]
    exact fun all => (all .renderable (.itself rfl)).2.2 rfl

/-! ## Nested children -/

/-- Children as they are meant: scalars other than symbols, nothing, elements, whatever may stand as a
child, and collections of these in order or by key, however they are nested. -/
inductive Ty.Nested : Ty → Prop where
  | primitive {kind : Primitive} (visible : kind ≠ .symbol) : Nested (.primitive kind)
  | literal (value : Literal) : Nested (.literal value)
  | null : Nested .null
  | undefined : Nested .undefined
  | element (component : Option String) : Nested (.element component)
  | renderable : Nested .renderable
  | array {item : Ty} (ofItem : Nested item) : Nested (.array item)
  | map {value : Ty} (ofValue : Nested value) : Nested (.map value)
  | union {members : List Ty} (each : ∀ member ∈ members, Nested member) : Nested (.union members)

/-- A map is the type, or the type of the items of an array, or one of the alternatives. -/
inductive Ty.HoldsMap : Ty → Prop where
  | here (value : Ty) : HoldsMap (.map value)
  | array {item : Ty} (ofItem : HoldsMap item) : HoldsMap (.array item)
  | member {member : Ty} {members : List Ty} (mem : member ∈ members) (ofMember : HoldsMap member) :
      HoldsMap (.union members)

theorem holdsMap_array_iff {item : Ty} : (Ty.array item).HoldsMap ↔ item.HoldsMap := by
  constructor
  · rintro ⟨⟩
    assumption
  · exact .array

theorem holdsMap_union_iff {members : List Ty} :
    (Ty.union members).HoldsMap ↔ ∃ member ∈ members, member.HoldsMap := by
  constructor
  · intro holds
    cases holds with
    | member mem ofMember => exact ⟨_, mem, ofMember⟩
  · intro some
    obtain ⟨member, mem, ofMember⟩ := some
    exact .member mem ofMember

/-- Nested children are accepted as children if and only if no map is among them at any depth. -/
theorem nested_child_accepted_iff {type : Ty} (nested : type.Nested) :
    type.assignable .renderable = true ↔ ¬ type.HoldsMap := by
  rw [assignable_renderable]
  induction nested with
  | primitive visible => exact iff_of_true (decide_eq_true visible) (by rintro ⟨⟩)
  | array _ ih => rw [holdsMap_array_iff, ← ih, Ty.isRenderable]
  | map _ => exact iff_of_false Bool.false_ne_true (not_not_intro (.here _))
  | union _ ih =>
      rw [holdsMap_union_iff, Ty.isRenderable, allRenderable_iff]
      simp only [not_exists, not_and]
      exact forall₂_congr ih
  | _ => exact iff_of_true rfl (by rintro ⟨⟩)

/-- Rows of cells, each row by key. -/
def cells : Ty := .array (.union [.null, .map (.union [.element (some "Cell"), .string])])

theorem cells_nested : cells.Nested := by
  have cell : (Ty.union [.element (some "Cell"), .string]).Nested := by
    refine .union ?_
    simp only [List.mem_cons, List.not_mem_nil, or_false, forall_eq_or_imp, forall_eq]
    exact ⟨.element _, .primitive (by decide)⟩
  refine .array (.union ?_)
  simp only [List.mem_cons, List.not_mem_nil, or_false, forall_eq_or_imp, forall_eq]
  exact ⟨.null, .map cell⟩

/-- Cells by key are no children, wherever the map stands. -/
theorem nested_child_accepted_iff_cells :
    cells.Nested ∧ cells.assignable .renderable = false := by
  refine ⟨cells_nested, ?_⟩
  rw [← Bool.not_eq_true, nested_child_accepted_iff cells_nested, not_not]
  exact .array (.member (List.mem_cons_of_mem _ List.mem_cons_self) (.here _))

end ClassFactory
