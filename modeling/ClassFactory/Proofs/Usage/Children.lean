/-
Module: ClassFactory.Proofs.Usage.Children
Purpose: A lone child, passed behind the props or among them. Among the props it may be `null` or
  `undefined` if the component does not require children; behind them it may not. The two ways are
  judged alike unless some alternatives of the child are `null` or `undefined` and stand in the way.
Main exports: accepted_assignable_iff, ChildDiverges, fits_alike_iff, elementProblems_nested,
  elementProblems_passed, lone_child_alike_iff
-/
import ClassFactory.Proofs.Component.Typed
import ClassFactory.Proofs.Usage.Constructions

namespace ClassFactory

open Script (Expr Item Property Key Tag Attribute Child)

/-! ## What a child fits -/

section Types

variable {type value target : Ty} {field : PropField}

/-- A value fits just if all of its alternatives do. -/
theorem assignable_iff_alternatives : value.assignable target = true ↔
    ∀ one : Ty, one.Alternative value → one.assignable target = true := by
  induction value using Ty.unionInduction with
  | single value single =>
      constructor
      · intro fits one alternative
        cases alternative with
        | itself => exact fits
        | member => cases single
      · intro all
        exact all value (.itself single)
  | union members ih =>
      rw [union_assignable_iff]
      constructor
      · intro fits one alternative
        rcases fits with rfl | fits
        · exact Ty.assignable_unknown one
        · cases alternative with
          | itself none => cases none
          | member mem within => exact (ih _ mem).mp (fits _ mem) one within
      · intro all
        right
        intro member mem
        rw [ih member mem]
        intro one within
        exact all one (.member mem within)

/-- A known value that is no union fits `null` or `undefined` just if it is nullish. -/
theorem assignable_nullish_iff (single : value.isUnion = false) (known : value ≠ .unknown) :
    (value.assignable .null = true ∨ value.assignable .undefined = true) ↔
      value.isNullish = true := by
  cases value with
  | unknown => exact absurd rfl known
  | union => cases single
  | element component =>
      cases component with
      | none => simp [Ty.assignable, Ty.anyAlternative, Ty.meets, Ty.isNullish]
      | some name => simp [Ty.assignable, Ty.anyAlternative, Ty.meets, Ty.isNullish]
  | _ => simp [Ty.assignable, Ty.anyAlternative, Ty.meets, Ty.isNullish]

/-- An alternative fits what a prop that need not be passed accepts, if it fits the type of the prop or
is `null` or `undefined`. -/
theorem assignable_join_nullish_iff (keyed : type.WellKeyed) (single : value.isUnion = false) :
    value.assignable (Ty.join [type, .null, .undefined]) = true ↔
      value.assignable type = true ∨ value.isNullish = true := by
  by_cases free : type = .unknown
  · rw [free, join_of_unknown List.mem_cons_self]
    simp
  by_cases known : value = .unknown
  · rw [known]
    simp [Ty.assignable]
  have each : ∀ one ∈ [type, .null, .undefined], one.WellKeyed := by
    simp only [List.mem_cons, List.not_mem_nil, or_false, forall_eq_or_imp, forall_eq]
    exact ⟨keyed, .null, .undefined⟩
  rw [assignable_join_iff single known each (by simpa using Ne.symm free) (by simp [Ty.parts]),
    ← assignable_nullish_iff single known]
  simp

/-- What is accepted in the place of a prop. -/
theorem accepted_assignable_iff (keyed : field.type.WellKeyed) :
    value.assignable field.accepted = true ↔
      ∀ one : Ty, one.Alternative value → one.assignable field.type = true ∨
        (field.required = false ∧ one.isNullish = true) := by
  rw [assignable_iff_alternatives]
  apply forall_congr'
  intro one
  apply forall_congr'
  intro alternative
  unfold PropField.accepted
  cases required : field.required with
  | true => simp
  | false => simpa using assignable_join_nullish_iff keyed alternative.isUnion

/-- What sets the two ways of passing a child apart: children are not required, some alternative of
the child is `null` or `undefined` and does not fit their type, and nothing else stands in the
way. -/
structure ChildDiverges (field : PropField) (value : Ty) : Prop where
  free : field.required = false
  absent : ∃ one : Ty, one.Alternative value ∧ one.isNullish = true ∧
    one.assignable field.type = false
  others : ∀ one : Ty, one.Alternative value → one.isNullish = false →
    one.assignable field.type = true

/-- The type of a prop and what is accepted in its place agree on all other values. -/
theorem fits_alike_iff (keyed : field.type.WellKeyed) :
    value.assignable field.type = value.assignable field.accepted ↔ ¬ ChildDiverges field value := by
  constructor
  · intro same diverges
    obtain ⟨one, alternative, -, misfit⟩ := diverges.absent
    have accepted : value.assignable field.accepted = true := by
      rw [accepted_assignable_iff keyed]
      intro other within
      cases nullish : other.isNullish with
      | true => exact .inr ⟨diverges.free, rfl⟩
      | false => exact .inl (diverges.others other within nullish)
    rw [accepted, assignable_iff_alternatives] at same
    rw [same one alternative] at misfit
    cases misfit
  · intro alike
    rw [Bool.eq_iff_iff, accepted_assignable_iff keyed, assignable_iff_alternatives]
    constructor
    · intro fits one alternative
      exact .inl (fits one alternative)
    · intro fits
      by_contra misfits
      simp only [not_forall, Bool.not_eq_true] at misfits
      obtain ⟨one, alternative, misfit⟩ := misfits
      have absent : field.required = false ∧ one.isNullish = true :=
        (fits one alternative).resolve_left (by simp [misfit])
      apply alike
      refine ⟨absent.1, ⟨one, alternative, absent.2, misfit⟩, ?_⟩
      intro other within notNullish
      exact (fits other within).resolve_right (by simp [notNullish])

end Types

/-! ## What is found of a child -/

/-- The props with a child added as the last of them. -/
def GivenProps.withChild (given : GivenProps) (child : FoundType) : GivenProps :=
  { given with entries := given.entries ++ [("children", child)] }

/-- The finding for a child that is compared with a type. -/
def childMismatch? (field : PropField) (expected : Ty) (child : FoundType) : List Diagnostic :=
  if child.type.assignable expected then [] else [propMismatch "children" field.type child]

section Findings

variable {component : ComponentType} {field : PropField} {given : GivenProps} {child : FoundType}
  {place : Site}

/-- The findings for what is missing when there is a child. -/
def missingBeside (component : ComponentType) (given : GivenProps) (place : Site) :
    List Diagnostic :=
  if !component.props.isDeclared || given.isOpen then []
  else
    component.props.fields.entries.filterMap fun (name, field) =>
      missingProblem? component given true place name field

/-- A child between the tags is compared with the bare type of the declared prop. -/
theorem elementProblems_nested (children : component.props.children? = some field) :
    elementProblems component given [child] place =
      given.entries.filterMap (givenProblem? component) ++
        childMismatch? field field.type child ++ missingBeside component given place := by
  unfold elementProblems childProblems
  rw [children]
  rfl

/-- A child that is passed as a prop is compared with what the prop accepts. -/
theorem givenProblem?_children (children : component.props.children? = some field) :
    (givenProblem? component ("children", child)).toList =
      childMismatch? field field.accepted child := by
  have accepts : component.props.accepts "children" = true := by
    simp [Props.accepts, reservedProps]
  unfold Props.children? at children
  simp only [givenProblem?, accepts, children, Option.bind_some, childMismatch?, if_true]
  split
  · rfl
  · rfl

/-- Every other prop is missing with the child as a prop just where it is with a child between the
tags. -/
theorem missingProblem?_withChild (name : String) (prop : PropField) :
    missingProblem? component (given.withChild child) false place name prop =
      missingProblem? component given true place name prop := by
  have has : (given.withChild child).has name =
      (given.has name || decide ("children" = name)) := by
    simp [GivenProps.has, GivenProps.withChild]
  unfold missingProblem?
  rw [has]
  by_cases same : name = "children"
  · simp [same]
  · simp [same, Ne.symm same]

theorem elementProblems_passed (children : component.props.children? = some field) :
    elementProblems component (given.withChild child) [] place =
      given.entries.filterMap (givenProblem? component) ++
        childMismatch? field field.accepted child ++ missingBeside component given place := by
  unfold elementProblems childProblems
  rw [children, ← givenProblem?_children children]
  simp only [List.isEmpty_nil, Bool.not_true, missingProblem?_withChild]
  have entries : (given.withChild child).entries.filterMap (givenProblem? component) =
      given.entries.filterMap (givenProblem? component) ++
        (givenProblem? component ("children", child)).toList := by
    rw [GivenProps.withChild, List.filterMap_append, List.filterMap_cons, List.filterMap_nil]
    cases givenProblem? component ("children", child) with
    | none => rfl
    | some problem => rfl
  rw [entries]
  simp only [List.filterMap_nil, List.append_nil]
  rfl

/-- A prop that is missing is never reported as one of a wrong type. -/
theorem missingProblem?_code_ne {hasChildren : Bool} {name : String} {prop : PropField}
    {problem : Diagnostic}
    (found : missingProblem? component given hasChildren place name prop = some problem) :
    problem.code ≠ .propTypeMismatch := by
  unfold missingProblem? at found
  split at found
  · cases found
  · split at found
    · split at found
      · cases found
      · cases found
        exact Ne.symm (by simp [Diagnostic.warning])
    · split at found
      · cases found
      · cases found
        simp [Diagnostic.error]

/-- What is missing is never of the wrong type. -/
theorem mismatch_notMem_missingBeside :
    DiagnosticCode.propTypeMismatch ∉ (missingBeside component given place).map Diagnostic.code := by
  unfold missingBeside
  split
  · simp
  · intro listed
    obtain ⟨problem, mem, code⟩ := List.mem_map.mp listed
    obtain ⟨entry, -, found⟩ := List.mem_filterMap.mp mem
    exact missingProblem?_code_ne found code

end Findings

/-- Where a child stands does not matter to the code of what is found of it. -/
theorem childMismatch?_codes (field : PropField) (expected type : Ty) (site : Site) :
    (childMismatch? field expected ⟨type, site⟩).map Diagnostic.code =
      if type.assignable expected then [] else [.propTypeMismatch] := by
  unfold childMismatch?
  dsimp only
  split
  · rfl
  · rfl

section Alike

variable {component : ComponentType} {field : PropField} {given : GivenProps} {type : Ty}

/-- The codes of what is found of a construction with a lone child, in either place. -/
def loneChildCodes (component : ComponentType) (given : GivenProps) (expected type : Ty)
    (place : Site) : List DiagnosticCode :=
  (given.entries.filterMap (givenProblem? component)).map Diagnostic.code ++
    (if type.assignable expected then [] else [.propTypeMismatch]) ++
    (missingBeside component given place).map Diagnostic.code

/-- The codes tell two expected types apart only if the child fits one and not the other. -/
theorem loneChildCodes_eq_iff {expected accepted : Ty} {place : Site} :
    loneChildCodes component given expected type place =
        loneChildCodes component given accepted type place ↔
      type.assignable expected = type.assignable accepted := by
  unfold loneChildCodes
  rw [List.append_left_inj, List.append_right_inj]
  cases type.assignable expected <;> cases type.assignable accepted <;> simp

theorem mismatch_mem_loneChildCodes {expected : Ty} {place : Site} :
    .propTypeMismatch ∈ loneChildCodes component given expected type place ↔
      .propTypeMismatch ∈
          (given.entries.filterMap (givenProblem? component)).map Diagnostic.code ∨
        type.assignable expected = false := by
  unfold loneChildCodes
  rw [List.mem_append, List.mem_append, or_iff_left mismatch_notMem_missingBeside]
  cases type.assignable expected <;> simp

end Alike

/-! ## The two ways of passing a child -/

/-- The expression lists these props and no others. -/
inductive PropsLiteral : Expr → List Property → Prop where
  | null (span : Span) : PropsLiteral (.null span) []
  | object (properties : List Property) (span : Span) :
      PropsLiteral (.object properties span) properties

/-- An element that is constructed with a lone child behind its props, and with the same child as the
last of its props: its type, its other props, and the states after either check. -/
inductive LoneChild (context : UsageContext) (usage : Usage) (e : Expr) :
    Ty → GivenProps → Usage → Usage → Prop where
  | called {props : Expr} {properties : List Property} {key : Key} (tag : Expr)
      (literal : PropsLiteral props properties) (named : key.name? = some "children")
      (entrySpan objectSpan span : Span) :
      LoneChild context usage e ((usage.setting context).elementOf tag)
        (usage.givenProps context (some props))
        (usage.checkConstruction context [.value tag, .value props, .value e] span)
        (usage.checkConstruction context
          [.value tag, .value (.object (properties ++ [.entry key e entrySpan]) objectSpan)] span)
  | tagged (tag : Tag) (attributes : List Attribute) (childSpan attributeSpan span : Span) :
      LoneChild context usage e ((usage.setting context).taggedElement tag)
        (writtenProps context usage attributes)
        (usage.checkTagged context tag attributes [.value e childSpan] span)
        (usage.checkTagged context tag (attributes ++ [.named "children" e attributeSpan]) [] span)

section Ways

variable {context : UsageContext} {usage : Usage} {e : Expr} {component : ComponentType}

/-- A property `children` that is written last is added to the props that are given. -/
theorem givenProps_withChild {props : Expr} {properties : List Property} {key : Key}
    (literal : PropsLiteral props properties) (named : key.name? = some "children")
    (entrySpan objectSpan : Span) :
    usage.givenProps context (some (.object (properties ++ [.entry key e entrySpan]) objectSpan)) =
      (usage.givenProps context (some props)).withChild
        ⟨(usage.setting context).infer e, context.unit.site key.span⟩ := by
  have child : usage.givenField? context (.entry key e entrySpan) =
      some ("children", ⟨(usage.setting context).infer e, context.unit.site key.span⟩) := by
    rw [Usage.givenField?, named]
    rfl
  cases literal with
  | null span =>
      simp only [Usage.givenProps, Option.map_some, Expr.unparen, List.nil_append, List.map_cons,
        List.map_nil, child]
      rfl
  | object properties span =>
      simp only [Usage.givenProps, Option.map_some, Expr.unparen, List.map_append, List.map_cons,
        List.map_nil, child, List.filterMap_append, List.any_append]
      simp [GivenProps.withChild]

/-- What either way of passing the child adds. -/
theorem LoneChild.adds {made : Ty} {given : GivenProps} {nested passed : Usage}
    (lone : LoneChild context usage e made given nested passed)
    (ofComponent : Usage.elementComponent? context made = some component) :
    ∃ site place entryPlace,
      usage.Adds nested [(site, made)] (elementProblems component given
        [⟨(usage.setting context).infer e, place⟩] site).reverse ∧
      usage.Adds passed [(site, made)] (elementProblems component
        (given.withChild ⟨(usage.setting context).infer e, entryPlace⟩) [] site).reverse := by
  cases lone with
  | @called props properties key tag literal named entrySpan objectSpan span =>
      refine ⟨context.unit.site span, context.unit.site e.span, context.unit.site key.span, ?_, ?_⟩
      · unfold Usage.checkConstruction
        dsimp only
        rw [ofComponent]
        exact ⟨rfl, rfl⟩
      · unfold Usage.checkConstruction
        dsimp only
        rw [ofComponent, ← givenProps_withChild literal named entrySpan objectSpan]
        exact ⟨rfl, rfl⟩
  | tagged tag attributes childSpan attributeSpan span =>
      refine ⟨context.unit.site span, context.unit.site childSpan, context.unit.site attributeSpan,
        ?_, ?_⟩
      · unfold Usage.checkTagged
        dsimp only
        rw [ofComponent]
        exact ⟨rfl, rfl⟩
      · have given : writtenProps context usage (attributes ++ [.named "children" e attributeSpan]) =
            (writtenProps context usage attributes).withChild
              ⟨(usage.setting context).infer e, context.unit.site attributeSpan⟩ := by
          simp [writtenProps, GivenProps.withChild, Usage.givenAttribute?, Usage.isOpenAttribute]
        rw [← given]
        unfold Usage.checkTagged
        dsimp only
        rw [ofComponent]
        exact ⟨rfl, rfl⟩

end Ways

/-- A lone child is judged the same behind the props and as the last of them, code for code, just if it
does not diverge: just if children are required, or none of its alternatives is a `null` or
`undefined` that does not fit their type, or some other alternative does not fit it either. Whether
there is a finding about a type at all then differs unless another prop has one. -/
theorem lone_child_alike_iff {registry : Registry} {options : Options} {context : UsageContext}
    (h : registry.WellFormed) (typed : registry.WellTyped)
    (published : context.table =
      (synthesize registry options (resolve registry options)).table)
    {usage nested passed : Usage} {e : Expr} {made : Ty} {given : GivenProps}
    {component : ComponentType} {field : PropField}
    (lone : LoneChild context usage e made given nested passed)
    (ofComponent : Usage.elementComponent? context made = some component)
    (children : component.props.children? = some field) :
    ∃ attached nestedFound passedFound,
      usage.Adds nested attached nestedFound ∧ usage.Adds passed attached passedFound ∧
      (nestedFound.reverse.map Diagnostic.code = passedFound.reverse.map Diagnostic.code ↔
        ¬ ChildDiverges field ((usage.setting context).infer e)) ∧
      ((.propTypeMismatch ∈ nestedFound.map Diagnostic.code ↔
          .propTypeMismatch ∈ passedFound.map Diagnostic.code) ↔
        .propTypeMismatch ∈
            (given.entries.filterMap (givenProblem? component)).map Diagnostic.code ∨
          ¬ ChildDiverges field ((usage.setting context).infer e)) := by
  have keyed : field.type.WellKeyed := by
    have inTable : ∃ name, context.table.component? name = some component := by
      unfold Usage.elementComponent? at ofComponent
      split at ofComponent
      · exact ⟨_, ofComponent⟩
      · cases ofComponent
    obtain ⟨name, found⟩ := inTable
    rw [published] at found
    obtain ⟨call, recorded, surface, -, -, rfl⟩ := component?_synthesize h found
    exact fieldType_wellKeyed (typed call recorded) children
  obtain ⟨site, place, entryPlace, addsNested, addsPassed⟩ := lone.adds ofComponent
  have nestedCodes : (elementProblems component given
      [⟨(usage.setting context).infer e, place⟩] site).map Diagnostic.code =
        loneChildCodes component given field.type ((usage.setting context).infer e) site := by
    rw [elementProblems_nested children, List.map_append, List.map_append, childMismatch?_codes]
    rfl
  have passedCodes : (elementProblems component
      (given.withChild ⟨(usage.setting context).infer e, entryPlace⟩) [] site).map Diagnostic.code =
        loneChildCodes component given field.accepted ((usage.setting context).infer e) site := by
    rw [elementProblems_passed children, List.map_append, List.map_append, childMismatch?_codes]
    rfl
  refine ⟨_, _, _, addsNested, addsPassed, ?_, ?_⟩
  · rw [List.reverse_reverse, List.reverse_reverse, nestedCodes, passedCodes,
      loneChildCodes_eq_iff, fits_alike_iff keyed]
  · rw [List.map_reverse, List.map_reverse, List.mem_reverse, List.mem_reverse, nestedCodes,
      passedCodes, mismatch_mem_loneChildCodes, mismatch_mem_loneChildCodes,
      ← fits_alike_iff keyed]
    cases ((usage.setting context).infer e).assignable field.type <;>
      cases ((usage.setting context).infer e).assignable field.accepted <;> simp

section Frame

/-- A call that makes a component with a `render`, whose children may be one element or nothing. -/
def frameCall : FactoryCall :=
  let render : SpecMember :=
    { definition := ⟨0, 0⟩, name := "render", site := default, kind := .method none 0 default,
      isPrivate := false }
  let children : PropDef :=
    { name := "children", site := default, validator := .scalar .element, documented := none }
  { id := 0, kind := .component, name := "Frame", site := default, declSite := default,
    specSite := default, exported := false,
    spec := { FactorySpec.empty with
              members := ⟨[("render", render)]⟩, propTypes := some ⟨[("children", children)]⟩,
              definitionCount := 1 } }

/-- The registry of that call. -/
def frameRegistry : Registry := .single frameCall

/-- What a check of a program with that component works with. -/
def frameContext : UsageContext :=
  { unit := { file := 0, text := [], comments := #[], options := .standard },
    table := (synthesize frameRegistry .standard (resolve frameRegistry .standard)).table,
    methods := [] }

/-- An element or `null`. -/
def elementOrNull : Expr :=
  .conditional (.ident "ready" default) (.fragment [] default) (.null default) default

theorem frameRegistry_wellFormed : frameRegistry.WellFormed := by
  apply Registry.single_wellFormed rfl
  refine ⟨⟨by decide, ?_⟩, .empty⟩
  intro entry listed
  rw [List.mem_singleton.mp listed]
  exact ⟨rfl, rfl⟩

theorem frameRegistry_wellTyped : frameRegistry.WellTyped := by
  apply Registry.single_wellTyped
  constructor
  · intro hint given
    cases given
  · intro declared given
    cases given
    intro prop listed
    rw [List.mem_singleton.mp listed]
    constructor
    · intro type documented
      cases documented
    · exact .element none

/-- Behind the props a child that may be `null` is found to be of the wrong type, and among the props
it is not. -/
theorem lone_child_alike_iff_frame :
    (frameRegistry.WellFormed ∧ frameRegistry.WellTyped) ∧
    ∃ (component : ComponentType) (field : PropField),
      component.props.children? = some field ∧
      ChildDiverges field ((Usage.start.setting frameContext).infer elementOrNull) ∧
      ∃ attached nestedFound passedFound,
        Usage.start.Adds (Usage.start.checkConstruction frameContext
          [.value (.ident "Frame" default), .value (.null default), .value elementOrNull] default)
          attached nestedFound ∧
        Usage.start.Adds (Usage.start.checkConstruction frameContext
          [.value (.ident "Frame" default),
            .value (.object [.entry (.named "children" default) elementOrNull default] default)]
          default) attached passedFound ∧
        ¬ (.propTypeMismatch ∈ nestedFound.map Diagnostic.code ↔
          .propTypeMismatch ∈ passedFound.map Diagnostic.code) := by
  refine ⟨⟨frameRegistry_wellFormed, frameRegistry_wellTyped⟩, ?_⟩
  have registered : (frameContext.table.component? "Frame").isSome = true := by decide
  obtain ⟨component, found⟩ := Option.isSome_iff_exists.mp registered
  have made : (Usage.start.setting frameContext).elementOf (.ident "Frame" default) =
      .element (some "Frame") := by
    have isComponent : (Usage.start.setting frameContext).isComponent "Frame" = true := registered
    have constructor : (Usage.start.setting frameContext).infer (.ident "Frame" default) =
        .constructor "Frame" := by
      change (Usage.start.setting frameContext).variableType "Frame" = _
      unfold Setting.variableType
      rw [if_neg (by decide), isComponent]
      rfl
    rw [Setting.elementOf, constructor]
    rfl
  have ofComponent : Usage.elementComponent? frameContext
      ((Usage.start.setting frameContext).elementOf (.ident "Frame" default)) =
        some component := by
    rw [made]
    exact found
  obtain ⟨field, children, type, free⟩ : ∃ field, component.props.children? = some field ∧
      field.type = .element none ∧ field.required = false := by
    obtain ⟨call, recorded, surface, -, -, rfl⟩ := component?_synthesize frameRegistry_wellFormed found
    rw [List.mem_singleton.mp recorded]
    exact ⟨_, rfl, rfl, rfl⟩
  have inferred : (Usage.start.setting frameContext).infer elementOrNull =
      .union [.element none, .null] := rfl
  have diverges : ChildDiverges field ((Usage.start.setting frameContext).infer elementOrNull) := by
    rw [inferred]
    refine ⟨free, ⟨.null, .member (by simp) (.itself rfl), rfl, by rw [type]; rfl⟩, ?_⟩
    intro one alternative notNullish
    cases alternative with
    | itself none => cases none
    | member mem within =>
        rcases List.mem_pair.mp mem with rfl | rfl
        · cases within with
          | itself =>
              rw [type]
              rfl
        · cases within with
          | itself => cases notNullish
  obtain ⟨attached, nestedFound, passedFound, nested, passed, -, differ⟩ :=
    lone_child_alike_iff frameRegistry_wellFormed frameRegistry_wellTyped rfl
      (LoneChild.called (e := elementOrNull) (.ident "Frame" default) (.null default)
        (rfl : (Key.named "children" default).name? = some "children") default default default)
      ofComponent children
  refine ⟨component, field, children, diverges, attached, nestedFound, passedFound, nested, passed, ?_⟩
  rw [differ]
  rintro (others | alike)
  · cases others
  · exact alike diverges

end Frame

end ClassFactory
