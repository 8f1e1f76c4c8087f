/-
Module: ClassFactory.Proofs.Usage.StateWrites
Purpose: A field of the state that is written back with the value it was read with. The read gives
  `undefined` to a field that may be absent, and the write compares with the declared type alone; so
  such a field is found to be of the wrong type unless `undefined` fits its type.
Main exports: ReadsState, WritesBack, stateFieldProblem?_seen, suppliedSetState_takes,
  WritesBack.adds, written_back_accepted_iff
-/
import ClassFactory.Proofs.Component.Typed
import ClassFactory.Proofs.Types.Absence
import ClassFactory.Proofs.Usage.Constructions

namespace ClassFactory

open Script (Expr Item Property)

/-! ## Reading and writing -/

/-- The expression reads that field of the state of `this`. -/
inductive ReadsState (name : String) : Expr → Prop where
  | read (thisSpan stateSpan holderSpan nameSpan span : Span) :
      ReadsState name
        (.member (.member (.this thisSpan) "state" stateSpan holderSpan) name nameSpan span)

/-- The expression sets that field of the state of `this` to what it reads of it, and no other. -/
inductive WritesBack (name : String) : Expr → Prop where
  | write {value : Expr} (reads : ReadsState name value)
      (thisSpan methodSpan calleeSpan keySpan entrySpan objectSpan span : Span) :
      WritesBack name
        (.call (.member (.this thisSpan) "setState" methodSpan calleeSpan)
          [.value (.object [.entry (.named name keySpan) value entrySpan] objectSpan)] span)

/-! ## Types -/

section Types

variable {component : ComponentType} {state : List Field} {name : String} {field : Field}
  {site : Site}

/-- What is read of a field fits the field itself unless it may be absent and its absence does not
fit. -/
theorem seen_assignable_iff (keyed : field.type.WellKeyed) :
    field.seen.assignable field.type = true ↔
      (field.optional = true → Ty.undefined.assignable field.type = true) := by
  unfold Field.seen
  by_cases optional : field.optional = true
  · rw [if_pos optional]
    by_cases free : field.type = .unknown
    · simp [free]
    · rw [orUndefined_assignable_iff keyed free, and_iff_right keyed.assignable_self]
      simp [optional]
  · rw [if_neg optional]
    exact iff_of_true keyed.assignable_self fun absent => absurd absent optional

/-- A field that is given what was read of it is found to be wrong only for its absence. -/
theorem stateFieldProblem?_seen (keyed : (Ty.record state).WellKeyed)
    (declared : findField name state = some field) :
    stateFieldProblem? component state (name, ⟨field.seen, site⟩) = none ↔
      (field.optional = true → Ty.undefined.assignable field.type = true) := by
  have fieldKeyed : field.type.WellKeyed := by
    cases keyed with
    | record types => exact types field (of_findField declared).1
  rw [← seen_assignable_iff fieldKeyed]
  simp only [stateFieldProblem?, declared]
  split
  next fits => simp [fits]
  next misfit => simp [misfit]

end Types

/-! ## The method that the library supplies -/

section Supplied

variable {signature : Signature} {fields : List Field} {label : String} {place site : Site}

/-- The library's `setState` may be called with one argument, and that argument may be any object. -/
theorem suppliedSetState_takes :
    ((instanceSignature? "setState").all fun signature =>
      takesCount signature 1 && (signature.paramAt? 0).all fun param =>
        (acceptedType param).anyAlternative (·.same .anyObject)) = true := by
  decide +kernel

/-- A record fits wherever an object of any kind does. -/
theorem record_assignable_of_anyObject {target : Ty}
    (accepts : target.anyAlternative (·.same .anyObject) = true) :
    (Ty.record fields).assignable target = true := by
  obtain ⟨type, alternative, same⟩ := (anyAlternative_iff target).mp accepts
  rw [assignable_iff_exists rfl (by simp)]
  refine ⟨type, alternative, ?_⟩
  cases type with
  | anyObject => rfl
  | _ => cases same

/-- Nothing is wrong with a record as the only argument of the library's `setState`. -/
theorem argumentProblems_setState (supplied : instanceSignature? "setState" = some signature) :
    argumentProblems label signature
      { leading := [⟨.record fields, site⟩], count := 1, isSpread := false } place = [] := by
  have takes := suppliedSetState_takes
  rw [supplied, Option.all_some, Bool.and_eq_true] at takes
  have accepted : argumentProblem? label signature 0 ⟨.record fields, site⟩ = none := by
    unfold argumentProblem?
    cases first : signature.paramAt? 0 with
    | none => rfl
    | some param =>
        have accepts := takes.2
        rw [first, Option.all_some] at accepts
        rw [Option.bind_some, if_pos (record_assignable_of_anyObject accepts)]
  unfold argumentProblems
  simp [takes.1, accepted]

end Supplied

/-! ## What is found of a write -/

/-- The findings for the arguments where `setState` is called with a record of one field. -/
def newStateProblems (component : ComponentType) (method : MethodType) (given : Field)
    (site place : Site) : List Diagnostic :=
  (method.signature.map fun signature =>
    argumentProblems (component.name ++ ".prototype." ++ "setState") signature
      { leading := [⟨.record [given], site⟩], count := 1, isSpread := false } place).getD []

section Walk

variable {context : UsageContext} {usage : Usage} {component : ComponentType} {state : List Field}
  {method : MethodType} {name : String} {field : Field} {e : Expr}

theorem infer_this (inside : usage.self? context = some component) (span : Span) :
    (usage.setting context).infer (.this span) = .named component.name := by
  simp [Setting.infer, Usage.setting, inside, ComponentType.instanceType]

/-- Inside of a component that is published, a member of `this` is one of the component. -/
theorem infer_member_this (inside : usage.self? context = some component)
    (own : context.table.component? component.name = some component)
    (property : String) (thisSpan propertySpan span : Span) :
    (usage.setting context).infer (.member (.this thisSpan) property propertySpan span) =
      memberOfInstance component property := by
  have isInstance : (usage.setting context).instanceOf? (.named component.name) = some component :=
    own
  have this := infer_this inside thisSpan
  simp only [Setting.infer, Expr.qualifiedName?, Option.map_none, Setting.memberType] at this ⊢
  rw [this, isInstance]

/-- Reading a field of the state gives what the state says of it. -/
theorem ReadsState.infer (reads : ReadsState name e) (inside : usage.self? context = some component)
    (own : context.table.component? component.name = some component)
    (known : component.state = some state) (declared : findField name state = some field) :
    (usage.setting context).infer e = field.seen := by
  cases reads with
  | read thisSpan stateSpan holderSpan nameSpan span =>
      have holder := infer_member_this inside own "state" thisSpan stateSpan holderSpan
      have isState : memberOfInstance component "state" = .record state := by
        simp [memberOfInstance, known]
      rw [isState] at holder
      rw [← memberOfValue_record declared, Setting.infer]
      simp only [Expr.qualifiedName?, Option.map_none, holder]
      rfl

/-- Nothing is wrong with reading a field that the state has. -/
theorem ReadsState.checkExpr (reads : ReadsState name e)
    (inside : usage.self? context = some component) (known : component.state = some state)
    (declared : findField name state = some field) : checkExpr context e usage = usage := by
  cases reads with
  | read thisSpan stateSpan holderSpan nameSpan span =>
      have holder : usage.checkMember context (.this thisSpan) "state" stateSpan = usage := rfl
      have read : usage.checkMember context (.member (.this thisSpan) "state" stateSpan holderSpan)
          name nameSpan = usage := by
        have has : receiverMemberProblems component "state" name (context.unit.site nameSpan) = [] := by
          simp [receiverMemberProblems, known, declared]
        simp only [Usage.checkMember, Usage.receiverProblems, Expr.unparen, inside, has]
        rfl
      simp only [ClassFactory.checkExpr, read, holder]

/-- What is called on `this` is a method of the component. -/
theorem callKind_this (inside : usage.self? context = some component)
    (own : context.table.component? component.name = some component)
    (method : String) (thisSpan methodSpan span : Span) :
    usage.callKind context (.member (.this thisSpan) method methodSpan span) =
      .method component method (context.unit.site methodSpan) := by
  have isInstance : (usage.setting context).instanceOf? (.named component.name) = some component :=
    own
  simp only [Usage.callKind, Expr.qualifiedName?, Option.map_none, Option.any_none, Expr.unparen,
    infer_this inside, isInstance]
  rfl

/-- What is found of a new state with one field. -/
theorem callProblems_setState {given : Ty} {fieldSite site place : Site}
    (known : component.state = some state) (callable : component.method? "setState" = some method) :
    callProblems component "setState" place
        { leading := [⟨.record [.mk name given false], site⟩], count := 1, isSpread := false }
        [(name, ⟨given, fieldSite⟩)] =
      (stateFieldProblem? component state (name, ⟨given, fieldSite⟩)).toList ++
        newStateProblems component method (.mk name given false) site place := by
  have ofField : stateProblems component [(name, ⟨given, fieldSite⟩)] =
      (stateFieldProblem? component state (name, ⟨given, fieldSite⟩)).toList := by
    simp only [stateProblems, known, List.filterMap_cons, List.filterMap_nil]
    cases stateFieldProblem? component state (name, ⟨given, fieldSite⟩) with
    | none => rfl
    | some problem => rfl
  simp only [callProblems, callable, if_true, ofField, newStateProblems]
  cases method.signature with
  | none => rfl
  | some signature => rfl

/-- What writing a field back adds: what is found of the field, and of the arguments as such. -/
theorem WritesBack.adds (writes : WritesBack name e) (inside : usage.self? context = some component)
    (own : context.table.component? component.name = some component)
    (known : component.state = some state) (declared : findField name state = some field)
    (callable : component.method? "setState" = some method) :
    ∃ fieldSite objectSite place, usage.Adds (checkExpr context e usage) []
      ((stateFieldProblem? component state (name, ⟨field.seen, fieldSite⟩)).toList ++
        newStateProblems component method (.mk name field.seen false) objectSite place).reverse := by
  cases writes with
  | @write value reads thisSpan methodSpan calleeSpan keySpan entrySpan objectSpan span =>
      let object : Expr := .object [.entry (.named name keySpan) value entrySpan] objectSpan
      have given : (usage.setting context).infer value = field.seen :=
        reads.infer inside own known declared
      have made : (usage.setting context).infer object = .record [.mk name field.seen false] := by
        simp only [object, Setting.infer, Setting.inferProperties, Setting.inferProperty,
          Script.Key.name?, Option.map_some, given]
        rfl
      have arguments : usage.foundArguments context [.value object] =
          { leading := [⟨.record [.mk name field.seen false], context.unit.site objectSpan⟩],
            count := 1, isSpread := false } := by
        rw [← made]
        rfl
      have newState : usage.newState context [.value object] =
          [(name, ⟨field.seen, context.unit.site keySpan⟩)] := by
        rw [← given]
        rfl
      -- the walk through the receiver and the object finds nothing, the read being of a known field
      have checked : checkExpr context
          (.call (.member (.this thisSpan) "setState" methodSpan calleeSpan) [.value object] span)
          usage = usage.checkCall context
            (.method component "setState" (context.unit.site methodSpan)) [.value object] := by
        simp only [checkExpr, callKind_this inside own, checkReceiver, checkItems, checkItem,
          object, checkProperties, checkProperty, checkKey]
        exact reads.checkExpr inside known declared
      refine ⟨context.unit.site keySpan, context.unit.site objectSpan, context.unit.site methodSpan,
        ?_⟩
      rw [checked, Usage.checkCall, arguments, newState]
      rw [callProblems_setState known callable]
      exact ⟨rfl, rfl⟩

end Walk

/-- A field of the state of a component may be written back with what was read of it, just if it must
be present or its absence fits its type. Nothing is found besides, unless the component has a
`setState` of its own. -/
theorem written_back_accepted_iff {registry : Registry} {options : Options}
    {context : UsageContext} (h : registry.WellFormed) (typed : registry.WellTyped)
    (published : context.table =
      (synthesize registry options (resolve registry options)).table)
    {usage : Usage} {component : ComponentType} {state : List Field} {name : String} {field : Field}
    {call : Expr} (inside : usage.self? context = some component)
    (known : component.state = some state) (declared : findField name state = some field)
    (writes : WritesBack name call) :
    ∃ (method : MethodType) (fieldSite objectSite place : Site),
      component.method? "setState" = some method ∧
      usage.Adds (checkExpr context call usage) []
        ((stateFieldProblem? component state (name, ⟨field.seen, fieldSite⟩)).toList ++
          newStateProblems component method (.mk name field.seen false) objectSite place).reverse ∧
      (stateFieldProblem? component state (name, ⟨field.seen, fieldSite⟩) = none ↔
        (field.optional = true → Ty.undefined.assignable field.type = true)) ∧
      (method.source = .builtin →
        newStateProblems component method (.mk name field.seen false) objectSite place = []) := by
  -- `this` is known as the component of the name that the function's owner is published under
  obtain ⟨registered, found⟩ : ∃ registered, context.table.component? registered = some component := by
    obtain ⟨owner, -, found⟩ := Option.bind_eq_some_iff.mp inside
    exact ⟨owner, found⟩
  rw [published] at found
  have own : context.table.component? component.name = some component := by
    rw [published]
    exact component?_self h found
  obtain ⟨call, recorded, surface, -, -, rfl⟩ := component?_synthesize h found
  obtain ⟨method, callable⟩ :
      ∃ method, (componentType registry options call surface).method? "setState" = some method :=
    exists_suppliedMethod (by decide)
  obtain ⟨fieldSite, objectSite, place, adds⟩ := writes.adds inside own known declared callable
  refine ⟨method, fieldSite, objectSite, place, callable, adds, ?_, ?_⟩
  · exact stateFieldProblem?_seen (state_wellKeyed typed known) declared
  · intro supplied
    rw [newStateProblems, signature_of_builtin callable (by decide) supplied]
    cases given : instanceSignature? "setState" with
    | none => rfl
    | some signature => exact argumentProblems_setState given

section Counter

/-- A call that makes a component whose state has a label, and may have a count. -/
def counterCall : FactoryCall :=
  let method (id : Nat) (name : String) : SpecMember :=
    { definition := ⟨0, id⟩, name := name, site := default, kind := .method none 0 default,
      isPrivate := false }
  let initial : StateHint :=
    { type := .record [.mk "label" .string false, .mk "count" .number true], isAnnotated := true,
      site := default }
  { id := 0, kind := .component, name := "Counter", site := default, declSite := default,
    specSite := default, exported := false,
    spec := { FactorySpec.empty with
              members := ⟨[("getInitialState", method 0 "getInitialState"),
                ("render", method 1 "render")]⟩,
              stateHint := some initial, definitionCount := 2 } }

/-- The registry of that call. -/
def counterRegistry : Registry := .single counterCall

/-- What a check of a program with that component works with. -/
def counterContext : UsageContext :=
  { unit := { file := 0, text := [], comments := #[], options := .standard },
    table := (synthesize counterRegistry .standard (resolve counterRegistry .standard)).table,
    methods := [] }

/-- A place in a method of the component. -/
def insideCounter : Usage :=
  { frames := [⟨[], some "Counter"⟩], found := [], attached := [] }

/-- Writes a field of the state back. -/
def writeBack (name : String) : Expr :=
  .call (.member (.this default) "setState" default default)
    [.value (.object [.entry (.named name default)
      (.member (.member (.this default) "state" default default) name default default) default]
      default)] default

theorem counterRegistry_wellFormed : counterRegistry.WellFormed := by
  apply Registry.single_wellFormed rfl
  refine ⟨⟨by decide, ?_⟩, .empty⟩
  intro entry listed
  rcases List.mem_pair.mp listed with rfl | rfl
  · exact ⟨rfl, rfl⟩
  · exact ⟨rfl, rfl⟩

theorem counterRegistry_wellTyped : counterRegistry.WellTyped := by
  apply Registry.single_wellTyped
  constructor
  · intro hint given
    cases given
    apply Ty.WellKeyed.record _ (by decide)
    intro field listed
    rcases List.mem_pair.mp listed with rfl | rfl
    · exact .primitive .string
    · exact .primitive .number
  · intro declared given
    cases given

/-- The label may be written back, and the count, which may be absent, may not. -/
theorem written_back_accepted_iff_counter :
    (counterRegistry.WellFormed ∧ counterRegistry.WellTyped) ∧
    ∃ (component : ComponentType) (state : List Field),
      insideCounter.self? counterContext = some component ∧ component.state = some state ∧
      findField "label" state = some (.mk "label" .string false) ∧
      findField "count" state = some (.mk "count" .number true) ∧
      insideCounter.Adds (checkExpr counterContext (writeBack "label") insideCounter) [] [] ∧
      ∃ problem, insideCounter.Adds
        (checkExpr counterContext (writeBack "count") insideCounter) [] [problem] := by
  refine ⟨⟨counterRegistry_wellFormed, counterRegistry_wellTyped⟩, ?_⟩
  have registered : (insideCounter.self? counterContext).isSome = true := by decide
  obtain ⟨component, inside⟩ := Option.isSome_iff_exists.mp registered
  obtain ⟨known, builtin⟩ :
      component.state = some [.mk "label" .string false, .mk "count" .number true] ∧
        (component.method? "setState").map MethodType.source = some .builtin := by
    have found : counterContext.table.component? "Counter" = some component := inside
    obtain ⟨call, recorded, surface, surfaced, -, rfl⟩ :=
      component?_synthesize counterRegistry_wellFormed found
    rw [List.mem_singleton.mp recorded] at surfaced ⊢
    cases surfaced
    exact ⟨rfl, rfl⟩
  have writes : ∀ name, WritesBack name (writeBack name) := fun name =>
    .write (.read default default default default default) default default default default default
      default default
  have published : counterContext.table =
      (synthesize counterRegistry .standard (resolve counterRegistry .standard)).table := rfl
  have supplied : ∀ {method}, component.method? "setState" = some method →
      method.source = .builtin := by
    intro method callable
    rw [callable] at builtin
    exact Option.some.inj builtin
  refine ⟨component, _, inside, known, rfl, rfl, ?_, ?_⟩
  · obtain ⟨method, fieldSite, objectSite, place, callable, adds, exactly, alone⟩ :=
      written_back_accepted_iff counterRegistry_wellFormed counterRegistry_wellTyped published
        inside known rfl (writes "label")
    rw [exactly.mpr (fun absent => by cases absent), alone (supplied callable)] at adds
    exact adds
  · obtain ⟨method, fieldSite, objectSite, place, callable, adds, exactly, alone⟩ :=
      written_back_accepted_iff counterRegistry_wellFormed counterRegistry_wellTyped published
        inside known rfl (writes "count")
    rw [alone (supplied callable)] at adds
    cases finding : stateFieldProblem? component _ ("count", ⟨_, fieldSite⟩) with
    | none =>
        have fits : Ty.undefined.assignable .number = true := exactly.mp finding rfl
        cases fits
    | some problem =>
        rw [finding] at adds
        exact ⟨problem, adds⟩

end Counter

end ClassFactory
