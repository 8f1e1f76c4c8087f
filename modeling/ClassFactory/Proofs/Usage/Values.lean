/-
Module: ClassFactory.Proofs.Usage.Values
Purpose: A plain value has two types: the one that is inferred where it is used, and the wider one
  that its syntax shows where a specification holds it. The first may stand where the second is
  expected, unless the value is a numeral behind an operator that yields no number: the syntax of
  `!0` or `void 0` passes for that of a number. State fields are judged by these types.
Main exports: Script.Expr.isMaskedNumeral, infer_assignable_iff, typings_agree
-/
import ClassFactory.Proofs.Component.State
import ClassFactory.Proofs.Types.Assignable
import ClassFactory.Usage.Checks

namespace ClassFactory

open Script (Expr Key Property UnaryOp)

/-- Whether the operator yields a number. -/
def Script.UnaryOp.yieldsNumber : UnaryOp → Bool
  | .negate => true
  | .plus => true
  | .bitNot => true
  | .not => false
  | .typeof => false
  | .void => false
  | .delete => false

/-- Whether the value is a numeral behind an operator that yields no number, such as `!0`. -/
def Script.Expr.isMaskedNumeral (e : Expr) : Bool :=
  match e.unparen with
  | .unary op operand _ => operand.isNumeral && !op.yieldsNumber
  | _ => false

/-- What looks through parentheses gives the same for an expression without those around it. -/
theorem apply_unparen {α : Type} (read : Expr → α)
    (through : ∀ inner span, read (.paren inner span) = read inner) (e : Expr) :
    read e.unparen = read e := by
  fun_induction Expr.unparen e with
  | case1 inner span ih => rw [ih, through]
  | case2 e bare => rfl

/-- Parentheses make no difference to the type of an expression. -/
theorem infer_unparen (setting : Setting) (e : Expr) : setting.infer e.unparen = setting.infer e :=
  apply_unparen setting.infer (fun _ _ => rfl) e

theorem unparen_ne_paren (e inner : Expr) (span : Span) : e.unparen ≠ .paren inner span := by
  fun_induction Expr.unparen e with
  | case1 inner span ih => exact ih
  | case2 e bare => exact bare inner span

/-- The operator in front of a numeral decides whether the result may stand for a number. -/
theorem unaryType_assignable_number (op : UnaryOp) {operand : Expr} (numeral : operand.isNumeral) :
    (unaryType op operand).assignable .number = op.yieldsNumber := by
  cases operand with
  | number value span => cases op <;> rfl
  | _ => cases numeral

/-- What is inferred of an expression may stand where the type that its syntax shows is expected,
masked numerals apart. -/
theorem infer_assignable_iff (setting : Setting) (e : Expr) :
    (setting.infer e).assignable e.shownType = true ↔ e.isMaskedNumeral = false := by
  rw [← infer_unparen, Expr.shownType, Expr.isMaskedNumeral]
  cases bare : e.unparen with
  | paren inner span => exact absurd bare (unparen_ne_paren e inner span)
  | unary op operand span =>
      by_cases numeral : operand.isNumeral
      · simp [Setting.infer, numeral, unaryType_assignable_number op numeral]
      · simp [numeral]
  | array items span =>
      apply iff_of_true
      · simp only [Setting.infer]
        cases setting.inferItems items with
        | none => rfl
        | some types => exact Ty.assignable_unknown (Ty.join types)
      · rfl
  | object properties span =>
      apply iff_of_true
      · simp only [Setting.infer]
        cases setting.inferProperties properties with
        | none => rfl
        | some fields => rfl
      · rfl
  | string value span => exact iff_of_true rfl rfl
  | template parts span => exact iff_of_true rfl rfl
  | number value span => exact iff_of_true rfl rfl
  | bool value span => exact iff_of_true rfl rfl
  | function params body span => exact iff_of_true rfl rfl
  | arrow params concise body span => exact iff_of_true rfl rfl
  | _ => exact iff_of_true (Ty.assignable_unknown _) rfl

/-- A new state field is judged by the recorded type of the field alone. -/
theorem stateFieldProblem?_eq_none_iff (component : ComponentType) {state : List Field}
    {name : String} {recorded : Ty} {optional : Bool} (found : FoundType)
    (known : findField name state = some (.mk name recorded optional)) :
    stateFieldProblem? component state (name, found) = none ↔
      found.type.assignable recorded = true := by
  rw [stateFieldProblem?, known]
  by_cases fits : found.type.assignable recorded = true
  · simp [Field.type, fits]
  · simp [Field.type, fits]

/-- The types that specifications record for a value without documentation. -/
inductive Recorded (e : Expr) : Ty → Prop where
  /-- As a member that is a plain value. -/
  | member (unit : SourceUnit) {doc : DocBlock} {type : Ty} (untyped : doc.typeTag = none)
      (kind : memberKind unit doc e.unparen = .value type) : Recorded e type
  /-- As a static. -/
  | static {doc : DocBlock} (untyped : doc.typeTag = none)
      (unsigned : ∀ params, documentedSignature doc params = none) : Recorded e (staticType doc e)
  /-- As a field of the state. -/
  | state (key : Key) (span : Span) {field : Field}
      (read : stateField? (.entry key e span) = some field) : Recorded e field.type

theorem shownType_unparen (e : Expr) : e.unparen.shownType = e.shownType := by
  have bare : e.unparen.unparen = e.unparen := by
    cases shape : e.unparen with
    | paren inner span => exact absurd shape (unparen_ne_paren e inner span)
    | _ => rfl
  rw [Expr.shownType, Expr.shownType, bare]

/-- Wherever a value is recorded without documentation, its type is the one that its syntax shows. -/
theorem Recorded.eq_shownType {e : Expr} {type : Ty} (recorded : Recorded e type) :
    type = e.shownType := by
  cases recorded with
  | member unit untyped kind =>
      rw [← shownType_unparen]
      cases shape : e.unparen with
      | function params body span => simp [memberKind, shape] at kind
      | arrow params concise body span => simp [memberKind, shape] at kind
      | _ =>
          simp only [memberKind, shape, untyped, MemberKind.value.injEq] at kind
          exact kind.symm
  | static untyped unsigned =>
      rw [← shownType_unparen]
      cases shape : e.unparen with
      | function params body span =>
          simp only [staticType, documentedFunction, shape, untyped, unsigned]
          rfl
      | arrow params concise body span =>
          simp only [staticType, documentedFunction, shape, untyped, unsigned]
          rfl
      | _ => simp only [staticType, shape, untyped]
  | state key span read =>
      rcases Option.map_eq_some_iff.mp read with ⟨name, named, rfl⟩
      rfl

/-- The two types of a plain value agree unless the value is a masked numeral: then, and only then,
what is inferred of it may not stand where the type recorded from its syntax is expected. So setting
a state field to the very expression that it was initialized with is faulted for masked numerals
and for nothing else. -/
theorem typings_agree (setting : Setting) (e : Expr) :
    (∀ type, Recorded e type →
      ((setting.infer e).assignable type = true ↔ e.isMaskedNumeral = false)) ∧
    ∀ registry options call surface name site,
      (componentState registry surface).isSome → Initializes registry surface name e →
        (stateProblems (componentType registry options call surface)
          [(name, { type := setting.infer e, site := site })] = [] ↔
          e.isMaskedNumeral = false) := by
  constructor
  · intro type recorded
    rw [recorded.eq_shownType]
    exact infer_assignable_iff setting e
  · intro registry options call surface name site known initial
    rcases Option.isSome_iff_exists.mp known with ⟨state, fields⟩
    have recorded := findField_of_initializes fields initial
    have stated : (componentType registry options call surface).state = some state := fields
    have judged := stateFieldProblem?_eq_none_iff (componentType registry options call surface)
      { type := setting.infer e, site := site } recorded
    rw [← infer_assignable_iff setting e, ← judged, stateProblems, stated, List.filterMap_eq_nil_iff]
    simp

section Toggle

/-- The state `{ open: !0, label: "" }`. -/
def toggleState : List Property :=
  [.entry (.named "open" default) (.unary .not (.number 0 default) default) default,
    .entry (.named "label" default) (.string "" default) default]

/-- A component that starts in that state. -/
def toggleRegistry : Registry :=
  let unit : SourceUnit := { file := 0, text := [], comments := #[], options := .standard }
  let initial : Expr := .function [] [.returns (.object toggleState default)] default
  let spec := enterMember unit 0 FactorySpec.empty "getInitialState" initial default
  (Registry.empty.insert
    { id := 0, kind := .component, name := "Toggle", site := default, declSite := default,
      specSite := default, exported := false,
      spec := enterMember unit 0 spec "render" (.function [] [] default) default }).1

theorem toggle_returnsState : ReturnsState toggleRegistry 0 toggleState :=
  ⟨⟨0, [], #[], .standard⟩, default, .function [] [.returns (.object toggleState default)] default,
    default, rfl, rfl, rfl⟩

/-- Setting the label to what it was is never faulted, setting the masked numeral is. -/
theorem typings_agree_toggle :
    ∃ surface call, (resolve toggleRegistry .standard).surface? 0 = some surface ∧
      toggleRegistry.get? 0 = some call ∧
      (let component := componentType toggleRegistry .standard call surface
       let setting : Setting :=
         { table := .empty, options := .standard, scopes := [], self := some component }
       let label : Expr := .string "" default
       let masked : Expr := .unary .not (.number 0 default) default
       stateProblems component [("label", { type := setting.infer label, site := default })] = [] ∧
       stateProblems component [("open", { type := setting.infer masked, site := default })] ≠ []) := by
  have shown : ((resolve toggleRegistry .standard).surface? 0).map (fun surface =>
      ((componentState toggleRegistry surface).isSome,
        ((surface.hookChain .getInitialState).getLast?).map MemberDefinition.origin)) =
      some (true, some 0) := by decide
  rcases Option.map_eq_some_iff.mp shown with ⟨surface, found, contents⟩
  rw [Prod.mk.injEq] at contents
  rcases contents with ⟨known, lastly⟩
  rcases Option.map_eq_some_iff.mp lastly with ⟨definition, last, origin⟩
  have returns : ReturnsState toggleRegistry definition.origin toggleState :=
    origin ▸ toggle_returnsState
  have startsOpen : Initializes toggleRegistry surface "open"
      (.unary .not (.number 0 default) default) := by
    refine ⟨definition, [], .named "open" default, default, toggleState.tail, last, returns, rfl, ?_⟩
    simp [toggleState, Script.Property.name?, Script.Key.name?]
  have startsBlank : Initializes toggleRegistry surface "label" (.string "" default) :=
    ⟨definition, toggleState.take 1, .named "label" default, default, [], last, returns, rfl, by simp⟩
  refine ⟨surface, _, found, rfl, ?_, ?_⟩
  · exact ((typings_agree _ _).2 _ _ _ _ _ _ known startsBlank).mpr rfl
  · intro faultless
    cases ((typings_agree _ _).2 _ _ _ _ _ _ known startsOpen).mp faultless

end Toggle

end ClassFactory
