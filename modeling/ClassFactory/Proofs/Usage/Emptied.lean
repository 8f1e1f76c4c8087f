/-
Module: ClassFactory.Proofs.Usage.Emptied
Purpose: Programs of which what stands in the bodies of chosen functions is left out. Nothing that
  is inferred or checked elsewhere looks into a body, so the walk over what remains makes the visits
  that remain, and each of them does what it did.
Main exports: Script.Expr.emptied, Script.Program.emptied, infer_emptied, Visit.apply_emptied,
  remaining, route_emptied, stmtsRoute_emptied
-/
import ClassFactory.Proofs.Usage.Visits

namespace ClassFactory

open Script (Expr Item Property Key Tag Binding Parameter Declarator Attribute Child Stmt Part
  Program)

/-! ## Leaving out bodies -/

mutual
/-- The expression without what stands in the bodies of the chosen functions. -/
def Script.Expr.emptied (chosen : Expr → Bool) : Expr → Expr
  | .template parts span => .template (exprsEmptied chosen parts) span
  | .array items span => .array (itemsEmptied chosen items) span
  | .object properties span => .object (propertiesEmptied chosen properties) span
  | .function params body span =>
    .function (parametersEmptied chosen params)
      (if chosen (.function params body span) then [] else stmtsEmptied chosen body) span
  | .arrow params concise body span =>
    .arrow (parametersEmptied chosen params) concise
      (if chosen (.arrow params concise body span) then [] else stmtsEmptied chosen body) span
  | .member owner property propertySpan span =>
    .member (owner.emptied chosen) property propertySpan span
  | .call callee args span => .call (callee.emptied chosen) (itemsEmptied chosen args) span
  | .construct callee args span =>
    .construct (callee.emptied chosen) (itemsEmptied chosen args) span
  | .unary op operand span => .unary op (operand.emptied chosen) span
  | .binary op left right span => .binary op (left.emptied chosen) (right.emptied chosen) span
  | .conditional test consequent alternate span =>
    .conditional (test.emptied chosen) (consequent.emptied chosen) (alternate.emptied chosen) span
  | .assign target value span => .assign (target.emptied chosen) (value.emptied chosen) span
  | .paren inner span => .paren (inner.emptied chosen) span
  | .element tag attributes children closing span =>
    .element tag (attributesEmptied chosen attributes) (childrenEmptied chosen children) closing span
  | .fragment children span => .fragment (childrenEmptied chosen children) span
  | .other assignable parts span => .other assignable (partsEmptied chosen parts) span
  | .ident name span => .ident name span
  | .this span => .this span
  | .string value span => .string value span
  | .number value span => .number value span
  | .bool value span => .bool value span
  | .null span => .null span
  | .regex span => .regex span
termination_by structural e => e

/-- The expressions without what stands in the bodies of the chosen functions. -/
def exprsEmptied (chosen : Expr → Bool) : List Expr → List Expr
  | [] => []
  | e :: rest => e.emptied chosen :: exprsEmptied chosen rest
termination_by structural es => es

/-- The item without what stands in the bodies of the chosen functions. -/
def Script.Item.emptied (chosen : Expr → Bool) : Item → Item
  | .value e => .value (e.emptied chosen)
  | .spread e span => .spread (e.emptied chosen) span
  | .hole => .hole
termination_by structural item => item

/-- The items without what stands in the bodies of the chosen functions. -/
def itemsEmptied (chosen : Expr → Bool) : List Item → List Item
  | [] => []
  | item :: rest => item.emptied chosen :: itemsEmptied chosen rest
termination_by structural items => items

/-- The key without what stands in the bodies of the chosen functions. -/
def Script.Key.emptied (chosen : Expr → Bool) : Key → Key
  | .named name span => .named name span
  | .computed e => .computed (e.emptied chosen)
termination_by structural key => key

/-- The property without what stands in the bodies of the chosen functions. -/
def Script.Property.emptied (chosen : Expr → Bool) : Property → Property
  | .entry key value span => .entry (key.emptied chosen) (value.emptied chosen) span
  | .spread e span => .spread (e.emptied chosen) span
termination_by structural property => property

/-- The properties without what stands in the bodies of the chosen functions. -/
def propertiesEmptied (chosen : Expr → Bool) : List Property → List Property
  | [] => []
  | property :: rest => property.emptied chosen :: propertiesEmptied chosen rest
termination_by structural properties => properties

/-- The binding without what stands in the bodies of the chosen functions. -/
def Script.Binding.emptied (chosen : Expr → Bool) : Binding → Binding
  | .name name span => .name name span
  | .pattern parts => .pattern (exprsEmptied chosen parts)
termination_by structural binding => binding

/-- The parameter without what stands in the bodies of the chosen functions. -/
def Script.Parameter.emptied (chosen : Expr → Bool) : Parameter → Parameter
  | .plain binding => .plain (binding.emptied chosen)
  | .defaulted binding value => .defaulted (binding.emptied chosen) (value.emptied chosen)
  | .rest binding => .rest (binding.emptied chosen)
termination_by structural parameter => parameter

/-- The parameters without what stands in the bodies of the chosen functions. -/
def parametersEmptied (chosen : Expr → Bool) : List Parameter → List Parameter
  | [] => []
  | parameter :: rest => parameter.emptied chosen :: parametersEmptied chosen rest
termination_by structural parameters => parameters

/-- The declarator without what stands in the bodies of the chosen functions. -/
def Script.Declarator.emptied (chosen : Expr → Bool) : Declarator → Declarator
  | .bare binding => .bare (binding.emptied chosen)
  | .initialized binding value => .initialized (binding.emptied chosen) (value.emptied chosen)
termination_by structural declarator => declarator

/-- The declarators without what stands in the bodies of the chosen functions. -/
def declaratorsEmptied (chosen : Expr → Bool) : List Declarator → List Declarator
  | [] => []
  | declarator :: rest => declarator.emptied chosen :: declaratorsEmptied chosen rest
termination_by structural declarators => declarators

/-- The attribute without what stands in the bodies of the chosen functions. -/
def Script.Attribute.emptied (chosen : Expr → Bool) : Attribute → Attribute
  | .named name value span => .named name (value.emptied chosen) span
  | .foreign value => .foreign (value.emptied chosen)
  | .spread e => .spread (e.emptied chosen)
termination_by structural given => given

/-- The attributes without what stands in the bodies of the chosen functions. -/
def attributesEmptied (chosen : Expr → Bool) : List Attribute → List Attribute
  | [] => []
  | given :: rest => given.emptied chosen :: attributesEmptied chosen rest
termination_by structural givens => givens

/-- The child without what stands in the bodies of the chosen functions. -/
def Script.Child.emptied (chosen : Expr → Bool) : Child → Child
  | .text raw span => .text raw span
  | .value e span => .value (e.emptied chosen) span
  | .spread e span => .spread (e.emptied chosen) span
termination_by structural child => child

/-- The children without what stands in the bodies of the chosen functions. -/
def childrenEmptied (chosen : Expr → Bool) : List Child → List Child
  | [] => []
  | child :: rest => child.emptied chosen :: childrenEmptied chosen rest
termination_by structural children => children

/-- The statement without what stands in the bodies of the chosen functions. -/
def Script.Stmt.emptied (chosen : Expr → Bool) : Stmt → Stmt
  | .expression e span => .expression (e.emptied chosen) span
  | .variables exported declarators span =>
    .variables exported (declaratorsEmptied chosen declarators) span
  | .returns value => .returns (value.emptied chosen)
  | .other parts => .other (partsEmptied chosen parts)
termination_by structural s => s

/-- The statements without what stands in the bodies of the chosen functions. -/
def stmtsEmptied (chosen : Expr → Bool) : List Stmt → List Stmt
  | [] => []
  | s :: rest => s.emptied chosen :: stmtsEmptied chosen rest
termination_by structural statements => statements

/-- The part without what stands in the bodies of the chosen functions. -/
def Script.Part.emptied (chosen : Expr → Bool) : Part → Part
  | .expr e => .expr (e.emptied chosen)
  | .stmt s => .stmt (s.emptied chosen)
termination_by structural part => part

/-- The parts without what stands in the bodies of the chosen functions. -/
def partsEmptied (chosen : Expr → Bool) : List Part → List Part
  | [] => []
  | part :: rest => part.emptied chosen :: partsEmptied chosen rest
termination_by structural parts => parts
end

/-- The program without what stands in the bodies of the chosen functions. -/
def Script.Program.emptied (chosen : Expr → Bool) (program : Program) : Program :=
  { program with body := stmtsEmptied chosen program.body }

section Lists

variable (chosen : Expr → Bool)

/-- Emptying the items of a list empties each of them. -/
theorem itemsEmptied_eq_map (items : List Item) :
    itemsEmptied chosen items = items.map (Item.emptied chosen) := by
  induction items with
  | nil => rfl
  | cons item rest ih => rw [itemsEmptied, ih, List.map_cons]

theorem propertiesEmptied_eq_map (properties : List Property) :
    propertiesEmptied chosen properties = properties.map (Property.emptied chosen) := by
  induction properties with
  | nil => rfl
  | cons property rest ih => rw [propertiesEmptied, ih, List.map_cons]

theorem parametersEmptied_eq_map (parameters : List Parameter) :
    parametersEmptied chosen parameters = parameters.map (Parameter.emptied chosen) := by
  induction parameters with
  | nil => rfl
  | cons parameter rest ih => rw [parametersEmptied, ih, List.map_cons]

theorem declaratorsEmptied_eq_map (declarators : List Declarator) :
    declaratorsEmptied chosen declarators = declarators.map (Declarator.emptied chosen) := by
  induction declarators with
  | nil => rfl
  | cons declarator rest ih => rw [declaratorsEmptied, ih, List.map_cons]

theorem attributesEmptied_eq_map (givens : List Attribute) :
    attributesEmptied chosen givens = givens.map (Attribute.emptied chosen) := by
  induction givens with
  | nil => rfl
  | cons given rest ih => rw [attributesEmptied, ih, List.map_cons]

theorem childrenEmptied_eq_map (children : List Child) :
    childrenEmptied chosen children = children.map (Child.emptied chosen) := by
  induction children with
  | nil => rfl
  | cons child rest ih => rw [childrenEmptied, ih, List.map_cons]

end Lists

/-! ## What does not look into bodies -/

section Blind

variable (chosen : Expr → Bool)

/-- An emptied expression stands where the expression stood. -/
theorem span_emptied (e : Expr) : (e.emptied chosen).span = e.span := by
  cases e <;> rfl

/-- Parentheses are taken off before emptying as well as behind it. -/
theorem unparen_emptied (e : Expr) : (e.emptied chosen).unparen = e.unparen.emptied chosen := by
  fun_induction Expr.unparen e with
  | case1 inner span ih => exact ih
  | case2 e bare =>
      cases e with
      | paren inner span => exact absurd rfl (bare inner span)
      | _ => rfl

/-- Emptying leaves dotted names as they are. -/
theorem qualifiedName?_emptied (e : Expr) : (e.emptied chosen).qualifiedName? = e.qualifiedName? := by
  fun_induction Expr.qualifiedName? e with
  | case1 name span => rfl
  | case2 owner property propertySpan span ih => rw [Expr.emptied, Expr.qualifiedName?, ih]
  | case3 inner span ih => exact ih
  | case4 e notIdent notMember notParen =>
      cases e with
      | ident name span => exact absurd rfl (notIdent name span)
      | member owner property propertySpan span =>
          exact absurd rfl (notMember owner property propertySpan span)
      | paren inner span => exact absurd rfl (notParen inner span)
      | _ => rfl

/-- It leaves the names of keys. -/
theorem keyName?_emptied (key : Key) : (key.emptied chosen).name? = key.name? := by
  cases key <;> rfl

theorem keySpan_emptied (key : Key) : (key.emptied chosen).span = key.span := by
  cases key with
  | named name span => rfl
  | computed e => exact span_emptied chosen e

/-- It leaves the names that bindings bind. -/
theorem bindingName?_emptied (binding : Binding) :
    (binding.emptied chosen).name? = binding.name? := by
  cases binding <;> rfl

theorem isMember_emptied (e : Expr) : (e.emptied chosen).isMember = e.isMember := by
  rw [Expr.isMember, Expr.isMember, unparen_emptied]
  cases e.unparen <;> rfl

mutual
/-- The type of an expression does not depend on the bodies in it. -/
theorem infer_emptied (setting : Setting) :
    (e : Expr) → setting.infer (e.emptied chosen) = setting.infer e
  | .paren inner _ => infer_emptied setting inner
  | .member owner property _ _ => by
    simp only [Expr.emptied, Setting.infer, qualifiedName?_emptied, infer_emptied setting owner]
  | .array items _ => by
    simp only [Expr.emptied, Setting.infer, inferItems_emptied setting items]
  | .object properties _ => by
    simp only [Expr.emptied, Setting.infer, inferProperties_emptied setting properties]
  | .unary op operand _ => by
    have negated : negatedType (operand.emptied chosen) = negatedType operand := by
      rw [negatedType, negatedType, unparen_emptied]
      cases operand.unparen <;> rfl
    cases op with
    | negate => exact negated
    | _ => rfl
  | .binary op left right _ => by
    simp only [Expr.emptied, Setting.infer, infer_emptied setting left, infer_emptied setting right]
  | .conditional _ consequent alternate _ => by
    simp only [Expr.emptied, Setting.infer, infer_emptied setting consequent,
      infer_emptied setting alternate]
  | .construct callee _ _ => by
    simp only [Expr.emptied, Setting.infer, qualifiedName?_emptied]
  | .call callee args _ => by
    simp only [Expr.emptied, Setting.infer, qualifiedName?_emptied, inferCall_emptied setting callee,
      inferFirst_emptied setting args]
  | .ident _ _ | .this _ | .string _ _ | .number _ _ | .bool _ _ | .null _ | .regex _
  | .template _ _ | .function _ _ _ | .arrow _ _ _ _ | .assign _ _ _ | .element _ _ _ _ _
  | .fragment _ _ | .other _ _ _ => rfl

theorem inferCall_emptied (setting : Setting) :
    (e : Expr) → setting.inferCall (e.emptied chosen) = setting.inferCall e
  | .paren inner _ => inferCall_emptied setting inner
  | .member owner property _ _ => by
    simp only [Expr.emptied, Setting.inferCall, infer_emptied setting owner]
  | .ident _ _ | .this _ | .string _ _ | .number _ _ | .bool _ _ | .null _ | .regex _
  | .template _ _ | .array _ _ | .object _ _ | .function _ _ _ | .arrow _ _ _ _ | .call _ _ _
  | .construct _ _ _ | .unary _ _ _ | .binary _ _ _ _ | .conditional _ _ _ _ | .assign _ _ _
  | .element _ _ _ _ _ | .fragment _ _ | .other _ _ _ => rfl

theorem inferFirst_emptied (setting : Setting) :
    (items : List Item) → setting.inferFirst (itemsEmptied chosen items) = setting.inferFirst items
  | [] => rfl
  | item :: _ => inferItem_emptied setting item

theorem inferItem_emptied (setting : Setting) :
    (item : Item) → setting.inferItem (item.emptied chosen) = setting.inferItem item
  | .value e => by
    simp only [Item.emptied, Setting.inferItem, infer_emptied setting e]
  | .spread _ _ | .hole => rfl

theorem inferItems_emptied (setting : Setting) :
    (items : List Item) → setting.inferItems (itemsEmptied chosen items) = setting.inferItems items
  | [] => rfl
  | item :: rest => by
    simp only [itemsEmptied, Setting.inferItems, inferItem_emptied setting item,
      inferItems_emptied setting rest]

theorem inferProperty_emptied (setting : Setting) : (property : Property) →
    setting.inferProperty (property.emptied chosen) = setting.inferProperty property
  | .entry key value _ => by
    simp only [Property.emptied, Setting.inferProperty, keyName?_emptied,
      infer_emptied setting value]
  | .spread _ _ => rfl

theorem inferProperties_emptied (setting : Setting) : (properties : List Property) →
    setting.inferProperties (propertiesEmptied chosen properties) =
      setting.inferProperties properties
  | [] => rfl
  | property :: rest => by
    simp only [propertiesEmptied, Setting.inferProperties, inferProperty_emptied setting property,
      inferProperties_emptied setting rest]
end

theorem itemValue?_emptied (item : Item) :
    (item.emptied chosen).value? = item.value?.map (Expr.emptied chosen) := by
  cases item <;> rfl

theorem isSpread_emptied (item : Item) : (item.emptied chosen).isSpread = item.isSpread := by
  cases item <;> rfl

/-- The first value of a list is emptied with the list. -/
theorem firstValue?_emptied (items : List Item) :
    Script.firstValue? (itemsEmptied chosen items) =
      (Script.firstValue? items).map (Expr.emptied chosen) := by
  cases items with
  | nil => rfl
  | cons item rest => exact itemValue?_emptied chosen item

theorem properties?_emptied (e : Expr) :
    (e.emptied chosen).properties? = e.properties?.map (propertiesEmptied chosen) := by
  rw [Expr.properties?, Expr.properties?, unparen_emptied]
  cases e.unparen <;> rfl

theorem init?_emptied (declarator : Declarator) :
    (declarator.emptied chosen).init? = declarator.init?.map (Expr.emptied chosen) := by
  cases declarator <;> rfl

theorem declaratorBinding_emptied (declarator : Declarator) :
    (declarator.emptied chosen).binding.name? = declarator.binding.name? := by
  cases declarator <;> exact bindingName?_emptied chosen _

theorem parameterBinding_emptied (parameter : Parameter) :
    (parameter.emptied chosen).binding.name? = parameter.binding.name? := by
  cases parameter <;> exact bindingName?_emptied chosen _

theorem isRest_emptied (parameter : Parameter) :
    (parameter.emptied chosen).isRest = parameter.isRest := by
  cases parameter <;> rfl

end Blind

/-! ## Visits of what remains -/

/-- The visit of what remains without what stands in the bodies of the chosen functions. -/
def Visit.emptied (chosen : Expr → Bool) : Visit → Visit
  | .enter params span => .enter (parametersEmptied chosen params) span
  | .leave => .leave
  | .member owner property propertySpan => .member (owner.emptied chosen) property propertySpan
  | .call callee args span => .call (callee.emptied chosen) (itemsEmptied chosen args) span
  | .tagged tag attributes children span =>
    .tagged tag (attributesEmptied chosen attributes) (childrenEmptied chosen children) span
  | .declare declarator alone span => .declare (declarator.emptied chosen) alone span

section Checks

variable (chosen : Expr → Bool) (context : UsageContext) (usage : Usage)

/-- The type that is found for an expression stays the same. -/
theorem foundType_emptied (e : Expr) :
    usage.foundType context (e.emptied chosen) = usage.foundType context e := by
  rw [Usage.foundType, Usage.foundType, infer_emptied, span_emptied]

theorem foundArguments_emptied (args : List Item) :
    usage.foundArguments context (itemsEmptied chosen args) = usage.foundArguments context args := by
  have spread : (fun item : Item => !item.isSpread) ∘ Item.emptied chosen =
      fun item => !item.isSpread := by
    funext item
    exact congrArg not (isSpread_emptied chosen item)
  have found : ∀ items : List Item,
      ((items.map (Item.emptied chosen)).filterMap Item.value?).map (usage.foundType context) =
        (items.filterMap Item.value?).map (usage.foundType context) := by
    intro items
    induction items with
    | nil => rfl
    | cons item rest ih =>
        cases item with
        | value e => exact List.cons_eq_cons.mpr ⟨foundType_emptied chosen context usage e, ih⟩
        | spread e span => exact ih
        | hole => exact ih
  rw [Usage.foundArguments, Usage.foundArguments, itemsEmptied_eq_map, List.takeWhile_map, spread,
    found, List.length_map, List.any_map]
  congr 2
  funext item
  exact isSpread_emptied chosen item

/-- A field that is given stays the same. -/
theorem givenField?_emptied (property : Property) :
    usage.givenField? context (property.emptied chosen) = usage.givenField? context property := by
  cases property with
  | entry key value span =>
      simp only [Property.emptied, Usage.givenField?, keyName?_emptied, keySpan_emptied,
        infer_emptied]
  | spread e span => rfl

theorem givenFields_emptied (properties : List Property) :
    (propertiesEmptied chosen properties).map (usage.givenField? context) =
      properties.map (usage.givenField? context) := by
  rw [propertiesEmptied_eq_map, List.map_map]
  exact List.map_congr_left fun property _ => givenField?_emptied chosen context usage property

theorem newState_emptied (args : List Item) :
    usage.newState context (itemsEmptied chosen args) = usage.newState context args := by
  have fields : ∀ properties : List Property,
      (propertiesEmptied chosen properties).filterMap (usage.givenField? context) =
        properties.filterMap (usage.givenField? context) := by
    intro properties
    rw [propertiesEmptied_eq_map, List.filterMap_map]
    exact congrArg (List.filterMap · properties)
      (funext fun property => givenField?_emptied chosen context usage property)
  rw [Usage.newState, Usage.newState, firstValue?_emptied]
  cases Script.firstValue? args with
  | none => rfl
  | some e =>
      rw [Option.map_some, Option.bind_some, Option.bind_some, properties?_emptied]
      cases e.properties? with
      | none => rfl
      | some properties => exact fields properties

/-- The props that are given stay the same. -/
theorem givenProps_emptied (props : Option Expr) :
    usage.givenProps context (props.map (Expr.emptied chosen)) = usage.givenProps context props := by
  cases props with
  | none => rfl
  | some e =>
      have found := foundType_emptied chosen context usage e.unparen
      simp only [Usage.givenProps, Option.map_some, unparen_emptied]
      cases bare : e.unparen with
      | object properties span =>
          simp only [Expr.emptied, givenFields_emptied]
      | null span => rfl
      | _ =>
          rw [bare] at found
          simp only [Expr.emptied] at found ⊢ <;> rw [found]

theorem givenChild_emptied (item : Item) :
    usage.givenChild context (item.emptied chosen) = usage.givenChild context item := by
  cases item with
  | value e => exact foundType_emptied chosen context usage e
  | _ => rfl

theorem checkConstruction_emptied (args : List Item) (span : Span) :
    usage.checkConstruction context (itemsEmptied chosen args) span =
      usage.checkConstruction context args span := by
  cases args with
  | nil => rfl
  | cons first rest =>
      cases first with
      | value tag =>
          have children : ((itemsEmptied chosen rest).drop 1).map (usage.givenChild context) =
              (rest.drop 1).map (usage.givenChild context) := by
            rw [itemsEmptied_eq_map, ← List.map_drop, List.map_map]
            exact List.map_congr_left fun item _ => givenChild_emptied chosen context usage item
          simp only [itemsEmptied, Item.emptied, Usage.checkConstruction, Setting.elementOf,
            infer_emptied, firstValue?_emptied, givenProps_emptied, children]
      | spread e span => rfl
      | hole => rfl

/-- What kind of call it is stays the same. -/
theorem callKind_emptied (callee : Expr) :
    usage.callKind context (callee.emptied chosen) = usage.callKind context callee := by
  rw [Usage.callKind, Usage.callKind, qualifiedName?_emptied, unparen_emptied]
  split
  · rfl
  · cases callee.unparen with
    | member owner property propertySpan span => simp only [Expr.emptied, infer_emptied]
    | _ => rfl

theorem checkCall_emptied (kind : Usage.CallKind) (args : List Item) :
    usage.checkCall context kind (itemsEmptied chosen args) = usage.checkCall context kind args := by
  cases kind with
  | method component name place =>
      simp only [Usage.checkCall, foundArguments_emptied, newState_emptied]
  | static component name place => simp only [Usage.checkCall, foundArguments_emptied]
  | _ => rfl

theorem checkTagged_emptied (tag : Tag) (attributes : List Attribute) (children : List Child)
    (span : Span) :
    usage.checkTagged context tag (attributesEmptied chosen attributes)
        (childrenEmptied chosen children) span =
      usage.checkTagged context tag attributes children span := by
  have passed : ∀ given, usage.givenAttribute? context (given.emptied chosen) =
      usage.givenAttribute? context given := by
    intro given
    cases given with
    | named name value span => simp only [Attribute.emptied, Usage.givenAttribute?, infer_emptied]
    | _ => rfl
  have spread : ∀ given : Attribute, Usage.isOpenAttribute (given.emptied chosen) =
      Usage.isOpenAttribute given := by
    intro given
    cases given <;> rfl
  have found : ∀ child, usage.foundChild? context (child.emptied chosen) =
      usage.foundChild? context child := by
    intro child
    cases child with
    | value e span => simp only [Child.emptied, Usage.foundChild?, infer_emptied]
    | _ => rfl
  have entries : (attributes.map (Attribute.emptied chosen)).filterMap
      (usage.givenAttribute? context) = attributes.filterMap (usage.givenAttribute? context) := by
    rw [List.filterMap_map]
    exact congrArg (List.filterMap · attributes) (funext passed)
  have isOpen : (attributes.map (Attribute.emptied chosen)).any Usage.isOpenAttribute =
      attributes.any Usage.isOpenAttribute := by
    rw [List.any_map]
    exact congrArg attributes.any (funext spread)
  have contents : (children.map (Child.emptied chosen)).filterMap (usage.foundChild? context) =
      children.filterMap (usage.foundChild? context) := by
    rw [List.filterMap_map]
    exact congrArg (List.filterMap · children) (funext found)
  simp only [Usage.checkTagged, attributesEmptied_eq_map, childrenEmptied_eq_map, entries, isOpen,
    contents]

/-- A member is checked alike. -/
theorem checkMember_emptied (owner : Expr) (property : String) (propertySpan : Span) :
    usage.checkMember context (owner.emptied chosen) property propertySpan =
      usage.checkMember context owner property propertySpan := by
  have receiver : usage.receiverProblems context (owner.emptied chosen) property =
      usage.receiverProblems context owner property := by
    funext place
    rw [Usage.receiverProblems, Usage.receiverProblems, unparen_emptied]
    cases owner.unparen with
    | member object holder holderSpan span =>
        simp only [Expr.emptied, unparen_emptied]
        cases object.unparen <;> rfl
    | _ => rfl
  simp only [Usage.checkMember, receiver, Usage.constructorProblems, qualifiedName?_emptied,
    infer_emptied]

theorem readCallee_emptied (callee : Expr) :
    usage.readCallee context (callee.emptied chosen) = usage.readCallee context callee := by
  rw [Usage.readCallee, Usage.readCallee, unparen_emptied]
  cases callee.unparen with
  | member owner property propertySpan span =>
      exact checkMember_emptied chosen context usage owner property propertySpan
  | _ => rfl

theorem declareParams_emptied (params : List Parameter) (signature : Signature) :
    usage.declareParams (parametersEmptied chosen params) signature =
      usage.declareParams params signature := by
  have rest : (fun param : Parameter => !param.isRest) ∘ Parameter.emptied chosen =
      fun param => !param.isRest := by
    funext param
    exact congrArg not (isRest_emptied chosen param)
  rw [Usage.declareParams, Usage.declareParams, parametersEmptied_eq_map, List.filter_map, rest,
    List.zipIdx_map, List.foldl_map]
  congr 1
  funext usage entry
  simp only [Prod.map, parameterBinding_emptied]
  rfl

theorem enter_emptied (params : List Parameter) (span : Span) :
    usage.enter context (parametersEmptied chosen params) span = usage.enter context params span := by
  simp only [Usage.enter, declareParams_emptied]

theorem isClassFactoryCall_emptied (e : Expr) :
    Usage.isClassFactoryCall context (e.emptied chosen) = Usage.isClassFactoryCall context e := by
  rw [Usage.isClassFactoryCall, Usage.isClassFactoryCall, unparen_emptied]
  cases e.unparen with
  | call callee args span => exact congrArg (Option.any _) (qualifiedName?_emptied chosen callee)
  | _ => rfl

/-- A declaration binds its variable with the same type. -/
theorem declareOne_emptied (declarator : Declarator) (alone : Bool) (span : Span) :
    usage.declareOne context (declarator.emptied chosen) alone span =
      usage.declareOne context declarator alone span := by
  have typed : ∀ documented name,
      usage.declaredType context documented name (declarator.emptied chosen).init? =
        usage.declaredType context documented name declarator.init? := by
    intro documented name
    rw [init?_emptied]
    cases declarator.init? with
    | none => rfl
    | some e =>
        cases documented <;>
          simp only [Usage.declaredType, Option.map_some, infer_emptied, Option.any_some,
            isClassFactoryCall_emptied]
  simp only [Usage.declareOne, declaratorBinding_emptied, typed]

/-- A visit of what remains does what the visit does. -/
theorem Visit.apply_emptied (visit : Visit) :
    (visit.emptied chosen).apply context usage = visit.apply context usage := by
  cases visit with
  | enter params span => exact enter_emptied chosen context usage params span
  | leave => rfl
  | member owner property propertySpan =>
      exact checkMember_emptied chosen context usage owner property propertySpan
  | call callee args span =>
      simp only [Visit.emptied, Visit.apply, callKind_emptied, checkConstruction_emptied,
        readCallee_emptied, checkCall_emptied]
  | tagged tag attributes children span =>
      exact checkTagged_emptied chosen context usage tag attributes children span
  | declare declarator alone span =>
      exact declareOne_emptied chosen context usage declarator alone span

end Checks

/-! ## The route through what remains -/

/-- The visits outside of the chosen functions, as visits of what remains. -/
def remaining (chosen : Expr → Bool) (route : List Stop) : List Stop :=
  (route.filter fun stop => !stop.inside).map fun stop =>
    { stop with visit := stop.visit.emptied chosen }

section Remaining

variable (chosen : Expr → Bool)

/-- What remains of a route is what remains of its parts. -/
theorem remaining_append (route later : List Stop) :
    remaining chosen (route ++ later) = remaining chosen route ++ remaining chosen later := by
  rw [remaining, List.filter_append, List.map_append]
  rfl

theorem remaining_outside (visit : Visit) (route : List Stop) :
    remaining chosen (.outside visit :: route) =
      .outside (visit.emptied chosen) :: remaining chosen route := rfl

/-- Of a chosen body no visit remains, and of another one those of what remains of it. -/
theorem remaining_body {statements : List Stmt}
    (rest : stmtsRoute noneChosen (stmtsEmptied chosen statements) =
      remaining chosen (stmtsRoute chosen statements)) (isChosen : Bool) :
    bodyRoute false (stmtsRoute noneChosen (if isChosen then [] else stmtsEmptied chosen statements)) =
      remaining chosen (bodyRoute isChosen (stmtsRoute chosen statements)) := by
  cases isChosen with
  | false => exact rest
  | true =>
      have none : ((stmtsRoute chosen statements).map fun stop => { stop with inside := true }).filter
          (fun stop => !stop.inside) = [] := by
        rw [List.filter_map]
        exact List.map_eq_nil_iff.mpr (List.filter_eq_nil_iff.mpr fun _ _ => Bool.false_ne_true)
      simp only [bodyRoute, if_pos, remaining, none]
      rfl

/-- What remains of a callee's route beyond the reading of the callee. -/
theorem remaining_beyond {callee : Expr}
    (whole : (callee.emptied chosen).route noneChosen = remaining chosen (callee.route chosen))
    (receiver : callee.isMember = true →
      ((callee.emptied chosen).route noneChosen).tail =
        remaining chosen (callee.route chosen).tail) :
    beyondRead (callee.emptied chosen) ((callee.emptied chosen).route noneChosen) =
      remaining chosen (beyondRead callee (callee.route chosen)) := by
  unfold beyondRead
  rw [isMember_emptied]
  split
  next member => exact receiver member
  next => exact whole

theorem remaining_declares (declarators : List Declarator) (alone : Bool) (span : Span) :
    ((declaratorsEmptied chosen declarators).map fun declarator =>
        Stop.outside (.declare declarator alone span)) =
      remaining chosen (declarators.map fun declarator => .outside (.declare declarator alone span)) := by
  induction declarators with
  | nil => rfl
  | cons declarator rest ih => exact congrArg (List.cons _) ih

mutual
/-- The visits of what remains of an expression are those that remain. -/
theorem route_emptied :
    (e : Expr) → (e.emptied chosen).route noneChosen = remaining chosen (e.route chosen)
  | .template parts _ => exprsRoute_emptied parts
  | .array items _ => itemsRoute_emptied items
  | .object properties _ => propertiesRoute_emptied properties
  | .function params body span => by
    simp only [Expr.emptied, Expr.route, remaining_outside, remaining_append,
      parametersRoute_emptied params]
    rw [← remaining_body chosen (stmtsRoute_emptied body)]
    rfl
  | .arrow params concise body span => by
    simp only [Expr.emptied, Expr.route, remaining_append, parametersRoute_emptied params]
    rw [← remaining_body chosen (stmtsRoute_emptied body)]
    rfl
  | .member owner property propertySpan _ => by
    simp only [Expr.emptied, Expr.route, remaining_outside, route_emptied owner]
    rfl
  | .call callee args span => by
    simp only [Expr.emptied, Expr.route, remaining_outside, remaining_append,
      itemsRoute_emptied args,
      remaining_beyond chosen (route_emptied callee) (receiver_emptied callee)]
    rfl
  | .construct callee args _ => by
    simp only [Expr.emptied, Expr.route, remaining_append, route_emptied callee,
      itemsRoute_emptied args]
  | .unary _ operand _ => route_emptied operand
  | .binary _ left right _ => by
    simp only [Expr.emptied, Expr.route, remaining_append, route_emptied left, route_emptied right]
  | .conditional test consequent alternate _ => by
    simp only [Expr.emptied, Expr.route, remaining_append, route_emptied test,
      route_emptied consequent, route_emptied alternate]
  | .assign target value _ => by
    have later := route_emptied value
    have whole : (target.emptied chosen).route noneChosen ++ (value.emptied chosen).route noneChosen =
        remaining chosen (target.route chosen ++ value.route chosen) := by
      rw [remaining_append, route_emptied target, later]
    have owner := receiver_emptied target
    cases target with
    | member object property propertySpan span =>
        have inner : (object.emptied chosen).route noneChosen = remaining chosen (object.route chosen) :=
          owner rfl
        simp only [Expr.emptied, Expr.route, remaining_append, inner, later]
    | _ => exact whole
  | .paren inner _ => route_emptied inner
  | .element tag attributes children _ span => by
    simp only [Expr.emptied, Expr.route, remaining_outside, remaining_append,
      attributesRoute_emptied attributes, childrenRoute_emptied children]
    rfl
  | .fragment children _ => childrenRoute_emptied children
  | .other _ parts _ => partsRoute_emptied parts
  | .ident _ _ | .this _ | .string _ _ | .number _ _ | .bool _ _ | .null _ | .regex _ => rfl

theorem receiver_emptied : (e : Expr) → e.isMember = true →
    ((e.emptied chosen).route noneChosen).tail = remaining chosen (e.route chosen).tail
  | .paren inner _, member => receiver_emptied inner member
  | .member owner _ _ _, _ => route_emptied owner

theorem exprsRoute_emptied : (es : List Expr) →
    exprsRoute noneChosen (exprsEmptied chosen es) = remaining chosen (exprsRoute chosen es)
  | [] => rfl
  | e :: rest => by
    simp only [exprsEmptied, exprsRoute, remaining_append, route_emptied e, exprsRoute_emptied rest]

theorem itemRoute_emptied : (item : Item) →
    (item.emptied chosen).route noneChosen = remaining chosen (item.route chosen)
  | .value e => route_emptied e
  | .spread e _ => route_emptied e
  | .hole => rfl

theorem itemsRoute_emptied : (items : List Item) →
    itemsRoute noneChosen (itemsEmptied chosen items) = remaining chosen (itemsRoute chosen items)
  | [] => rfl
  | item :: rest => by
    simp only [itemsEmptied, itemsRoute, remaining_append, itemRoute_emptied item,
      itemsRoute_emptied rest]

theorem keyRoute_emptied : (key : Key) →
    (key.emptied chosen).route noneChosen = remaining chosen (key.route chosen)
  | .named _ _ => rfl
  | .computed e => route_emptied e

theorem propertyRoute_emptied : (property : Property) →
    (property.emptied chosen).route noneChosen = remaining chosen (property.route chosen)
  | .entry key value _ => by
    simp only [Property.emptied, Property.route, remaining_append, keyRoute_emptied key,
      route_emptied value]
  | .spread e _ => route_emptied e

theorem propertiesRoute_emptied : (properties : List Property) →
    propertiesRoute noneChosen (propertiesEmptied chosen properties) =
      remaining chosen (propertiesRoute chosen properties)
  | [] => rfl
  | property :: rest => by
    simp only [propertiesEmptied, propertiesRoute, remaining_append, propertyRoute_emptied property,
      propertiesRoute_emptied rest]

theorem bindingRoute_emptied : (binding : Binding) →
    (binding.emptied chosen).route noneChosen = remaining chosen (binding.route chosen)
  | .name _ _ => rfl
  | .pattern parts => exprsRoute_emptied parts

theorem parameterRoute_emptied : (parameter : Parameter) →
    (parameter.emptied chosen).route noneChosen = remaining chosen (parameter.route chosen)
  | .plain binding => bindingRoute_emptied binding
  | .defaulted binding value => by
    simp only [Parameter.emptied, Parameter.route, remaining_append, bindingRoute_emptied binding,
      route_emptied value]
  | .rest binding => bindingRoute_emptied binding

theorem parametersRoute_emptied : (parameters : List Parameter) →
    parametersRoute noneChosen (parametersEmptied chosen parameters) =
      remaining chosen (parametersRoute chosen parameters)
  | [] => rfl
  | parameter :: rest => by
    simp only [parametersEmptied, parametersRoute, remaining_append,
      parameterRoute_emptied parameter, parametersRoute_emptied rest]

theorem declaratorRoute_emptied : (declarator : Declarator) →
    (declarator.emptied chosen).route noneChosen = remaining chosen (declarator.route chosen)
  | .bare binding => bindingRoute_emptied binding
  | .initialized binding value => by
    simp only [Declarator.emptied, Declarator.route, remaining_append,
      bindingRoute_emptied binding, route_emptied value]

theorem declaratorsRoute_emptied : (declarators : List Declarator) →
    declaratorsRoute noneChosen (declaratorsEmptied chosen declarators) =
      remaining chosen (declaratorsRoute chosen declarators)
  | [] => rfl
  | declarator :: rest => by
    simp only [declaratorsEmptied, declaratorsRoute, remaining_append,
      declaratorRoute_emptied declarator, declaratorsRoute_emptied rest]

theorem attributeRoute_emptied : (given : Attribute) →
    (given.emptied chosen).route noneChosen = remaining chosen (given.route chosen)
  | .named _ value _ => route_emptied value
  | .foreign value => route_emptied value
  | .spread e => route_emptied e

theorem attributesRoute_emptied : (givens : List Attribute) →
    attributesRoute noneChosen (attributesEmptied chosen givens) =
      remaining chosen (attributesRoute chosen givens)
  | [] => rfl
  | given :: rest => by
    simp only [attributesEmptied, attributesRoute, remaining_append, attributeRoute_emptied given,
      attributesRoute_emptied rest]

theorem childRoute_emptied : (child : Child) →
    (child.emptied chosen).route noneChosen = remaining chosen (child.route chosen)
  | .text _ _ => rfl
  | .value e _ => route_emptied e
  | .spread e _ => route_emptied e

theorem childrenRoute_emptied : (children : List Child) →
    childrenRoute noneChosen (childrenEmptied chosen children) =
      remaining chosen (childrenRoute chosen children)
  | [] => rfl
  | child :: rest => by
    simp only [childrenEmptied, childrenRoute, remaining_append, childRoute_emptied child,
      childrenRoute_emptied rest]

/-- The visits of what remains of a statement are those that remain. -/
theorem stmtRoute_emptied : (s : Stmt) →
    (s.emptied chosen).route noneChosen = remaining chosen (s.route chosen)
  | .expression e _ => route_emptied e
  | .variables _ declarators span => by
    simp only [Stmt.emptied, Stmt.route, remaining_append, declaratorsRoute_emptied declarators,
      remaining_declares]
    rw [declaratorsEmptied_eq_map, List.length_map]
  | .returns value => route_emptied value
  | .other parts => partsRoute_emptied parts

theorem stmtsRoute_emptied : (statements : List Stmt) →
    stmtsRoute noneChosen (stmtsEmptied chosen statements) =
      remaining chosen (stmtsRoute chosen statements)
  | [] => rfl
  | s :: rest => by
    simp only [stmtsEmptied, stmtsRoute, remaining_append, stmtRoute_emptied s,
      stmtsRoute_emptied rest]

theorem partRoute_emptied : (part : Part) →
    (part.emptied chosen).route noneChosen = remaining chosen (part.route chosen)
  | .expr e => route_emptied e
  | .stmt s => stmtRoute_emptied s

theorem partsRoute_emptied : (parts : List Part) →
    partsRoute noneChosen (partsEmptied chosen parts) = remaining chosen (partsRoute chosen parts)
  | [] => rfl
  | part :: rest => by
    simp only [partsEmptied, partsRoute, remaining_append, partRoute_emptied part,
      partsRoute_emptied rest]
end

end Remaining

end ClassFactory
