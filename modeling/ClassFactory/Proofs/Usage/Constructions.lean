/-
Module: ClassFactory.Proofs.Usage.Constructions
Purpose: An element may be written as a tag or made by a call of the element factory. The tag is
  looked up among the registered components, the first argument of the call is an expression with
  variables around it. So both forms give the same element unless a variable, or a member of one,
  hides what is registered under the name; and then what is passed is judged alike.
Main exports: Spells, Misleads, SameParts, elementProblems_codes, constructions_agree
-/
import ClassFactory.Proofs.Usage.Steps
import ClassFactory.Proofs.Usage.Values
import Mathlib.Data.List.Forall2

namespace ClassFactory

open Script (Expr Item Property Key Tag Attribute Child)

/-! ## The component of an element -/

/-- The tag and the expression spell the same name or dotted name. -/
inductive Spells : Tag → Expr → Prop where
  | reference (name : String) (span place : Span) :
      Spells (.reference name span) (.ident name place)
  | member {object : Tag} {owner : Expr} (spells : Spells object owner) (property : String)
      (span propertySpan place : Span) :
      Spells (.member object property span) (.member owner property propertySpan place)

/-- A tag and the expression that spells it have one name. -/
theorem Spells.name_eq {tag : Tag} {e : Expr} (spells : Spells tag e) :
    tag.name? = e.qualifiedName? := by
  induction spells with
  | reference name span place => rfl
  | member spells property span propertySpan place ih =>
      rw [Tag.name?, Expr.qualifiedName?, ih]

theorem Spells.exists_name {tag : Tag} {e : Expr} (spells : Spells tag e) :
    ∃ name, e.qualifiedName? = some name := by
  induction spells with
  | reference name span place => exact ⟨name, rfl⟩
  | member spells property span propertySpan place ih =>
      rcases ih with ⟨name, named⟩
      exact ⟨name ++ "." ++ property, by rw [Expr.qualifiedName?, named, Option.map_some]⟩

/-- The type is that of what is registered under the name: the constructor of the component, or of
none if there is none. -/
def Means (setting : Setting) (name : String) (type : Ty) : Prop :=
  elementMadeBy type = .element ((some name).filter setting.isComponent)

/-- Where it is used, a name or dotted name has another meaning than what is registered under it. -/
inductive Misleads (setting : Setting) : Expr → Prop where
  /-- A variable in scope hides it. -/
  | hidden {name : String} {type : Ty} (span : Span) (named : name ≠ "undefined")
      (bound : (setting.scopes.findSome? fun scope => scope.lookup name) = some type)
      (differs : ¬ Means setting name type) : Misleads setting (.ident name span)
  /-- The one name that is never looked up. -/
  | undefined (span : Span) (registered : setting.isComponent "undefined" = true) :
      Misleads setting (.ident "undefined" span)
  /-- Nothing is registered under the dotted name, and the member is the constructor of a
  component. -/
  | member {owner : Expr} {property name component : String} (propertySpan span : Span)
      (named : (Expr.member owner property propertySpan span).qualifiedName? = some name)
      (unregistered : setting.isComponent name = false)
      (holds : setting.memberType (setting.infer owner) property = .constructor component) :
      Misleads setting (.member owner property propertySpan span)

/-- A type makes no known element just if it constructs no component. -/
theorem elementMadeBy_eq_none_iff {type : Ty} :
    elementMadeBy type = .element none ↔ ∀ component, type ≠ .constructor component := by
  cases type <;> simp [elementMadeBy]

/-- The type of what is registered under a name means that. -/
theorem means_of_registered {setting : Setting} {name : String} :
    Means setting name (if setting.isComponent name then .constructor name else .unknown) := by
  by_cases registered : setting.isComponent name = true
  · rw [if_pos registered, Means, Option.filter_some, if_pos registered]
    rfl
  · rw [if_neg registered, Means, Option.filter_some, if_neg registered]
    rfl

/-- A variable means what is registered under its name unless it misleads. -/
theorem means_variable_iff {setting : Setting} {name : String} {span : Span} :
    Means setting name (setting.infer (.ident name span)) ↔
      ¬ Misleads setting (.ident name span) := by
  have typed : setting.infer (.ident name span) = setting.variableType name := rfl
  rw [typed, Setting.variableType]
  by_cases isUndefined : name = "undefined"
  · rw [if_pos isUndefined]
    cases isUndefined
    constructor
    · intro means misleads
      cases misleads with
      | hidden _ named => exact named rfl
      | undefined _ registered =>
          rw [Means, Option.filter_some, if_pos registered] at means
          cases means
    · intro sound
      have unregistered : ¬ setting.isComponent "undefined" = true :=
        fun registered => sound (.undefined span registered)
      rw [Means, Option.filter_some, if_neg unregistered]
      rfl
  · rw [if_neg isUndefined]
    cases bound : setting.scopes.findSome? fun scope => scope.lookup name with
    | none =>
        apply iff_of_true means_of_registered
        intro misleads
        cases misleads with
        | hidden _ _ found =>
            rw [bound] at found
            cases found
        | undefined => exact isUndefined rfl
    | some type =>
        constructor
        · intro means misleads
          cases misleads with
          | hidden _ _ found differs =>
              rw [bound] at found
              cases found
              exact differs means
          | undefined => exact isUndefined rfl
        · intro sound
          exact Classical.byContradiction fun differs =>
            sound (.hidden span isUndefined bound differs)

/-- So does a dotted name. -/
theorem means_member_iff {setting : Setting} {owner : Expr} {property name : String}
    {propertySpan span : Span}
    (named : (Expr.member owner property propertySpan span).qualifiedName? = some name) :
    Means setting name (setting.infer (.member owner property propertySpan span)) ↔
      ¬ Misleads setting (.member owner property propertySpan span) := by
  have spelled : (owner.qualifiedName?.map fun name => name ++ "." ++ property) = some name := named
  have typed : setting.infer (.member owner property propertySpan span) =
      if setting.isComponent name then .constructor name
      else setting.memberType (setting.infer owner) property := by
    simp only [Setting.infer, spelled]
  rw [typed]
  by_cases registered : setting.isComponent name = true
  · rw [if_pos registered, Means, Option.filter_some, if_pos registered]
    apply iff_of_true rfl
    intro misleads
    cases misleads with
    | member _ _ again unregistered holds =>
        cases named.symm.trans again
        rw [registered] at unregistered
        cases unregistered
  · rw [if_neg registered, Means, Option.filter_some, if_neg registered,
      elementMadeBy_eq_none_iff]
    constructor
    · intro none misleads
      cases misleads with
      | member _ _ again unregistered holds => exact none _ holds
    · intro sound component holds
      exact sound (.member propertySpan span named (by simpa using registered) holds)

/-- A tag and the expression that spells it make the same element just if nothing misleads. -/
theorem taggedElement_eq_iff {setting : Setting} {tag : Tag} {e : Expr} (spells : Spells tag e) :
    setting.taggedElement tag = setting.elementOf e ↔ ¬ Misleads setting e := by
  rcases spells.exists_name with ⟨name, named⟩
  rw [Setting.taggedElement, Setting.elementOf, spells.name_eq, named, eq_comm]
  cases spells with
  | reference spelled span place =>
      cases named
      exact means_variable_iff
  | member spells property span propertySpan place => exact means_member_iff named

/-! ## What is passed -/

/-- Two given props of one name and one type, at any places. -/
structure SameGiven (one other : String × FoundType) : Prop where
  name : one.1 = other.1
  type : one.2.type = other.2.type

section Codes

variable {component : ComponentType}

/-- A given prop is reported under the same code whatever its place. -/
theorem givenProblem?_code {one other : String × FoundType} (same : SameGiven one other) :
    (givenProblem? component one).map Diagnostic.code =
      (givenProblem? component other).map Diagnostic.code := by
  rcases one with ⟨name, type, site⟩
  rcases other with ⟨otherName, otherType, otherSite⟩
  cases same.name
  cases same.type
  simp only [givenProblem?]
  split
  · cases component.props.field? name with
    | none => rfl
    | some field =>
        simp only [Option.bind_some]
        split
        · rfl
        · rfl
  · rfl

theorem childProblem?_code {one other : FoundType} (same : one.type = other.type) :
    (childProblem? one).map Diagnostic.code = (childProblem? other).map Diagnostic.code := by
  rw [childProblem?, childProblem?, same]
  split
  · rfl
  · rfl

/-- Entries that are reported alike one by one are reported alike together. -/
theorem filterMap_codes {α : Type} {related : α → α → Prop} {problem? : α → Option Diagnostic}
    {ones others : List α} (same : List.Forall₂ related ones others)
    (alike : ∀ one other, related one other →
      (problem? one).map Diagnostic.code = (problem? other).map Diagnostic.code) :
    (ones.filterMap problem?).map Diagnostic.code =
      (others.filterMap problem?).map Diagnostic.code := by
  rw [List.map_filterMap, List.map_filterMap]
  induction same with
  | nil => rfl
  | cons here _ ih => rw [List.filterMap_cons, List.filterMap_cons, alike _ _ here, ih]

theorem childProblems_codes {ones others : List FoundType}
    (same : List.Forall₂ (fun one other => one.type = other.type) ones others) :
    (childProblems component ones).map Diagnostic.code =
      (childProblems component others).map Diagnostic.code := by
  unfold childProblems
  cases component.props.children? with
  | none => rfl
  | some field =>
      cases same with
      | nil => rfl
      | cons here rest =>
          cases rest with
          | nil =>
              dsimp only
              rw [here]
              split
              · rfl
              · rfl
          | cons next rest =>
              exact filterMap_codes (.cons here (.cons next rest)) fun _ _ => childProblem?_code

theorem has_eq {one other : GivenProps} (same : List.Forall₂ SameGiven one.entries other.entries)
    (name : String) : one.has name = other.has name := by
  unfold GivenProps.has
  generalize one.entries = ones, other.entries = others at same
  induction same with
  | nil => rfl
  | cons here _ ih => rw [List.any_cons, List.any_cons, ih, here.name]

/-- So is a prop that is missing. -/
theorem missingProblem?_code {one other : GivenProps}
    (same : List.Forall₂ SameGiven one.entries other.entries) (hasChildren : Bool)
    (place otherPlace : Site) (name : String) (field : PropField) :
    (missingProblem? component one hasChildren place name field).map Diagnostic.code =
      (missingProblem? component other hasChildren otherPlace name field).map Diagnostic.code := by
  rw [missingProblem?, missingProblem?, has_eq same]
  repeat' split
  all_goals rfl

/-- Where the props and children of an element stand does not matter to the codes of the findings. -/
theorem elementProblems_codes (component : ComponentType) {one other : GivenProps} {children otherChildren : List FoundType}
    (entries : List.Forall₂ SameGiven one.entries other.entries)
    (isOpen : one.isOpen = other.isOpen)
    (same : List.Forall₂ (fun one other => one.type = other.type) children otherChildren)
    (place otherPlace : Site) :
    (elementProblems component one children place).map Diagnostic.code =
      (elementProblems component other otherChildren otherPlace).map Diagnostic.code := by
  have empty : children.isEmpty = otherChildren.isEmpty := by
    cases same with
    | nil => rfl
    | cons _ _ => rfl
  have given : (one.entries.filterMap (givenProblem? component)).map Diagnostic.code =
      (other.entries.filterMap (givenProblem? component)).map Diagnostic.code :=
    filterMap_codes entries fun _ _ => givenProblem?_code
  have missing : ∀ name field,
      (missingProblem? component one (!children.isEmpty) place name field).map Diagnostic.code =
        (missingProblem? component other (!otherChildren.isEmpty) otherPlace name field).map
          Diagnostic.code := by
    intro name field
    rw [empty]
    exact missingProblem?_code entries _ place otherPlace name field
  unfold elementProblems
  rw [List.map_append, List.map_append, List.map_append, List.map_append, given,
    childProblems_codes same, isOpen]
  split
  · rfl
  · simp only [List.map_filterMap, missing]

end Codes

/-! ## The same parts in both forms -/

/-- The two steps leave the same variables, and what they find has the same codes. -/
def Alike (step other : Usage → Usage) : Prop :=
  ∀ usage : Usage, (step usage.bare).frames = (other usage.bare).frames ∧
    (step usage.bare).found.map Diagnostic.code = (other usage.bare).found.map Diagnostic.code

namespace Alike

variable {step other next otherNext : Usage → Usage}

theorem refl (step : Usage → Usage) : Alike step step := fun _ => ⟨rfl, rfl⟩

/-- Steps that are alike stay so when one follows the other. -/
theorem andThen (first : Alike step other) (second : Alike next otherNext)
    (appends : Usage.Appends next) (otherAppends : Usage.Appends otherNext) :
    Alike (fun usage => next (step usage)) (fun usage => otherNext (other usage)) := by
  intro usage
  rcases first usage with ⟨frames, codes⟩
  rcases second (step usage.bare) with ⟨laterFrames, laterCodes⟩
  have here : (other usage.bare).bare = (step usage.bare).bare :=
    Usage.bare_eq_of_frames frames.symm
  constructor
  · rw [appends.frames, otherAppends.frames, here, laterFrames]
  · rw [appends.found, otherAppends.found, here, List.map_append, List.map_append, laterCodes,
      codes]

end Alike

/-- The two expressions, at whatever places, have the same type in every setting, and walking
through one is like walking through the other. -/
structure Interchangeable (context : UsageContext) (one other : Expr) : Prop where
  type : ∀ setting : Setting, setting.infer one = setting.infer other
  walk : Alike (checkExpr context one) (checkExpr context other)

theorem Interchangeable.refl (context : UsageContext) (e : Expr) : Interchangeable context e e :=
  ⟨fun _ => rfl, .refl _⟩

/-- An attribute and a property that pass the same. -/
inductive SameProp (context : UsageContext) : Attribute → Property → Prop where
  | named {value other : Expr} (same : Interchangeable context value other) (name : String)
      (span keySpan place : Span) :
      SameProp context (.named name value span) (.entry (.named name keySpan) other place)
  | spread {e other : Expr} (same : Interchangeable context e other) (span : Span) :
      SameProp context (.spread e) (.spread other span)

/-- Children of an element and arguments of a call that pass the same. Text is passed without the
white space around it, and white space alone is not passed. -/
inductive SameChildren (context : UsageContext) : List Child → List Item → Prop where
  | nil : SameChildren context [] []
  | blank {raw : String} {children : List Child} {items : List Item}
      (blank : (Text.trimText raw).isEmpty = true) (span : Span)
      (rest : SameChildren context children items) :
      SameChildren context (.text raw span :: children) items
  | text {raw : String} {children : List Child} {items : List Item}
      (written : (Text.trimText raw).isEmpty = false) (span place : Span)
      (rest : SameChildren context children items) :
      SameChildren context (.text raw span :: children)
        (.value (.string (Text.trimText raw) place) :: items)
  | value {e other : Expr} {children : List Child} {items : List Item}
      (same : Interchangeable context e other) (span : Span)
      (rest : SameChildren context children items) :
      SameChildren context (.value e span :: children) (.value other :: items)
  | spread {e other : Expr} {children : List Child} {items : List Item}
      (same : Interchangeable context e other) (span place : Span)
      (rest : SameChildren context children items) :
      SameChildren context (.spread e span :: children) (.spread other place :: items)

/-- The attributes and children of an element and the arguments of a call behind the first one that
pass the same. Without attributes there is no object, or `null`, or nothing at all. -/
inductive SameParts (context : UsageContext) : List Attribute → List Child → List Item → Prop where
  | none {children : List Child} (same : SameChildren context children []) :
      SameParts context [] children []
  | null {e : Expr} {span : Span} {children : List Child} {items : List Item}
      (written : e.unparen = .null span) (same : SameChildren context children items) :
      SameParts context [] children (.value e :: items)
  | object {e : Expr} {attributes : List Attribute} {properties : List Property} {span : Span}
      {children : List Child} {items : List Item} (written : e.unparen = .object properties span)
      (props : List.Forall₂ (SameProp context) attributes properties)
      (same : SameChildren context children items) :
      SameParts context attributes children (.value e :: items)

section Parts

variable {context : UsageContext} {attributes : List Attribute} {properties : List Property}
  {children : List Child} {items : List Item}

/-- Parentheses make no difference to the walk. -/
theorem checkExpr_unparen (context : UsageContext) (e : Expr) :
    checkExpr context e.unparen = checkExpr context e :=
  apply_unparen (checkExpr context) (fun _ _ => rfl) e

theorem sameProp_walk {given : Attribute} {property : Property}
    (same : SameProp context given property) :
    Alike (checkAttribute context given) (checkProperty context property) := by
  cases same with
  | named same => exact same.walk
  | spread same => exact same.walk

theorem sameProps_walk (same : List.Forall₂ (SameProp context) attributes properties) :
    Alike (checkAttributes context attributes) (checkProperties context properties) := by
  induction same with
  | nil => exact .refl _
  | cons here _ ih =>
      exact (sameProp_walk here).andThen ih (checkAttributes_appends context _)
        (checkProperties_appends context _)

theorem sameChildren_walk (same : SameChildren context children items) :
    Alike (checkChildren context children) (checkItems context items) := by
  induction same with
  | nil => exact .refl _
  | blank _ span _ ih => exact ih
  | text _ span place _ ih => exact ih
  | value same span _ ih =>
      exact same.walk.andThen ih (checkChildren_appends context _) (checkItems_appends context _)
  | spread same span place _ ih =>
      exact same.walk.andThen ih (checkChildren_appends context _) (checkItems_appends context _)

theorem sameParts_walk (same : SameParts context attributes children items) :
    Alike (fun usage => checkChildren context children (checkAttributes context attributes usage))
      (checkItems context items) := by
  have behind : ∀ (e : Expr) (rest : List Item), checkItems context (.value e :: rest) =
      fun usage => checkItems context rest (checkExpr context e.unparen usage) := by
    intro e rest
    rw [checkExpr_unparen]
    rfl
  cases same with
  | none same => exact sameChildren_walk same
  | null written same =>
      rw [behind, written]
      exact sameChildren_walk same
  | object written props same =>
      rw [behind, written]
      exact (sameProps_walk props).andThen (sameChildren_walk same)
        (checkChildren_appends context _) (checkItems_appends context _)

/-! ### Types of what is passed -/

/-- Props that are the same in both forms are given alike. -/
theorem sameProps_entries (usage : Usage)
    (same : List.Forall₂ (SameProp context) attributes properties) :
    List.Forall₂ SameGiven (attributes.filterMap (usage.givenAttribute? context))
        ((properties.map (usage.givenField? context)).filterMap id) ∧
      attributes.any Usage.isOpenAttribute =
        (properties.map (usage.givenField? context)).any Option.isNone := by
  induction same with
  | nil => exact ⟨.nil, rfl⟩
  | cons here _ ih =>
      rcases ih with ⟨entries, isOpen⟩
      cases here with
      | named same name span keySpan place =>
          exact ⟨.cons ⟨rfl, same.type _⟩ entries, isOpen⟩
      | spread same span => exact ⟨entries, rfl⟩

theorem sameChildren_types (usage : Usage) (same : SameChildren context children items) :
    List.Forall₂ (fun one other => one.type = other.type)
      (children.filterMap (usage.foundChild? context))
      (items.map (usage.givenChild context)) := by
  induction same with
  | nil => exact .nil
  | blank blank span rest ih =>
      rw [List.filterMap_cons, Usage.foundChild?, if_pos blank]
      exact ih
  | text written span place rest ih =>
      rw [List.filterMap_cons, Usage.foundChild?, if_neg (by simp [written])]
      exact .cons rfl ih
  | value same span rest ih => exact .cons (same.type _) ih
  | spread same span place rest ih => exact .cons rfl ih

/-- The props that attributes pass. -/
def writtenProps (context : UsageContext) (usage : Usage) (attributes : List Attribute) :
    GivenProps :=
  { entries := attributes.filterMap (usage.givenAttribute? context),
    isOpen := attributes.any Usage.isOpenAttribute }

/-- The props that both forms pass, whatever stands in the place of the object. -/
theorem sameParts_given (usage : Usage) (same : SameParts context attributes children items) :
    List.Forall₂ SameGiven (writtenProps context usage attributes).entries
        (usage.givenProps context (Script.firstValue? items)).entries ∧
      (writtenProps context usage attributes).isOpen =
        (usage.givenProps context (Script.firstValue? items)).isOpen := by
  cases same with
  | none same =>  exact ⟨.nil, rfl⟩
  | null written same =>
      simp only [Script.firstValue?, List.head?_cons, Option.bind_some, Item.value?,
        Usage.givenProps, Option.map_some, written]
      exact ⟨.nil, rfl⟩
  | object written props same =>
      simp only [Script.firstValue?, List.head?_cons, Option.bind_some, Item.value?,
        Usage.givenProps, Option.map_some, written]
      exact sameProps_entries usage props

theorem sameParts_children (usage : Usage) (same : SameParts context attributes children items) :
    List.Forall₂ (fun one other => one.type = other.type)
      (children.filterMap (usage.foundChild? context))
      ((items.drop 1).map (usage.givenChild context)) := by
  cases same with
  | none same => exact sameChildren_types usage same
  | null _ same => exact sameChildren_types usage same
  | object _ _ same => exact sameChildren_types usage same

/-! ### Both forms -/

/-- The elements and the findings, the latest first, by which one state is ahead of another. -/
structure Usage.Adds (before after : Usage) (attached : List (Site × Ty))
    (found : List Diagnostic) : Prop where
  attached : after.attached = attached ++ before.attached
  found : after.found = found ++ before.found

/-- What is added by two steps is the later part in front of the earlier one. -/
theorem Usage.Adds.trans {first second third : Usage} {attached later : List (Site × Ty)}
    {found laterFound : List Diagnostic} (one : first.Adds second attached found)
    (other : second.Adds third later laterFound) :
    first.Adds third (later ++ attached) (laterFound ++ found) where
  attached := by rw [other.attached, one.attached, List.append_assoc]
  found := by rw [other.found, one.found, List.append_assoc]

/-- A step that appends is ahead by what it adds to an empty state. -/
theorem Usage.Appends.adds {step : Usage → Usage} (h : Usage.Appends step) (usage : Usage) :
    usage.Adds (step usage) (step usage.bare).attached (step usage.bare).found :=
  ⟨h.attached usage, h.found usage⟩

theorem checkTagged_attached (usage : Usage) (tag : Tag) (span : Span) :
    (usage.checkTagged context tag attributes children span).attached =
      (context.unit.site span, (usage.setting context).taggedElement tag) :: usage.attached := by
  unfold Usage.checkTagged
  dsimp only
  split
  · rfl
  · rfl

theorem checkConstruction_attached (usage : Usage) (e : Expr) (span : Span) :
    (usage.checkConstruction context (.value e :: items) span).attached =
      (context.unit.site span, (usage.setting context).elementOf e) :: usage.attached := by
  unfold Usage.checkConstruction
  dsimp only
  split
  · rfl
  · rfl

/-- If both forms give the same element, what they pass is judged alike. -/
theorem construction_codes (usage : Usage) (same : SameParts context attributes children items)
    {tag : Tag} {e : Expr}
    (element : (usage.setting context).taggedElement tag = (usage.setting context).elementOf e)
    (span place : Span) :
    (usage.checkTagged context tag attributes children span).found.map Diagnostic.code =
      (usage.checkConstruction context (.value e :: items) place).found.map Diagnostic.code := by
  rcases sameParts_given usage same with ⟨entries, isOpen⟩
  unfold Usage.checkTagged Usage.checkConstruction
  dsimp only
  rw [element]
  cases Usage.elementComponent? context ((usage.setting context).elementOf e) with
  | none => rfl
  | some component =>
      have codes := elementProblems_codes component entries isOpen
        (sameParts_children usage same) (context.unit.site span) (context.unit.site place)
      rw [writtenProps] at codes
      simp only [Usage.report, Usage.attach, List.map_append, List.map_reverse, codes]

/-- Walking through a name or dotted name binds nothing. -/
theorem checkExpr_frames_of_named (context : UsageContext) : (e : Expr) → {name : String} →
    e.qualifiedName? = some name → (usage : Usage) →
    (checkExpr context e usage).frames = usage.frames
  | .ident _ _, _, _, _ => rfl
  | .paren inner _, _, named, usage => checkExpr_frames_of_named context inner named usage
  | .member owner property propertySpan _, _, named, usage => by
    rcases Option.map_eq_some_iff.mp named with ⟨name, ownerNamed, -⟩
    exact checkExpr_frames_of_named context owner ownerNamed
      (usage.checkMember context owner property propertySpan)

/-- A step finds nothing just if it finds nothing from a state without findings. -/
theorem Usage.Appends.found_eq_iff {step : Usage → Usage} (h : Usage.Appends step) (usage : Usage) :
    (step usage).found = usage.found ↔ (step usage.bare).found = [] := by
  rw [h.found, List.append_left_eq_self]

/-- A call of an element factory is walked over in the order of its parts and then checked. -/
theorem checkExpr_construction {callee : Expr}
    (factory : callee.qualifiedName?.any context.unit.options.isElementFactory = true) (e : Expr)
    (items : List Item) (place : Span) (usage : Usage) :
    checkExpr context (.call callee (.value e :: items) place) usage =
      checkItems context items (checkExpr context e (checkExpr context callee
        (usage.checkConstruction context (.value e :: items) place))) := by
  simp only [checkExpr, Usage.callKind, factory, if_pos]
  rfl

/-- What the tag adds: the element, and then what is found in the attributes and children. -/
theorem element_adds (context : UsageContext) (usage : Usage) (tag : Tag)
    (attributes : List Attribute) (children : List Child) (closing : Option Tag) (span : Span) :
    usage.Adds (checkExpr context (.element tag attributes children closing span) usage)
      ((checkChildren context children (checkAttributes context attributes usage.bare)).attached ++
        [(context.unit.site span, (usage.setting context).taggedElement tag)])
      ((checkChildren context children (checkAttributes context attributes usage.bare)).found ++
        (usage.bare.checkTagged context tag attributes children span).found) := by
  have construction := (Usage.checkTagged_appends context tag attributes children span).adds usage
  rw [checkTagged_attached] at construction
  have inside : Usage.Appends fun usage =>
      checkChildren context children (checkAttributes context attributes usage) :=
    (checkAttributes_appends context attributes).andThen (checkChildren_appends context children)
  have later := inside.adds (usage.checkTagged context tag attributes children span)
  have bare : (usage.checkTagged context tag attributes children span).bare = usage.bare :=
    Usage.bare_eq_of_frames (Usage.checkTagged_frames context tag attributes children span usage)
  rw [bare] at later
  exact construction.trans later

/-- What the call adds: the element, what is found in the names, and then in the other arguments. -/
theorem construction_adds (usage : Usage) {callee e : Expr} {factoryName name : String}
    (factory : callee.qualifiedName?.any context.unit.options.isElementFactory = true)
    (calleeNamed : callee.qualifiedName? = some factoryName) (named : e.qualifiedName? = some name)
    (items : List Item) (place : Span) :
    usage.Adds (checkExpr context (.call callee (.value e :: items) place) usage)
      ((checkItems context items usage.bare).attached ++
        (checkExpr context e (checkExpr context callee usage.bare)).attached ++
        [(context.unit.site place, (usage.setting context).elementOf e)])
      ((checkItems context items usage.bare).found ++
        (checkExpr context e (checkExpr context callee usage.bare)).found ++
        (usage.bare.checkConstruction context (.value e :: items) place).found) := by
  have construction :=
    (Usage.checkConstruction_appends context (.value e :: items) place).adds usage
  rw [checkConstruction_attached] at construction
  have names : Usage.Appends fun usage => checkExpr context e (checkExpr context callee usage) :=
    (checkExpr_appends context callee).andThen (checkExpr_appends context e)
  let made := usage.checkConstruction context (.value e :: items) place
  have madeBare : made.bare = usage.bare :=
    Usage.bare_eq_of_frames (Usage.checkConstruction_frames context _ place usage)
  have walked := names.adds made
  rw [madeBare] at walked
  let visited := checkExpr context e (checkExpr context callee made)
  have visitedBare : visited.bare = usage.bare := by
    rw [← madeBare]
    apply Usage.bare_eq_of_frames
    exact (checkExpr_frames_of_named context e named _).trans
      (checkExpr_frames_of_named context callee calleeNamed made)
  have later := (checkItems_appends context items).adds visited
  rw [visitedBare] at later
  rw [checkExpr_construction factory]
  exact construction.trans (walked.trans later)

end Parts

/-- For a name or dotted name, written as a tag and as the first argument of the element factory with
the same props and children, both constructions are attached the types that the tag and the argument
have. These are equal just if nothing misleads: no variable hides the name, and no dotted name that
nothing is registered under reaches a component. If they are equal, both constructions raise the
same codes in the same order just if walking through the callee and the argument raises nothing. -/
theorem constructions_agree (context : UsageContext) (usage : Usage) {tag : Tag} {e callee : Expr}
    (spells : Spells tag e)
    (factory : callee.qualifiedName?.any context.unit.options.isElementFactory = true)
    {attributes : List Attribute} {children : List Child} {items : List Item}
    (same : SameParts context attributes children items) (closing : Option Tag)
    (span place : Span) :
    ∃ tagged called taggedFound calledFound,
      usage.Adds (checkExpr context (.element tag attributes children closing span) usage)
        (tagged ++ [(context.unit.site span, (usage.setting context).taggedElement tag)])
        taggedFound ∧
      usage.Adds (checkExpr context (.call callee (.value e :: items) place) usage)
        (called ++ [(context.unit.site place, (usage.setting context).elementOf e)])
        calledFound ∧
      ((usage.setting context).taggedElement tag = (usage.setting context).elementOf e ↔
        ¬ Misleads (usage.setting context) e) ∧
      ((usage.setting context).taggedElement tag = (usage.setting context).elementOf e →
        (taggedFound.map Diagnostic.code = calledFound.map Diagnostic.code ↔
          (checkExpr context callee usage).found = usage.found ∧
            (checkExpr context e usage).found = usage.found)) := by
  rcases spells.exists_name with ⟨name, named⟩
  have calleeNamed : ∃ factoryName, callee.qualifiedName? = some factoryName := by
    cases found : callee.qualifiedName? with
    | none => simp [found] at factory
    | some factoryName => exact ⟨factoryName, rfl⟩
  rcases calleeNamed with ⟨factoryName, calleeNamed⟩
  have quiet : (checkExpr context e (checkExpr context callee usage.bare)).found = [] ↔
      (checkExpr context callee usage).found = usage.found ∧
        (checkExpr context e usage).found = usage.found := by
    have frames : (checkExpr context callee usage.bare).bare = usage.bare :=
      Usage.bare_eq_of_frames (checkExpr_frames_of_named context callee calleeNamed usage.bare)
    rw [(checkExpr_appends context callee).found_eq_iff, (checkExpr_appends context e).found_eq_iff,
      (checkExpr_appends context e).found, frames, List.append_eq_nil_iff, and_comm]
  refine ⟨_, _, _, _, element_adds context usage tag attributes children closing span,
    construction_adds usage factory calleeNamed named items place,
    taggedElement_eq_iff spells, fun element => ?_⟩
  have constructed : (usage.bare.checkTagged context tag attributes children span).found.map
      Diagnostic.code =
      (usage.bare.checkConstruction context (.value e :: items) place).found.map Diagnostic.code :=
    construction_codes usage.bare same element span place
  rw [← quiet, List.map_append, List.map_append, List.map_append, constructed,
    (sameParts_walk same usage).2, List.append_left_inj, List.self_eq_append_right,
    List.map_eq_nil_iff]

section Button

/-- Where a component is registered that must be passed a label. -/
def buttonContext : UsageContext :=
  let label : PropField := { type := .string, required := true, hasDefault := false, site := none }
  let button : ComponentType :=
    { (default : ComponentType) with
      name := "Button", props := { fields := ⟨[("label", label)]⟩, isDeclared := true } }
  { unit := { file := 0, text := [], comments := #[], options := .standard },
    table := (TypeTable.empty.register (.component button)).1, methods := [] }

/-- Where a variable of the component's name holds a string. -/
def shadowedUsage : Usage :=
  { frames := [{ scope := [("Button", .string)], owner := none }], found := [], attached := [] }

/-- The element factory. -/
def createElement : Expr := .member (.ident "React" default) "createElement" default default

/-- At the top of a program both forms make the same element and raise the same codes; behind the
variable they make different elements. -/
theorem constructions_agree_shadowed :
    (∃ tagged called taggedFound calledFound,
      Usage.start.Adds
        (checkExpr buttonContext (.element (.reference "Button" default) [] [] none default)
          Usage.start) tagged taggedFound ∧
      Usage.start.Adds
        (checkExpr buttonContext (.call createElement [.value (.ident "Button" default)] default)
          Usage.start) called calledFound ∧
      taggedFound.map Diagnostic.code = calledFound.map Diagnostic.code) ∧
    (shadowedUsage.setting buttonContext).taggedElement (.reference "Button" default) ≠
      (shadowedUsage.setting buttonContext).elementOf (.ident "Button" default) := by
  have spells : Spells (.reference "Button" default) (.ident "Button" default) :=
    .reference "Button" default default
  have factory : createElement.qualifiedName?.any
      buttonContext.unit.options.isElementFactory = true := by decide
  have same : SameParts buttonContext [] [] [] := .none .nil
  constructor
  · rcases constructions_agree buttonContext .start spells factory same none default default with
      ⟨tagged, called, taggedFound, calledFound, addsTagged, addsCalled, -, codes⟩
    have element : (Usage.start.setting buttonContext).taggedElement (.reference "Button" default) =
        (Usage.start.setting buttonContext).elementOf (.ident "Button" default) := rfl
    exact ⟨_, _, taggedFound, calledFound, addsTagged, addsCalled, (codes element).mpr ⟨rfl, rfl⟩⟩
  · rcases constructions_agree buttonContext shadowedUsage spells factory same none default
      default with ⟨_, _, _, _, _, _, agree, _⟩
    have hidden : Misleads (shadowedUsage.setting buttonContext) (.ident "Button" default) := by
      apply Misleads.hidden default (by decide) rfl
      intro means
      cases means
    exact fun element => agree.mp element hidden

end Button

end ClassFactory
