/-
Module: ClassFactory.Proofs.Usage.Untyped
Purpose: Programs whose components are all unknown. No type of an expression is the constructor of a
  component then, whatever documentation says, so no call is checked and no element has a component:
  what is found are element factories called without arguments.
Main exports: Ty.Classless, Ty.Classless.spelled, infer_classless, Visit.apply_untyped,
  checkProgram_untyped
-/
import ClassFactory.Proofs.Usage.Inferred
import ClassFactory.Proofs.Usage.Visits
import ClassFactory.Script.Parse

namespace ClassFactory

open Script (Expr Item Property Key Tag Binding Parameter Declarator Attribute Child Stmt Part
  Program)

/-! ## Types without constructors -/

/-- Whether values of the type can have parts of other types, or are constructors themselves. -/
def Ty.opens : Ty → Bool
  | .record _ => true
  | .union _ => true
  | .constructor _ => true
  | _ => false

/-- Types of which no value is the constructor of a component, and no field of a value. -/
inductive Ty.Classless : Ty → Prop where
  | record {fields : List Field} (types : ∀ field ∈ fields, Classless field.type) :
      Classless (.record fields)
  | union {members : List Ty} (types : ∀ type ∈ members, Classless type) :
      Classless (.union members)
  | closed {type : Ty} (closed : type.opens = false) : Classless type

namespace Ty.Classless

variable {type : Ty} {types : List Ty} {field : Field} {fields : List Field}

theorem ne_constructor (classless : type.Classless) (component : String) :
    type ≠ .constructor component := by
  rintro rfl
  cases classless with
  | closed opens => cases opens

theorem fieldTypes (classless : (Ty.record fields).Classless) :
    ∀ field ∈ fields, field.type.Classless := by
  cases classless with
  | record types => exact types
  | closed closed => cases closed

theorem memberTypes (classless : (Ty.union types).Classless) : ∀ type ∈ types, type.Classless := by
  cases classless with
  | union types => exact types
  | closed closed => cases closed

/-- The parts of a type without classes are without classes. -/
theorem parts (classless : type.Classless) : ∀ part ∈ type.parts, part.Classless := by
  cases type with
  | union members => exact classless.memberTypes
  | _ => exact List.forall_mem_singleton.mpr classless

theorem insert (classless : (Ty.record fields).Classless) (ofField : field.type.Classless) :
    (Ty.record (Fields.insert field fields)).Classless := by
  apply Ty.Classless.record
  intro other mem
  rcases mem_insert mem with rfl | earlier
  · exact ofField
  · exact classless.fieldTypes other earlier

/-- No type expression spells the constructor of a component. -/
theorem spelled : Ty.Spelled Ty.Classless where
  simple {type} simple := by
    apply Ty.Classless.closed
    cases type with
    | record | union | constructor => cases simple
    | _ => rfl
  array _ := .closed rfl
  map _ := .closed rfl
  function _ _ := .closed rfl
  noFields := .record (by simp)
  insert := insert
  join classless :=
    Ty.join_of_parts (.closed rfl) .union fun type listed => (classless type listed).parts

end Ty.Classless

/-! ## Inference where no component is known -/

/-- Nothing around the expression knows a component. -/
structure Setting.Untyped (setting : Setting) : Prop where
  table : ∀ name, setting.table.component? name = none
  scopes : ∀ scope ∈ setting.scopes, ∀ entry ∈ scope, entry.2.Classless
  self : setting.self = none

namespace Setting.Untyped

variable {setting : Setting} (untyped : setting.Untyped)

include untyped

theorem isComponent (name : String) : setting.isComponent name = false := by
  rw [Setting.isComponent, untyped.table, Option.isSome_none]

theorem instanceOf? (type : Ty) : setting.instanceOf? type = none := by
  unfold Setting.instanceOf?
  split
  · exact untyped.table _
  · rfl

theorem constructorOf? (type : Ty) : setting.constructorOf? type = none := by
  unfold Setting.constructorOf?
  split
  · exact untyped.table _
  · rfl

/-- No call has a known result. -/
theorem returnType (receiver : Ty) (property : String) :
    setting.returnType receiver property = .unknown := by
  unfold Setting.returnType
  rw [untyped.instanceOf?, untyped.constructorOf?]

/-- No constructor of a component is inferred, nor a value with one among its fields. -/
theorem infers : setting.Infers Ty.Classless where
  toSpelled := Ty.Classless.spelled
  fields := .fieldTypes
  members := .memberTypes
  scopes := untyped.scopes
  constructor known := by
    rw [untyped.isComponent] at known
    cases known
  ofInstance found := by
    rw [untyped.instanceOf?] at found
    cases found
  ofConstructor found := by
    rw [untyped.constructorOf?] at found
    cases found
  result receiver property := by
    rw [untyped.returnType]
    exact .closed rfl

end Setting.Untyped

/-- No expression has the constructor of a component as its type, or as that of a field. -/
theorem infer_classless {setting : Setting} (untyped : setting.Untyped) (e : Expr) :
    (setting.infer e).Classless :=
  infer_holds untyped.infers e

/-! ## Visits where no component is known -/

/-- No component is known, and so no method of one. -/
structure UsageContext.Untyped (context : UsageContext) : Prop where
  table : ∀ name, context.table.component? name = none
  methods : context.methods = []

/-- No function around the current place belongs to a component, and no variable of one is the
constructor of a component. -/
def Usage.Untyped (usage : Usage) : Prop :=
  ∀ frame ∈ usage.frames, frame.owner = none ∧ ∀ entry ∈ frame.scope, entry.2.Classless

/-- Where the visit finds an element factory called without arguments. -/
def Visit.bare? (unit : SourceUnit) : Visit → Option Site
  | .call callee [] span =>
    if callee.qualifiedName?.any unit.options.isElementFactory then some (unit.site span) else none
  | _ => none

/-- Where the visit finds an element constructed. -/
def Visit.made? (unit : SourceUnit) : Visit → Option Site
  | .call callee (.value _ :: _) span =>
    if callee.qualifiedName?.any unit.options.isElementFactory then some (unit.site span) else none
  | .tagged _ _ _ span => some (unit.site span)
  | _ => none

section Visits

variable {context : UsageContext} {usage : Usage}

/-- Where a state knows no component, inference in it knows none. -/
theorem Usage.Untyped.setting (blank : usage.Untyped) (untyped : context.Untyped) :
    (usage.setting context).Untyped where
  table := untyped.table
  scopes := by
    intro scope mem
    obtain ⟨frame, within, rfl⟩ := List.mem_map.mp mem
    exact (blank frame within).2
  self := by
    change usage.self? context = none
    unfold Usage.self?
    cases usage.frames.head?.bind Frame.owner with
    | none => rfl
    | some name => exact untyped.table name

theorem elementMadeBy_classless {type : Ty} (classless : type.Classless) :
    elementMadeBy type = .element none := by
  cases type with
  | constructor component => exact absurd rfl (classless.ne_constructor component)
  | _ => rfl

/-- Reading a member is not checked. -/
theorem checkMember_untyped (untyped : context.Untyped) (blank : usage.Untyped) (owner : Expr)
    (property : String) (propertySpan : Span) :
    usage.checkMember context owner property propertySpan = usage := by
  have setting := blank.setting untyped
  have receiver : ∀ place, usage.receiverProblems context owner property place = [] := by
    intro place
    unfold Usage.receiverProblems
    rw [show usage.self? context = none from setting.self]
    split
    · split
      next none => cases none
      next => rfl
    · rfl
  have statics : ∀ place, usage.constructorProblems context owner property place = [] := by
    intro place
    unfold Usage.constructorProblems
    dsimp only
    rw [setting.constructorOf?]
    split <;> rfl
  unfold Usage.checkMember
  dsimp only
  rw [receiver, statics]
  rfl

/-- Reading a callee finds nothing. -/
theorem readCallee_untyped (untyped : context.Untyped) (blank : usage.Untyped) (callee : Expr) :
    usage.readCallee context callee = usage := by
  unfold Usage.readCallee
  split
  · exact checkMember_untyped untyped blank _ _ _
  · rfl

/-- A call constructs an element, or it is not checked. -/
theorem callKind_untyped (untyped : context.Untyped) (blank : usage.Untyped) (callee : Expr) :
    usage.callKind context callee =
      if callee.qualifiedName?.any context.unit.options.isElementFactory then .construction
      else .plain := by
  unfold Usage.callKind
  split
  · rfl
  · split
    · dsimp only
      rw [(blank.setting untyped).instanceOf?, (blank.setting untyped).constructorOf?]
    · rfl

/-- An element that is constructed has no component. -/
theorem checkConstruction_untyped (untyped : context.Untyped) (blank : usage.Untyped) (tag : Expr)
    (rest : List Item) (span : Span) :
    usage.checkConstruction context (.value tag :: rest) span =
      usage.attach (context.unit.site span) (.element none) := by
  have made : (usage.setting context).elementOf tag = .element none :=
    elementMadeBy_classless (infer_classless (blank.setting untyped) tag)
  unfold Usage.checkConstruction
  dsimp only
  rw [made]
  rfl

/-- A tag is given the type of an unknown element, and nothing else is found. -/
theorem checkTagged_untyped (untyped : context.Untyped) (blank : usage.Untyped) (tag : Tag)
    (attributes : List Attribute) (children : List Child) (span : Span) :
    usage.checkTagged context tag attributes children span =
      usage.attach (context.unit.site span) (.element none) := by
  have made : (usage.setting context).taggedElement tag = .element none := by
    unfold Setting.taggedElement
    cases tag.name? with
    | none => rfl
    | some name =>
        rw [Option.filter_some, (blank.setting untyped).isComponent, if_neg Bool.false_ne_true]
  unfold Usage.checkTagged
  dsimp only
  rw [made]
  rfl

/-- A visit finds an element factory that is called without arguments and nothing else. -/
theorem Visit.apply_found_untyped (untyped : context.Untyped) (blank : usage.Untyped)
    (visit : Visit) :
    (visit.apply context usage).found =
        ((visit.bare? context.unit).map Usage.arityProblem).toList ++ usage.found ∧
      (visit.apply context usage).attached =
        ((visit.made? context.unit).map (·, Ty.element none)).toList ++ usage.attached := by
  by_cases looks : visit.looks = true
  · cases visit with
    | member owner property propertySpan =>
        rw [Visit.apply, checkMember_untyped untyped blank]
        exact ⟨rfl, rfl⟩
    | call callee args span =>
        rw [Visit.apply, callKind_untyped untyped blank]
        by_cases factory : callee.qualifiedName?.any context.unit.options.isElementFactory = true
        · have still : (usage.checkConstruction context args span).Untyped := by
            rw [Usage.Untyped, Usage.checkConstruction_frames]
            exact blank
          rw [if_pos factory]
          dsimp only
          rw [readCallee_untyped untyped still]
          rcases args with _ | ⟨tag | _ | _, rest⟩
          · rw [Visit.bare?, if_pos factory]
            exact ⟨rfl, rfl⟩
          · rw [checkConstruction_untyped untyped blank, Visit.made?, if_pos factory]
            exact ⟨rfl, rfl⟩
          · exact ⟨rfl, rfl⟩
          · exact ⟨rfl, rfl⟩
        · rw [if_neg factory]
          dsimp only
          rw [readCallee_untyped untyped blank]
          rcases args with _ | ⟨tag | _ | _, rest⟩
          · rw [Visit.bare?, if_neg factory]
            exact ⟨rfl, rfl⟩
          · rw [Visit.made?, if_neg factory]
            exact ⟨rfl, rfl⟩
          · exact ⟨rfl, rfl⟩
          · exact ⟨rfl, rfl⟩
    | tagged tag attributes children span =>
        rw [Visit.apply, checkTagged_untyped untyped blank]
        exact ⟨rfl, rfl⟩
    | _ => cases looks
  · have quiet := Visit.apply_quiet context (Bool.not_eq_true _ ▸ looks) usage
    cases visit with
    | enter | leave | declare => exact quiet
    | _ => exact absurd rfl looks

/-- A variable of a type without classes may be bound. -/
theorem declare_untyped (blank : usage.Untyped) (name : String) {type : Ty}
    (classless : type.Classless) : (usage.declare name type).Untyped := by
  cases usage with
  | mk frames found attached =>
      cases frames with
      | nil => exact blank
      | cons frame rest =>
          have each := List.forall_mem_cons.mp blank
          refine List.forall_mem_cons.mpr ⟨⟨each.1.1, ?_⟩, each.2⟩
          exact List.forall_mem_cons.mpr ⟨classless, each.1.2⟩

/-- The type that a variable is declared with is without classes. -/
theorem declaredType_classless (untyped : context.Untyped) (blank : usage.Untyped)
    {documented : Option Ty} (spelled : ∀ type, documented = some type → type.Classless)
    (name : String) (value : Option Expr) :
    (usage.declaredType context documented name value).Classless := by
  unfold Usage.declaredType
  dsimp only
  rw [untyped.table, Option.isSome_none, Bool.and_false, if_neg Bool.false_ne_true]
  cases documented with
  | some type => exact spelled type rfl
  | none =>
      cases value with
      | some e => exact infer_classless (blank.setting untyped) e
      | none => exact .closed rfl

/-- A visit binds no variable to the constructor of a component. -/
theorem Visit.apply_untyped (untyped : context.Untyped) (blank : usage.Untyped) (visit : Visit) :
    (visit.apply context usage).Untyped := by
  by_cases looks : visit.looks = true
  · rw [Usage.Untyped, Visit.apply_frames context looks]
    exact blank
  cases visit with
  | enter params span =>
      rw [Visit.apply, Usage.enter, untyped.methods, List.find?_nil]
      exact List.forall_mem_cons.mpr ⟨⟨rfl, List.forall_mem_nil _⟩, blank⟩
  | leave => exact fun frame mem => blank frame (List.mem_of_mem_drop mem)
  | declare declarator alone span =>
      rw [Visit.apply, Usage.declareOne]
      split
      next name _ =>
        refine declare_untyped blank name (declaredType_classless untyped blank ?_ _ _)
        intro type documented
        split at documented
        · obtain ⟨tag, given, rfl⟩ := Option.map_eq_some_iff.mp documented
          exact (Ty.Classless.spelled.docBlockAt _ _ _).typeTag tag given
        · cases documented
      next => exact blank
  | _ => exact absurd rfl looks

/-- Whatever visits are made, what they find are the element factories that are called without
arguments, and what they attach is that the elements have no component. -/
theorem follow_untyped (untyped : context.Untyped) (blank : usage.Untyped) (route : List Stop) :
    (usage.follow context route).found =
        ((route.filterMap (·.visit.bare? context.unit)).map Usage.arityProblem).reverse ++
          usage.found ∧
      (usage.follow context route).attached =
        ((route.filterMap (·.visit.made? context.unit)).map (·, Ty.element none)).reverse ++
          usage.attached := by
  induction route generalizing usage with
  | nil => exact ⟨rfl, rfl⟩
  | cons stop rest ih =>
      obtain ⟨found, attached⟩ := Visit.apply_found_untyped untyped blank stop.visit
      obtain ⟨laterFound, laterAttached⟩ := ih (Visit.apply_untyped untyped blank stop.visit)
      rw [found] at laterFound
      rw [attached] at laterAttached
      constructor
      · refine laterFound.trans ?_
        rw [List.filterMap_cons]
        cases stop.visit.bare? context.unit <;> simp
      · refine laterAttached.trans ?_
        rw [List.filterMap_cons]
        cases stop.visit.made? context.unit <;> simp

end Visits

/-- No method has a place where no component is known. -/
theorem methodPlaces_untyped (registry : Registry) {table : TypeTable}
    (untyped : ∀ name, table.component? name = none) (file : Nat) :
    methodPlaces registry table file = [] := by
  have none : (registry.components.filter fun call => (table.component? call.name).isSome) = [] := by
    simp [untyped]
  rw [methodPlaces, none, List.flatMap_nil]

/-- Where no component is known, whatever a program holds, all that is reported are the element
factories called without arguments, in the order of the walk, and every element that is constructed is
one of no known component. -/
theorem checkProgram_untyped (options : Options) (registry : Registry) (table : TypeTable)
    (file : Nat) (source : String) (program : Program)
    (untyped : ∀ name, table.component? name = none) :
    let unit := (programContext options registry table file source program).unit
    let route := stmtsRoute noneChosen program.body
    let report := checkProgram options registry table file source program
    report.result.diagnostics = (route.filterMap (·.visit.bare? unit)).map Usage.arityProblem ∧
    report.attachments = (route.filterMap (·.visit.made? unit)).map (·, Ty.element none) ∧
    (∀ problem ∈ report.result.diagnostics, problem.code = .createElementArity) ∧
    ∀ attachment ∈ report.attachments, attachment.2 = .element none := by
  intro unit route report
  have ofContext : (programContext options registry table file source program).Untyped :=
    ⟨untyped, methodPlaces_untyped registry untyped file⟩
  have ofStart : Usage.start.Untyped := List.forall_mem_singleton.mpr ⟨rfl, List.forall_mem_nil _⟩
  obtain ⟨found, attached⟩ := follow_untyped ofContext ofStart route
  have diagnostics : report.result.diagnostics =
      (route.filterMap (·.visit.bare? unit)).map Usage.arityProblem := by
    rw [checkProgram_diagnostics options registry table file source program noneChosen, found]
    simp [Usage.start, unit]
  have attachments : report.attachments =
      (route.filterMap (·.visit.made? unit)).map (·, Ty.element none) := by
    have whole := checkProgram_follows options registry table file source program noneChosen
    rw [show report = _ from whole]
    dsimp only
    rw [attached]
    simp [Usage.start, unit]
  refine ⟨diagnostics, attachments, ?_, ?_⟩
  · rw [diagnostics]
    intro problem mem
    obtain ⟨site, -, rfl⟩ := List.mem_map.mp mem
    rfl
  · rw [attachments]
    intro attachment mem
    obtain ⟨site, -, rfl⟩ := List.mem_map.mp mem
    rfl

/-- A constructor in a type expression, elements that are made of it and as a tag, a call of a method
and an element of nothing. -/
def computedText : String :=
  "/** @type \x7bfunction(new:Panel)\x7d */\nvar Made = pick();\n" ++
    "var made = React.createElement(Made, <Panel />);\nmade.refresh(React.createElement());\n"

/-- A mixin is all that is registered. -/
def mixinTable : TypeTable :=
  { types :=
      ⟨[("Shared",
        .mixin { id := 0, name := "Shared", site := ⟨1, 4, 10⟩, methods := .empty,
                 statics := .empty })]⟩,
    attachments := [] }

theorem checkProgram_untyped_computed :
    ∃ program, Script.parseProgram? computedText = some program ∧
      let report := checkProgram .standard .empty mixinTable 0 computedText program
      report.result.diagnostics = [Usage.arityProblem ⟨0, 116, 137⟩] ∧
      report.attachments = [(⟨0, 65, 101⟩, .element none), (⟨0, 91, 100⟩, .element none)] := by
  have made : (Script.parseProgram? computedText).map (fun program =>
      let unit := (programContext .standard .empty mixinTable 0 computedText program).unit
      let route := stmtsRoute noneChosen program.body
      (route.filterMap (·.visit.bare? unit), route.filterMap (·.visit.made? unit))) =
      some ([⟨0, 116, 137⟩], [⟨0, 65, 101⟩, ⟨0, 91, 100⟩]) := by decide +kernel
  obtain ⟨program, parses, sites⟩ := Option.map_eq_some_iff.mp made
  obtain ⟨bare, constructed⟩ := Prod.mk.inj sites
  have untyped : ∀ name, mixinTable.component? name = none := by
    intro name
    by_cases shared : name = "Shared" <;>
      simp [TypeTable.component?, TypeTable.lookup?, mixinTable, Keyed.get?, Keyed.lookup,
        NominalType.component?, shared, Ne.symm]
  obtain ⟨diagnostics, attachments, -, -⟩ :=
    checkProgram_untyped .standard .empty mixinTable 0 computedText program untyped
  rw [bare] at diagnostics
  rw [constructed] at attachments
  exact ⟨program, parses, diagnostics, attachments⟩

end ClassFactory
