/-
Module: ClassFactory.Proofs.Usage.Members
Purpose: A member that is read is typed and checked by two ways that look in different places. The
  type is that of the component which the dotted name is registered for, and only then that of a
  static; the check asks for a static alone. So a component registered under a dotted name hangs off
  its owner without being a static of it: it has a type, and is reported as unknown all the same.
Main exports: Coded, Visit.Reads, Visit.Finds, Displaced, typed_unknownStatic_iff
-/
import ClassFactory.Proofs.Usage.Visits

namespace ClassFactory

open Script (Expr Item Tag Attribute Child Parameter Program)

/-! ## The codes of findings -/

/-- The findings all have one of the codes. -/
def Coded (codes : List DiagnosticCode) (problems : List Diagnostic) : Prop :=
  ∀ problem ∈ problems, problem.code ∈ codes

namespace Coded

variable {codes : List DiagnosticCode} {problem : Diagnostic} {problems later : List Diagnostic}

theorem nil : Coded codes [] := by
  intro problem found
  cases found

theorem single (coded : problem.code ∈ codes) : Coded codes [problem] := by
  intro found here
  rw [List.mem_singleton.mp here]
  exact coded

theorem mono (h : Coded codes problems) {more : List DiagnosticCode} (sub : codes ⊆ more) :
    Coded more problems := fun problem found => sub (h problem found)

/-- Findings that are put together have the codes if both parts have. -/
theorem append (h : Coded codes problems) (h' : Coded codes later) :
    Coded codes (problems ++ later) := by
  intro problem found
  rcases List.mem_append.mp found with here | there
  · exact h problem here
  · exact h' problem there

/-- No finding has another code. -/
theorem code_ne (h : Coded codes problems) (found : problem ∈ problems) {code : DiagnosticCode}
    (other : code ∉ codes) : problem.code ≠ code := fun same => other (same ▸ h problem found)

/-- Findings of single items have the codes if each has. -/
theorem filterMap {α : Type} {problem? : α → Option Diagnostic} (items : List α)
    (each : ∀ item problem, problem? item = some problem → problem.code ∈ codes) :
    Coded codes (items.filterMap problem?) := by
  intro problem found
  rcases List.mem_filterMap.mp found with ⟨item, -, made⟩
  exact each item problem made

theorem report {usage : Usage} (h : Coded codes problems) (h' : Coded codes usage.found) :
    Coded codes (usage.report problems).found :=
  append (fun problem found => h problem (List.mem_reverse.mp found)) h'

end Coded

/-- The codes of findings about the arguments of a call. -/
def argumentCodes : List DiagnosticCode := [.argumentCount, .argumentTypeMismatch]

/-- The codes of findings about the construction of an element. -/
def elementCodes : List DiagnosticCode :=
  [.createElementArity, .unknownProp, .propTypeMismatch, .missingChildren, .missingRequiredProp]

/-- Arguments are reported under their own codes only. -/
theorem argumentProblems_coded (label : String) (signature : Signature) (found : FoundArguments)
    (place : Site) : Coded argumentCodes (argumentProblems label signature found place) := by
  apply Coded.append
  · split
    · exact .nil
    · exact .single (by simp [countProblem, Diagnostic.error, argumentCodes])
  · intro problem made
    rcases List.mem_filterMap.mp made with ⟨_, listed, rfl⟩
    rcases List.mem_mapIdx.mp listed with ⟨position, bound, argued⟩
    rcases Option.bind_eq_some_iff.mp argued with ⟨param, -, judged⟩
    split at judged
    · cases judged
    · cases judged
      simp [Diagnostic.error, argumentCodes]

/-- The codes of findings about what an element is given. -/
def givenCodes : List DiagnosticCode := [.unknownProp, .propTypeMismatch]

/-- Given props are reported under the codes of props. -/
theorem givenProblems_coded (component : ComponentType) (given : GivenProps) :
    Coded givenCodes (given.entries.filterMap (givenProblem? component)) := by
  apply Coded.filterMap
  intro item problem judged
  unfold givenProblem? at judged
  split at judged
  · rcases Option.bind_eq_some_iff.mp judged with ⟨field, -, typed⟩
    split at typed
    · cases typed
    · cases typed
      simp [propMismatch, Diagnostic.error, givenCodes]
  · cases judged
    simp [unknownProp, unknownProblem, Diagnostic.error, givenCodes]

theorem childProblems_coded (component : ComponentType) (children : List FoundType) :
    Coded givenCodes (childProblems component children) := by
  unfold childProblems
  split
  · exact .nil
  · split
    · exact .nil
    · exact .single (by simp [propMismatch, Diagnostic.error, givenCodes])
  · apply Coded.filterMap
    intro item problem judged
    unfold childProblem? at judged
    split at judged
    · cases judged
    · cases judged
      simp [Diagnostic.error, givenCodes]

/-- The findings of an element are about its props and children. -/
theorem elementProblems_coded (component : ComponentType) (given : GivenProps)
    (children : List FoundType) (place : Site) :
    Coded elementCodes (elementProblems component given children place) := by
  have among : givenCodes ⊆ elementCodes := by decide
  apply Coded.append
  · exact (givenProblems_coded component given).append (childProblems_coded component children)
      |>.mono among
  · split
    · exact .nil
    · apply Coded.filterMap
      rintro ⟨name, field⟩ problem judged
      unfold missingProblem? at judged
      grind [Diagnostic.error, Diagnostic.warning, elementCodes]

theorem checkConstruction_coded {context : UsageContext} {usage : Usage} (args : List Item)
    (span : Span) (coded : Coded elementCodes usage.found) :
    Coded elementCodes (usage.checkConstruction context args span).found := by
  unfold Usage.checkConstruction
  split
  · exact .report (.single (by simp [Usage.arityProblem, Diagnostic.error, elementCodes])) coded
  · dsimp only
    split
    · exact .report (elementProblems_coded _ _ _ _) coded
    · exact coded
  · exact coded

theorem checkTagged_coded {context : UsageContext} {usage : Usage} (tag : Tag)
    (attributes : List Attribute) (children : List Child) (span : Span)
    (coded : Coded elementCodes usage.found) :
    Coded elementCodes (usage.checkTagged context tag attributes children span).found := by
  unfold Usage.checkTagged
  dsimp only
  split
  · exact .report (elementProblems_coded _ _ _ _) coded
  · exact coded

theorem receiverMemberProblems_coded (component : ComponentType) (holder name : String)
    (place : Site) :
    Coded [.unknownProp, .unknownStateField] (receiverMemberProblems component holder name place) := by
  unfold receiverMemberProblems
  split
  · split
    · exact .nil
    · exact .single (by simp [unknownProp, unknownProblem, Diagnostic.error])
  · split
    · split
      · exact .nil
      · exact .single (by simp [unknownStateField, Diagnostic.error])
    · exact .nil
  · exact .nil

theorem stateProblems_coded (component : ComponentType) (given : List (String × FoundType)) :
    Coded [.unknownStateField, .argumentTypeMismatch] (stateProblems component given) := by
  unfold stateProblems
  split
  · apply Coded.filterMap
    intro item problem judged
    unfold stateFieldProblem? at judged
    split at judged
    · cases judged
      simp [unknownStateField, Diagnostic.error]
    · split at judged
      · cases judged
      · cases judged
        simp [Diagnostic.error]
  · exact .nil

/-- A call is reported for a method that is unknown, a field that is missing from the state, or its
arguments. -/
theorem callProblems_coded (component : ComponentType) (name : String) (place : Site)
    (found : FoundArguments) (newState : List (String × FoundType)) :
    Coded (.unknownMethod :: .unknownStateField :: argumentCodes)
      (callProblems component name place found newState) := by
  unfold callProblems
  split
  · split
    · exact .nil
    · exact .single (by simp [unknownProblem, Diagnostic.error])
  · apply Coded.append
    · split
      · exact (stateProblems_coded component newState).mono (by decide)
      · exact .nil
    · split
      · exact (argumentProblems_coded _ _ found place).mono (by decide)
      · exact .nil

/-! ## Findings about unknown statics -/

/-- A static is unknown if the component does not have it and not every function does. -/
theorem mem_staticProblems_iff {component : ComponentType} {name : String} {place : Site} :
    (∃ problem, problem ∈ staticProblems component name place) ↔
      component.static? name = none ∧ name ∉ functionStatics := by
  unfold staticProblems
  cases found : component.static? name with
  | none => by_cases common : name ∈ functionStatics <;> simp [common]
  | some type => simp

/-- What is found about a static is that it is unknown, where it is written. -/
theorem staticProblems_of_mem {component : ComponentType} {name : String} {place : Site}
    {problem : Diagnostic} (found : problem ∈ staticProblems component name place) :
    problem.code = .unknownStatic ∧ problem.site = place := by
  unfold staticProblems at found
  split at found
  · cases found
  · rw [List.mem_singleton.mp found]
    exact ⟨rfl, rfl⟩

theorem staticProblems_coded (component : ComponentType) (name : String) (place : Site) :
    Coded [.unknownStatic] (staticProblems component name place) := fun _ found =>
  List.mem_singleton.mpr (staticProblems_of_mem found).1

/-- A call is reported for a static that is unknown, or for its arguments. -/
theorem staticCallProblems_coded (component : ComponentType) (name : String) (place : Site)
    (found : FoundArguments) :
    Coded (.unknownStatic :: argumentCodes) (staticCallProblems component name place found) := by
  apply Coded.append
  · exact (staticProblems_coded component name place).mono (by decide)
  · split
    · exact (argumentProblems_coded _ _ found place).mono (by decide)
    · exact .nil

/-! ## The reads of members -/

/-- The visit reads the member, on its own or as a callee. -/
inductive Visit.Reads (owner : Expr) (property : String) (propertySpan : Span) : Visit → Prop where
  | member : Visit.Reads owner property propertySpan (.member owner property propertySpan)
  | callee {callee : Expr} {span : Span} (args : List Item) (place : Span)
      (member : callee.unparen = .member owner property propertySpan span) :
      Visit.Reads owner property propertySpan (.call callee args place)

/-- What a finding of a visit is about: a member that it reads, an element that it constructs, or a
method or static that it calls. -/
inductive Visit.Finds (context : UsageContext) (usage : Usage) (problem : Diagnostic) :
    Visit → Prop where
  | receiver {visit : Visit} {owner : Expr} {property : String} {propertySpan : Span}
      (reads : visit.Reads owner property propertySpan)
      (about : problem ∈
        usage.receiverProblems context owner property (context.unit.site propertySpan)) :
      Finds context usage problem visit
  | constructor {visit : Visit} {owner : Expr} {property : String} {propertySpan : Span}
      (reads : visit.Reads owner property propertySpan)
      (about : problem ∈
        usage.constructorProblems context owner property (context.unit.site propertySpan)) :
      Finds context usage problem visit
  | element {visit : Visit} (coded : problem.code ∈ elementCodes) :
      Finds context usage problem visit
  | method {callee : Expr} {args : List Item} {place : Span} {component : ComponentType}
      {name : String} {site : Site} (kind : usage.callKind context callee = .method component name site)
      (about : problem ∈ callProblems component name site (usage.foundArguments context args)
        (usage.newState context args)) :
      Finds context usage problem (.call callee args place)
  | static {callee : Expr} {args : List Item} {place : Span} {component : ComponentType}
      {name : String} {site : Site} (kind : usage.callKind context callee = .static component name site)
      (about : problem ∈
        staticCallProblems component name site (usage.foundArguments context args)) :
      Finds context usage problem (.call callee args place)

section Finds

variable {context : UsageContext} {usage start : Usage} {owner callee : Expr} {property : String}
  {propertySpan : Span} {problem : Diagnostic}

/-- What is missing from a receiver is a prop or a field of its state. -/
theorem receiverProblems_coded (context : UsageContext) (usage : Usage) (owner : Expr)
    (property : String) (place : Site) :
    Coded [.unknownProp, .unknownStateField]
      (usage.receiverProblems context owner property place) := by
  unfold Usage.receiverProblems
  split
  · split
    · exact receiverMemberProblems_coded _ _ _ _
    · exact .nil
  · exact .nil

/-- What is missing from a constructor is a static. -/
theorem constructorProblems_coded (context : UsageContext) (usage : Usage) (owner : Expr)
    (property : String) (place : Site) :
    Coded [.unknownStatic] (usage.constructorProblems context owner property place) := by
  unfold Usage.constructorProblems
  split
  · dsimp only
    split
    · exact staticProblems_coded _ property place
    · exact .nil
  · exact .nil

/-- The check of a member depends on the variables around it alone. -/
theorem mem_checkMember (same : start.frames = usage.frames)
    (found : problem ∈ (start.checkMember context owner property propertySpan).found) :
    problem ∈ usage.receiverProblems context owner property (context.unit.site propertySpan) ∨
      problem ∈
        usage.constructorProblems context owner property (context.unit.site propertySpan) ∨
      problem ∈ start.found := by
  have self : start.self? context = usage.self? context := by
    rw [Usage.self?, Usage.self?, same]
  have setting : start.setting context = usage.setting context := by
    rw [Usage.setting, Usage.setting, self, same]
  rw [Usage.checkMember, Usage.report, List.mem_append, List.mem_reverse, List.mem_append,
    or_assoc] at found
  rwa [Usage.receiverProblems, self, Usage.constructorProblems, setting,
    ← Usage.receiverProblems, ← Usage.constructorProblems] at found

/-- A callee is read as the member that it is. -/
theorem finds_of_readCallee {args : List Item} {place : Span} (same : start.frames = usage.frames)
    (coded : Coded elementCodes start.found)
    (found : problem ∈ (start.readCallee context callee).found) :
    (Visit.call callee args place).Finds context usage problem := by
  unfold Usage.readCallee at found
  split at found
  next member =>
    rcases mem_checkMember same found with receiver | constructor | earlier
    · exact .receiver (.callee args place member) receiver
    · exact .constructor (.callee args place member) constructor
    · exact .element (coded problem earlier)
  next => exact .element (coded problem found)

theorem Visit.finds_of_mem {visit : Visit} (found : problem ∈ visit.found context usage) :
    visit.Finds context usage problem := by
  have quiet : visit.looks = false → problem ∉ visit.found context usage := by
    intro blind
    rw [Visit.found, (Visit.apply_quiet context blind usage.bare).1]
    exact List.not_mem_nil
  have bare : Coded elementCodes usage.bare.found := .nil
  have same : usage.bare.frames = usage.frames := rfl
  cases visit with
  | member owner property propertySpan =>
      rcases mem_checkMember same found with receiver | constructor | none
      · exact .receiver .member receiver
      · exact .constructor .member constructor
      · cases none
  | call callee args place =>
      rw [Visit.found, Visit.apply] at found
      cases kind : usage.bare.callKind context callee with
      | construction =>
          rw [kind] at found
          have framed : (usage.bare.checkConstruction context args place).frames = usage.frames :=
            Usage.checkConstruction_frames ..
          exact finds_of_readCallee framed (checkConstruction_coded args place bare) found
      | plain =>
          rw [kind] at found
          exact finds_of_readCallee same bare found
      | method component name site =>
          rw [kind] at found
          simp only [Usage.checkCall, Usage.report, Usage.bare, List.append_nil,
            List.mem_reverse] at found
          exact .method kind found
      | static component name site =>
          rw [kind] at found
          simp only [Usage.checkCall, Usage.report, Usage.bare, List.append_nil,
            List.mem_reverse] at found
          exact .static kind found
  | tagged tag attributes children span =>
      exact .element (checkTagged_coded tag attributes children span bare problem found)
  | _ => exact absurd found (quiet rfl)

end Finds

/-- The owner is the constructor of a component without that static. -/
def LacksStatic (setting : Setting) (owner : Expr) (property : String) : Prop :=
  ∃ component, setting.constructorOf? (setting.infer owner) = some component ∧
    component.static? property = none ∧ property ∉ functionStatics

/-- The member is a component, registered under its dotted name, that hangs off a component without
being a static of it. -/
structure Displaced (setting : Setting) (owner : Expr) (property : String) : Prop where
  registered : ∃ name, owner.qualifiedName? = some name ∧
    setting.isComponent (name ++ "." ++ property) = true
  lacking : LacksStatic setting owner property

theorem exists_of_constructorOf? {setting : Setting} {type : Ty} {component : ComponentType}
    (constructs : setting.constructorOf? type = some component) :
    ∃ name, type = .constructor name ∧ setting.table.component? name = some component := by
  cases type with
  | constructor name => exact ⟨name, rfl, constructs⟩
  | _ => cases constructs

/-- A type is not both that of an instance and of a constructor. -/
theorem instanceOf?_of_constructorOf? {setting : Setting} {type : Ty} {component : ComponentType}
    (constructs : setting.constructorOf? type = some component) : setting.instanceOf? type = none := by
  rcases exists_of_constructorOf? constructs with ⟨name, rfl, -⟩
  rfl

/-- Where the owner lacks the static, only a component of that dotted name gives the member a
type. -/
theorem infer_member_iff_of_lacks {setting : Setting} {owner : Expr} {property : String}
    (propertySpan span : Span) (lacking : LacksStatic setting owner property) :
    setting.infer (.member owner property propertySpan span) ≠ .unknown ↔
      ∃ name, owner.qualifiedName? = some name ∧
        setting.isComponent (name ++ "." ++ property) = true := by
  rcases lacking with ⟨component, constructs, absent, -⟩
  have untyped : setting.memberType (setting.infer owner) property = .unknown := by
    rw [Setting.memberType, instanceOf?_of_constructorOf? constructs, constructs]
    dsimp only
    rw [typeOfStatic, absent]
    rfl
  rw [Setting.infer]
  cases named : owner.qualifiedName? with
  | none => simp [untyped]
  | some name =>
      by_cases registered : setting.isComponent (name ++ "." ++ property) = true
      · simp [registered]
      · simp [registered, untyped]

section Reads

variable {context : UsageContext} {usage : Usage} {owner callee : Expr} {property : String}
  {propertySpan span : Span} {problem : Diagnostic}

/-- A member of a constructor that is known by name is faulted if it lacks the static. -/
theorem checkMember_faults (usage : Usage) (propertySpan : Span)
    (named : owner.qualifiedName?.isSome = true)
    (lacking : LacksStatic (usage.setting context) owner property) :
    ∃ problem ∈ (usage.checkMember context owner property propertySpan).found,
      problem.code = .unknownStatic ∧ problem.site = context.unit.site propertySpan := by
  rcases lacking with ⟨component, constructs, absent⟩
  rcases mem_staticProblems_iff.mpr absent with ⟨problem, found⟩
  refine ⟨problem, ?_, staticProblems_of_mem found⟩
  have listed : problem ∈
      usage.constructorProblems context owner property (context.unit.site propertySpan) := by
    rw [Usage.constructorProblems, if_pos named]
    dsimp only
    rw [constructs]
    exact found
  simp [Usage.checkMember, Usage.report, listed]

theorem checkConstruction_setting (args : List Item) (span : Span) :
    (usage.checkConstruction context args span).setting context = usage.setting context := by
  rw [Usage.setting, Usage.setting, Usage.self?, Usage.self?, Usage.checkConstruction_frames]

/-- A static that is called is the callee's member, and one of the component that its owner
constructs. -/
theorem callKind_static {component : ComponentType} {name : String} {place : Site}
    (kind : usage.callKind context callee = .static component name place) :
    ∃ owner propertySpan span, callee.unparen = .member owner name propertySpan span ∧
      place = context.unit.site propertySpan ∧
      (usage.setting context).constructorOf? ((usage.setting context).infer owner) =
        some component := by
  unfold Usage.callKind at kind
  split at kind
  · cases kind
  · split at kind
    next owner property propertySpan span member =>
      dsimp only at kind
      split at kind
      · cases kind
      next constructs =>
        cases kind
        exact ⟨owner, propertySpan, span, member, rfl, constructs⟩
      · cases kind
    next => cases kind

/-- A call of a member of a constructor constructs an element or calls the static. -/
theorem callKind_of_constructorOf? {component : ComponentType} (usage : Usage)
    (member : callee.unparen = .member owner property propertySpan span)
    (constructs : (usage.setting context).constructorOf? ((usage.setting context).infer owner) =
      some component) :
    usage.callKind context callee = .construction ∨
      usage.callKind context callee = .static component property (context.unit.site propertySpan) := by
  unfold Usage.callKind
  split
  · exact .inl rfl
  · rw [member]
    dsimp only
    rw [instanceOf?_of_constructorOf? constructs, constructs]
    exact .inr rfl

/-- The visit of a call whose callee is a member of a constructor known by name faults the static if
the constructor lacks it. -/
theorem call_faults (usage : Usage) {args : List Item} {place : Span}
    (member : callee.unparen = .member owner property propertySpan span)
    (named : owner.qualifiedName?.isSome = true)
    (lacking : LacksStatic (usage.setting context) owner property) :
    ∃ problem ∈ (Visit.call callee args place).found context usage,
      problem.code = .unknownStatic ∧ problem.site = context.unit.site propertySpan := by
  rcases lacking with ⟨component, constructs, absent⟩
  rw [Visit.found, Visit.apply]
  rcases callKind_of_constructorOf? usage.bare member constructs with kind | kind
  · rw [kind]
    dsimp only
    rw [readCallee_of_unparen _ member]
    exact checkMember_faults _ propertySpan named
      ⟨component, by rw [checkConstruction_setting]; exact constructs, absent⟩
  · rw [kind]
    rcases mem_staticProblems_iff.mpr absent with ⟨problem, found⟩
    refine ⟨problem, ?_, staticProblems_of_mem found⟩
    simp [Usage.checkCall, Usage.report, staticCallProblems, found]

/-- What a visit faults is a member that it reads, and that its owner lacks. -/
theorem Visit.reads_of_faulted {visit : Visit} (found : problem ∈ visit.found context usage)
    (fault : problem.code = .unknownStatic) :
    ∃ owner property propertySpan, visit.Reads owner property propertySpan ∧
      problem.site = context.unit.site propertySpan ∧
      LacksStatic (usage.setting context) owner property := by
  cases Visit.finds_of_mem found with
  | receiver reads about =>
      exact absurd fault ((receiverProblems_coded _ _ _ _ _).code_ne about (by decide))
  | constructor reads about =>
      unfold Usage.constructorProblems at about
      split at about
      · dsimp only at about
        split at about
        next component constructs =>
          exact ⟨_, _, _, reads, (staticProblems_of_mem about).2, component, constructs,
            mem_staticProblems_iff.mp ⟨problem, about⟩⟩
        next => cases about
      · cases about
  | element coded =>
      rw [fault] at coded
      exact absurd coded (by decide)
  | method kind about =>
      exact absurd fault ((callProblems_coded _ _ _ _ _).code_ne about (by decide))
  | static kind about =>
      rcases callKind_static kind with ⟨owner, propertySpan, span, member, rfl, constructs⟩
      rcases List.mem_append.mp about with static | argued
      · exact ⟨owner, _, propertySpan, .callee _ _ member, (staticProblems_of_mem static).2, _,
          constructs, mem_staticProblems_iff.mp ⟨problem, static⟩⟩
      · split at argued
        · exact absurd fault ((argumentProblems_coded _ _ _ _).code_ne argued (by decide))
        · cases argued

/-- The read of a member of a constructor known by name is faulted if the constructor lacks the
static. -/
theorem Visit.Reads.faults {visit : Visit} (reads : visit.Reads owner property propertySpan)
    (usage : Usage) (named : owner.qualifiedName?.isSome = true)
    (lacking : LacksStatic (usage.setting context) owner property) :
    ∃ problem ∈ visit.found context usage,
      problem.code = .unknownStatic ∧ problem.site = context.unit.site propertySpan := by
  cases reads with
  | member => exact checkMember_faults usage.bare propertySpan named lacking
  | callee args place member => exact call_faults usage member named lacking

/-- A visit reads one member at most. -/
theorem Visit.Reads.unique {visit : Visit} {other : Expr} {otherProperty : String} {otherSpan : Span}
    (reads : visit.Reads owner property propertySpan)
    (others : visit.Reads other otherProperty otherSpan) :
    other = owner ∧ otherProperty = property ∧ otherSpan = propertySpan := by
  cases reads with
  | member =>
      cases others
      exact ⟨rfl, rfl, rfl⟩
  | callee args place member =>
      cases others with
      | callee _ _ otherMember =>
          rw [member] at otherMember
          cases otherMember
          exact ⟨rfl, rfl, rfl⟩

/-- A read contradicts the type of the member just if the member is displaced. -/
theorem Visit.Reads.typed_faulted_iff {visit : Visit}
    (reads : visit.Reads owner property propertySpan) (usage : Usage) (span : Span) :
    ((usage.setting context).infer (.member owner property propertySpan span) ≠ .unknown ∧
      ∃ problem ∈ visit.found context usage,
        problem.code = .unknownStatic ∧ problem.site = context.unit.site propertySpan) ↔
      Displaced (usage.setting context) owner property := by
  constructor
  · rintro ⟨typed, problem, found, fault, -⟩
    rcases Visit.reads_of_faulted found fault with ⟨_, _, _, others, -, lacking⟩
    rcases reads.unique others with ⟨rfl, rfl, rfl⟩
    exact ⟨(infer_member_iff_of_lacks _ span lacking).mp typed, lacking⟩
  · intro displaced
    rcases displaced.registered with ⟨name, named, -⟩
    have typed := (infer_member_iff_of_lacks propertySpan span displaced.lacking).mpr
      displaced.registered
    exact ⟨typed, reads.faults usage (by rw [named]; rfl) displaced.lacking⟩

end Reads

/-! ## Programs -/

/-- The walk over the statements makes the visit, in a state that the visits before it lead to. -/
def Arrives (context : UsageContext) (statements : List Script.Stmt) (usage : Usage)
    (visit : Visit) : Prop :=
  ∃ before stop after, stmtsRoute noneChosen statements = before ++ stop :: after ∧
    stop.visit = visit ∧ Usage.start.follow context before = usage

section Program

variable (options : Options) (registry : Registry) (table : TypeTable) (file : Nat)
  (source : String) (program : Program)

/-- What is reported of a program is what its visits find, each in the state that it is made in. -/
theorem mem_checkProgram_iff (problem : Diagnostic) :
    problem ∈ (checkProgram options registry table file source program).result.diagnostics ↔
      ∃ usage visit,
        Arrives (programContext options registry table file source program) program.body usage
          visit ∧
        problem ∈ visit.found (programContext options registry table file source program) usage := by
  rw [checkProgram_diagnostics options registry table file source program noneChosen,
    List.mem_reverse, Usage.mem_follow_found]
  constructor
  · rintro (none | ⟨before, stop, after, route, found⟩)
    · cases none
    · exact ⟨_, stop.visit, ⟨before, stop, after, route, rfl, rfl⟩, found⟩
  · rintro ⟨usage, visit, ⟨before, stop, after, route, rfl, rfl⟩, found⟩
    exact .inr ⟨before, stop, after, route, found⟩

end Program

/-- Wherever a program reads a member, on its own or as a callee, the member has a type and is
reported as an unknown static all the same, just if it is displaced: a component is registered under
its dotted name, and the owner is the constructor of a component without such a static. The reports
of unknown statics are those of the reads, each where the member is written. -/
theorem typed_unknownStatic_iff (options : Options) (registry : Registry) (table : TypeTable)
    (file : Nat) (source : String) (program : Program) :
    let context := programContext options registry table file source program
    let report := checkProgram options registry table file source program
    (∀ usage visit owner property propertySpan span, Arrives context program.body usage visit →
      visit.Reads owner property propertySpan →
        (((usage.setting context).infer (.member owner property propertySpan span) ≠ .unknown ∧
          ∃ problem ∈ visit.found context usage,
            problem.code = .unknownStatic ∧ problem.site = context.unit.site propertySpan) ↔
          Displaced (usage.setting context) owner property) ∧
        ∀ problem ∈ visit.found context usage, problem ∈ report.result.diagnostics) ∧
    ∀ problem ∈ report.result.diagnostics, problem.code = .unknownStatic →
      ∃ usage visit owner property propertySpan, Arrives context program.body usage visit ∧
        visit.Reads owner property propertySpan ∧ problem ∈ visit.found context usage ∧
        problem.site = context.unit.site propertySpan := by
  intro context report
  constructor
  · intro usage visit owner property propertySpan span reached reads
    refine ⟨reads.typed_faulted_iff usage span, fun problem found => ?_⟩
    exact (mem_checkProgram_iff options registry table file source program problem).mpr
      ⟨usage, visit, reached, found⟩
  · intro problem reported fault
    rcases (mem_checkProgram_iff options registry table file source program problem).mp reported with
      ⟨usage, visit, reached, found⟩
    rcases Visit.reads_of_faulted found fault with ⟨owner, property, propertySpan, reads, site, -⟩
    exact ⟨usage, visit, owner, property, propertySpan, reached, reads, found, site⟩

section Header

/-- Where a component is registered, and another one under a dotted name that begins with its. -/
def dialogTable : TypeTable :=
  let named (name : String) : ComponentType := { (default : ComponentType) with name := name }
  ((TypeTable.empty.register (.component (named "Dialog"))).1.register
    (.component (named "Dialog.Header"))).1

/-- The program `Dialog.Header;`. -/
def dialogProgram : Program :=
  { body := [.expression (.member (.ident "Dialog" default) "Header" default default) default],
    comments := [] }

/-- The component that hangs off the other has a type and is reported all the same. -/
theorem typed_unknownStatic_iff_header :
    let context := programContext .standard .empty dialogTable 0 "" dialogProgram
    let report := checkProgram .standard .empty dialogTable 0 "" dialogProgram
    (Usage.start.setting context).infer (.member (.ident "Dialog" default) "Header" default default) ≠
        .unknown ∧
      ∃ problem ∈ report.result.diagnostics, problem.code = .unknownStatic := by
  intro context report
  have reads := (typed_unknownStatic_iff .standard .empty dialogTable 0 "" dialogProgram).1
  have header := reads Usage.start _ (.ident "Dialog" default) "Header" default default
    ⟨[], _, _, rfl, rfl, rfl⟩ .member
  have displaced : Displaced (Usage.start.setting context) (.ident "Dialog" default) "Header" :=
    ⟨⟨"Dialog", rfl, rfl⟩, _, rfl, rfl, by decide⟩
  rcases header.1.mpr displaced with ⟨typed, problem, found, fault, -⟩
  exact ⟨typed, problem, header.2 problem found, fault⟩

end Header

end ClassFactory
