/-
Module: ClassFactory.Proofs.Usage.Required
Purpose: Reports of required props that an element is not given. They are made where elements are
  constructed, one for each prop that must be passed and is not. If documentation gives a prop its
  type, only the type decides whether it must be; the mark that a type may have for what is optional
  is read and has no say.
Main exports: missingProps, Visit.Constructs, missing_reports_iff, annotated_prop_required_iff
-/
import ClassFactory.Proofs.Component.DeclaredProps
import ClassFactory.Proofs.Stages
import ClassFactory.Proofs.Types.RoundTrip

namespace ClassFactory

open Script (Expr Item Property Attribute Child Tag)

/-! ## One element -/

/-- The finding that a prop is missing. -/
def missingProp (prop : String) (field : PropField) (place : Site) : Diagnostic :=
  Diagnostic.error .missingRequiredProp
    ("\"" ++ prop ++ "\" was missing, expected to be of type " ++ field.type.text) place

/-- The props that an element must be given and is not. Children are passed in another way, and none
are known to be missing if there may be props that are not known. -/
def missingProps (component : ComponentType) (given : GivenProps) : List (String × PropField) :=
  if component.props.isDeclared && !given.isOpen then
    component.props.fields.entries.filter fun entry =>
      entry.2.mustBePassed && entry.1 ≠ "children" && !given.has entry.1
  else []

section Elements

variable {component : ComponentType} {given : GivenProps} {place : Site} {problem : Diagnostic}

/-- A prop that must be passed is missing unless it is given or the props are open; children are
none of these. -/
theorem mem_missingProps_iff (distinct : component.props.fields.keys.Nodup) {prop : String}
    {field : PropField} :
    (prop, field) ∈ missingProps component given ↔
      component.props.isDeclared = true ∧ given.isOpen = false ∧
        component.props.field? prop = some field ∧ field.mustBePassed = true ∧
          prop ≠ "children" ∧ given.has prop = false := by
  have listed : (prop, field) ∈ component.props.fields.entries ↔
      component.props.field? prop = some field :=
    ⟨Keyed.lookup_of_mem distinct, Keyed.mem_of_lookup⟩
  unfold missingProps
  split
  next known =>
    simp only [Bool.and_eq_true, Bool.not_eq_true'] at known
    simp [known, listed, and_assoc]
  next unknown =>
    simp only [Bool.and_eq_true, Bool.not_eq_true', not_and] at unknown
    simpa using fun declared closed => absurd closed (unknown declared)

/-- What a prop is found to lack is told by its name and its type alone. -/
theorem missingProblem?_faulted_iff {hasChildren : Bool} {prop : String} {field : PropField} :
    (missingProblem? component given hasChildren place prop field = some problem ∧
        problem.code = .missingRequiredProp) ↔
      field.mustBePassed = true ∧ prop ≠ "children" ∧ given.has prop = false ∧
        problem = missingProp prop field place := by
  unfold missingProblem? missingProp
  grind [Diagnostic.error, Diagnostic.warning]

/-- The props that an element is found to lack are those that are missing. -/
theorem mem_elementProblems_missing_iff (children : List FoundType) :
    (problem ∈ elementProblems component given children place ∧
        problem.code = .missingRequiredProp) ↔
      ∃ prop field, (prop, field) ∈ missingProps component given ∧
        problem = missingProp prop field place := by
  unfold elementProblems missingProps
  constructor
  · rintro ⟨found, fault⟩
    rcases List.mem_append.mp found with passed | missing
    · have coded := (givenProblems_coded component given).append
        (childProblems_coded component children)
      exact absurd fault (coded.code_ne passed (by decide))
    · split at missing
      · cases missing
      next known =>
        obtain ⟨⟨prop, field⟩, listed, judged⟩ := List.mem_filterMap.mp missing
        obtain ⟨must, other, absent, same⟩ := missingProblem?_faulted_iff.mp ⟨judged, fault⟩
        refine ⟨prop, field, ?_, same⟩
        rw [if_pos (by simpa using known), List.mem_filter]
        exact ⟨listed, by simp [must, other, absent]⟩
  · rintro ⟨prop, field, missing, same⟩
    split at missing
    next known =>
      obtain ⟨listed, lacks⟩ := List.mem_filter.mp missing
      simp only [Bool.and_eq_true, decide_eq_true_eq, Bool.not_eq_true'] at lacks
      have faulted : missingProblem? component given (!children.isEmpty) place prop field =
          some problem ∧ problem.code = .missingRequiredProp :=
        missingProblem?_faulted_iff.mpr ⟨lacks.1.1, lacks.1.2, lacks.2, same⟩
      obtain ⟨judged, fault⟩ := faulted
      refine ⟨List.mem_append_right _ ?_, fault⟩
      rw [if_neg (by simpa using known)]
      exact List.mem_filterMap.mpr ⟨(prop, field), listed, judged⟩
    next => cases missing

end Elements

/-! ## Visits -/

/-- The visit constructs an element of the component, gives it these props, and stands at the
place. -/
inductive Visit.Constructs (context : UsageContext) (usage : Usage) (component : ComponentType) :
    Visit → GivenProps → Site → Prop where
  | called {callee tag : Expr} {rest : List Item} {span : Span}
      (kind : usage.callKind context callee = .construction)
      (made : Usage.elementComponent? context ((usage.setting context).elementOf tag) =
        some component) :
      Constructs context usage component (.call callee (.value tag :: rest) span)
        (usage.givenProps context (Script.firstValue? rest)) (context.unit.site span)
  | tagged {tag : Tag} {attributes : List Attribute} {children : List Child} {span : Span}
      (made : Usage.elementComponent? context ((usage.setting context).taggedElement tag) =
        some component) :
      Constructs context usage component (.tagged tag attributes children span)
        { entries := attributes.filterMap (usage.givenAttribute? context),
          isOpen := attributes.any Usage.isOpenAttribute }
        (context.unit.site span)

section Visits

variable {context : UsageContext} {usage : Usage} {component : ComponentType} {given : GivenProps}
  {place : Site} {problem : Diagnostic}

theorem readCallee_coded (callee : Expr) :
    Coded [.unknownProp, .unknownStateField, .unknownStatic]
      (usage.bare.readCallee context callee).found := by
  intro problem found
  unfold Usage.readCallee at found
  split at found
  · rcases mem_checkMember rfl found with receiver | constructor | none
    · exact (receiverProblems_coded _ _ _ _ _).mono (by decide) problem receiver
    · exact (constructorProblems_coded _ _ _ _ _).mono (by decide) problem constructor
    · cases none
  · cases found

/-- A construction finds nothing missing but what an element lacks that it constructs. -/
theorem mem_checkConstruction {callee : Expr} {args : List Item} {span : Span}
    (kind : usage.callKind context callee = .construction)
    (found : problem ∈ (usage.bare.checkConstruction context args span).found)
    (fault : problem.code = .missingRequiredProp) :
    ∃ component given place,
      (Visit.call callee args span).Constructs context usage component given place ∧
        ∃ children, problem ∈ elementProblems component given children place := by
  unfold Usage.checkConstruction at found
  split at found
  · simp only [Usage.report, Usage.bare, List.reverse_singleton, List.append_nil,
      List.mem_singleton] at found
    rw [found] at fault
    cases fault
  · dsimp only at found
    split at found
    next component made =>
      simp only [Usage.report, Usage.attach, Usage.bare, List.append_nil,
        List.mem_reverse] at found
      exact ⟨component, _, _, .called kind made, _, found⟩
    next => cases found
  · cases found

/-- A finding on a tag is about one of its props or children. -/
theorem mem_checkTagged {tag : Tag} {attributes : List Attribute} {children : List Child}
    {span : Span} (found : problem ∈
      (usage.bare.checkTagged context tag attributes children span).found) :
    ∃ component given place, (Visit.tagged tag attributes children span).Constructs context usage
        component given place ∧
      ∃ children, problem ∈ elementProblems component given children place := by
  unfold Usage.checkTagged at found
  dsimp only at found
  split at found
  next component made =>
    simp only [Usage.report, Usage.attach, Usage.bare, List.append_nil, List.mem_reverse] at found
    exact ⟨component, _, _, .tagged made, _, found⟩
  next => cases found

/-- What a visit finds to be missing, an element lacks that it constructs. -/
theorem Visit.constructs_of_faulted {visit : Visit} (found : problem ∈ visit.found context usage)
    (fault : problem.code = .missingRequiredProp) :
    ∃ component given place, visit.Constructs context usage component given place ∧
      ∃ children, problem ∈ elementProblems component given children place := by
  have quiet : visit.looks = false → problem ∉ visit.found context usage := by
    intro blind
    rw [Visit.found, (Visit.apply_quiet context blind usage.bare).1]
    exact List.not_mem_nil
  cases visit with
  | member owner property propertySpan =>
      have around : usage.bare.frames = usage.frames := rfl
      rcases mem_checkMember around found with receiver | constructor | none
      · exact absurd fault ((receiverProblems_coded _ _ _ _ _).code_ne receiver (by decide))
      · exact absurd fault ((constructorProblems_coded _ _ _ _ _).code_ne constructor (by decide))
      · cases none
  | call callee args span =>
      rw [Visit.found, Visit.apply] at found
      cases kind : usage.bare.callKind context callee with
      | construction =>
          rw [kind] at found
          have split : ((usage.bare.checkConstruction context args span).readCallee context
              callee).found = _ := (readCallee_appends context callee).found _
          rw [split, List.mem_append] at found
          rcases found with read | constructed
          · exact absurd fault ((readCallee_coded callee).code_ne read (by decide))
          · exact mem_checkConstruction kind constructed fault
      | plain =>
          rw [kind] at found
          exact absurd fault ((readCallee_coded callee).code_ne found (by decide))
      | method component name site =>
          rw [kind] at found
          simp only [Usage.checkCall, Usage.report, Usage.bare, List.append_nil,
            List.mem_reverse] at found
          exact absurd fault ((callProblems_coded _ _ _ _ _).code_ne found (by decide))
      | static component name site =>
          rw [kind] at found
          simp only [Usage.checkCall, Usage.report, Usage.bare, List.append_nil,
            List.mem_reverse] at found
          exact absurd fault ((staticCallProblems_coded _ _ _ _).code_ne found (by decide))
  | tagged tag attributes children span => exact mem_checkTagged found
  | _ => exact absurd found (quiet rfl)

/-- All findings for an element are made by the visit that constructs it. -/
theorem Visit.Constructs.found {visit : Visit}
    (constructs : visit.Constructs context usage component given place) :
    ∃ children, ∀ problem ∈ elementProblems component given children place,
      problem ∈ visit.found context usage := by
  cases constructs with
  | @called callee tag rest span kind made =>
      refine ⟨(rest.drop 1).map (usage.givenChild context), fun problem listed => ?_⟩
      have blind : usage.bare.callKind context callee = .construction := kind
      have element : Usage.elementComponent? context ((usage.bare.setting context).elementOf tag) =
        some component := made
      rw [Visit.found, Visit.apply, blind]
      dsimp only
      have split : ((usage.bare.checkConstruction context (.value tag :: rest) span).readCallee
          context callee).found = _ := (readCallee_appends context callee).found _
      rw [split, List.mem_append]
      right
      simp only [Usage.checkConstruction, element]
      exact List.mem_append_left _ (List.mem_reverse.mpr listed)
  | @tagged tag attributes children span made =>
      refine ⟨children.filterMap (usage.foundChild? context), fun problem listed => ?_⟩
      have element : Usage.elementComponent? context
        ((usage.bare.setting context).taggedElement tag) = some component := made
      rw [Visit.found, Visit.apply]
      simp only [Usage.checkTagged, element]
      exact List.mem_append_left _ (List.mem_reverse.mpr listed)

/-- The visit finds props to be missing just where it constructs an element that lacks them. -/
theorem Visit.mem_found_missing_iff {visit : Visit} :
    (problem ∈ visit.found context usage ∧ problem.code = .missingRequiredProp) ↔
      ∃ component given place, visit.Constructs context usage component given place ∧
        ∃ prop field, (prop, field) ∈ missingProps component given ∧
          problem = missingProp prop field place := by
  constructor
  · rintro ⟨found, fault⟩
    obtain ⟨component, given, place, constructs, children, listed⟩ :=
      Visit.constructs_of_faulted found fault
    exact ⟨component, given, place, constructs,
      (mem_elementProblems_missing_iff children).mp ⟨listed, fault⟩⟩
  · rintro ⟨component, given, place, constructs, lacks⟩
    obtain ⟨children, found⟩ := constructs.found
    obtain ⟨listed, fault⟩ := (mem_elementProblems_missing_iff children).mpr lacks
    exact ⟨found problem listed, fault⟩

end Visits

/-! ## All programs -/

/-- Some program constructs an element of the component, with these props and at the place. -/
def Constructed (compilation : Compilation) (files : List ParsedFile) (component : ComponentType)
    (given : GivenProps) (place : Site) : Prop :=
  let analysis := analyze compilation files
  ∃ parsed ∈ files, ∃ usage visit,
    let context := programContext compilation.options analysis.registry analysis.synthesis.table
      parsed.file parsed.text parsed.program
    Arrives context parsed.program.body usage visit ∧
      visit.Constructs context usage component given place

/-- The prop is required just if its type admits neither `null` nor `undefined`, and its annotation
does not mark it as optional. -/
def PropField.FollowsMark (field : PropField) (declared : DeclaredType) : Prop :=
  field.required = true ↔ declared.type.admitsNullish = false ∧ declared.optional = false

section Reports

variable {compilation : Compilation} {files : List ParsedFile} {component : ComponentType}

/-- The reports of missing props are those of the elements that programs construct, one for each prop
that is missing from one of them. -/
theorem missing_reports_iff {problem : Diagnostic} :
    (problem ∈ (analyze compilation files).result.diagnostics ∧
        problem.code = .missingRequiredProp) ↔
      ∃ component given place, Constructed compilation files component given place ∧
        ∃ prop field, (prop, field) ∈ missingProps component given ∧
          problem = missingProp prop field place := by
  constructor
  · rintro ⟨found, fault⟩
    have other : problem.code ∉ collectionCodes ++ resolutionCodes ++ publicationCodes := by
      rw [fault]
      decide
    obtain ⟨parsed, isFile, reported⟩ := exists_checked_of_code found other
    obtain ⟨usage, visit, arrives, found⟩ := (mem_checkProgram_iff ..).mp reported
    obtain ⟨component, given, place, constructs, lacks⟩ :=
      Visit.mem_found_missing_iff.mp ⟨found, fault⟩
    exact ⟨component, given, place, ⟨parsed, isFile, usage, visit, arrives, constructs⟩, lacks⟩
  · rintro ⟨component, given, place, ⟨parsed, isFile, usage, visit, arrives, constructs⟩, lacks⟩
    obtain ⟨found, fault⟩ :=
      Visit.mem_found_missing_iff.mpr ⟨component, given, place, constructs, lacks⟩
    have reported := (mem_checkProgram_iff ..).mpr ⟨usage, visit, arrives, found⟩
    refine ⟨(mem_result_iff _ problem).mpr (.inr (.inr (.inr ⟨_, ?_, reported⟩))), fault⟩
    exact List.mem_map_of_mem isFile

/-- A prop whose type is documented is of that type, and required just if the type admits neither
`null` nor `undefined`. The mark for what is optional is read with the type, but not asked; so what is
required agrees with the mark unless a type is marked that admits neither. Whatever element of the
component a program constructs, the prop is reported to be missing from it just if it is required,
has no default, does not stand for children, and is known not to be given. A component whose props
are not to be checked, or not all known, has no declared props. -/
theorem annotated_prop_required_iff {entries : List Property} {name prop text : String} {site : Site}
    (found : (analyze compilation files).synthesis.table.component? name = some component)
    (annotated : component.Annotates compilation.options files entries prop site text) :
    let declared := readDeclaredType text
    (∀ type marked, type.Readable → text = (type.text ++ if marked then "=" else "") →
      declared.type = type ∧ declared.optional = marked) ∧
    (component.props.isDeclared = true ↔
      compilation.options.checkPropTypes = true ∧ ∀ entry ∈ entries, entry.name? ≠ none) ∧
    (component.props.isDeclared = true → ∃ field,
      component.props.field? prop = some field ∧ field.site = some site ∧
      field.type = declared.type ∧
      (field.required = true ↔ declared.type.admitsNullish = false) ∧
      (field.FollowsMark declared ↔
        (declared.optional = true → declared.type.admitsNullish = true)) ∧
      ∀ given place, Constructed compilation files component given place →
        ((prop, field) ∈ missingProps component given ∧
            missingProp prop field place ∈ (analyze compilation files).result.diagnostics ↔
          declared.type.admitsNullish = false ∧ field.hasDefault = false ∧ prop ≠ "children" ∧
            given.isOpen = false ∧ given.has prop = false)) := by
  intro declared
  obtain ⟨distinct, checked, shown⟩ := annotated.exists_field found
  refine ⟨?_, checked, fun isDeclared => ?_⟩
  · rintro type marked readable rfl
    exact ⟨congrArg DeclaredType.type (readDeclaredType_marked readable marked),
      congrArg DeclaredType.optional (readDeclaredType_marked readable marked)⟩
  · obtain ⟨field, listed, stands, typed, required⟩ := shown isDeclared
    have asked : field.required = true ↔ declared.type.admitsNullish = false := by
      rw [required, Bool.not_eq_true']
    refine ⟨field, listed, stands, typed, asked, ?_, fun given place constructed => ?_⟩
    · rw [PropField.FollowsMark, asked]
      cases declared.type.admitsNullish <;> cases declared.optional <;> simp
    · have missing : (prop, field) ∈ missingProps component given ↔
          declared.type.admitsNullish = false ∧ field.hasDefault = false ∧ prop ≠ "children" ∧
            given.isOpen = false ∧ given.has prop = false := by
        rw [mem_missingProps_iff distinct, PropField.mustBePassed, Bool.and_eq_true, asked,
          Bool.not_eq_true']
        constructor
        · rintro ⟨-, closed, -, ⟨plain, bare⟩, other, absent⟩
          exact ⟨plain, bare, other, closed, absent⟩
        · rintro ⟨plain, bare, other, closed, absent⟩
          exact ⟨isDeclared, closed, listed, ⟨plain, bare⟩, other, absent⟩
      rw [← missing, and_iff_left_iff_imp]
      intro lacks
      exact (missing_reports_iff.mpr
        ⟨component, given, place, constructed, prop, field, lacks, rfl⟩).1

end Reports

section Button

/-- The prop types of a component with a size, which documentation marks as optional. -/
def buttonProps : List Property :=
  [.entry (.named "size" default) (.this default) ⟨23, 27⟩]

/-- The properties of the component. -/
def buttonProperties : List Property :=
  [.entry (.named "propTypes" default) (.object buttonProps default) default,
    .entry (.named "render" default) (.function [] [] default) default]

/-- The component, and an element of it that is not given the size. -/
def buttonFile : ParsedFile :=
  let factory : Expr := .member (.ident "React" default) "createClass" default default
  { file := 0, text := "/** @type \x7bnumber=\x7d */ size"
    program :=
      { comments := [⟨0, 22⟩]
        body :=
          [.variables false [.initialized (.name "Button" default)
              (.call factory [.value (.object buttonProperties default)] default)] default,
            .expression (.element (.reference "Button" default) [] [] none default) default] } }

/-- The component is recorded with its properties as they are written. -/
theorem buttonFile_specifies : ∃ call, (collectAll .standard [buttonFile]).calls = [call] ∧
    buttonFile.Specifies .standard buttonProperties call := by
  refine ⟨_, rfl, _, List.mem_cons_of_mem _ List.mem_cons_self, _, [], ⟨?_, ?_⟩, .nil _⟩
  · exact ⟨_, _, _, _, _, .declarator "Button" default _, rfl, rfl, rfl, rfl, rfl⟩
  · rfl

theorem buttonFile_annotates {component : ComponentType}
    (found : (analyze (Compilation.ofOptions .standard) [buttonFile]).synthesis.table.component?
      "Button" = some component) :
    component.Annotates .standard [buttonFile] buttonProps "size"
      ((buttonFile.unit .standard).site ⟨23, 27⟩) "number=" := by
  obtain ⟨call, mem, surface, -, -, rfl⟩ :=
    component?_components (collectAll_wellFormed .standard [buttonFile]) found
  have recorded : call ∈ (collectAll .standard [buttonFile]).calls := List.mem_of_mem_filter mem
  obtain ⟨other, alone, specifies⟩ := buttonFile_specifies
  obtain rfl : call = other := by simpa [alone] using recorded
  exact .entry (List.mem_singleton_self buttonFile) recorded rfl specifies
    (.here _ _ rfl (by decide)) rfl (.here _ _ rfl (by decide)) rfl (by decide +kernel)

theorem buttonFile_constructs {component : ComponentType}
    (found : (analyze (Compilation.ofOptions .standard) [buttonFile]).synthesis.table.component?
      "Button" = some component) :
    Constructed (Compilation.ofOptions .standard) [buttonFile] component .none
      ((buttonFile.unit .standard).site default) := by
  -- The element stands behind the declaration, which takes four visits.
  refine ⟨buttonFile, List.mem_singleton_self buttonFile, _, _,
    ⟨(stmtsRoute noneChosen buttonFile.program.body).take 4, _, _, rfl, rfl, rfl⟩, .tagged ?_⟩
  have made : ∀ setting : Setting, setting.table.component? "Button" = some component →
      setting.taggedElement (.reference "Button" default) = .element (some "Button") := by
    intro setting found
    simp [Setting.taggedElement, Script.Tag.name?, Setting.isComponent, found]
  rw [made _ found]
  exact found

/-- The size is required, and reported to be missing, although it is marked as optional. -/
theorem annotated_prop_required_iff_size :
    let analysis := analyze (Compilation.ofOptions .standard) [buttonFile]
    ∃ component site field, analysis.synthesis.table.component? "Button" = some component ∧
      component.Annotates .standard [buttonFile] buttonProps "size" site "number=" ∧
      component.props.field? "size" = some field ∧ field.type = .number ∧
      field.required = true ∧ ¬ field.FollowsMark (readDeclaredType "number=") ∧
      ∃ place, missingProp "size" field place ∈ analysis.result.diagnostics := by
  intro analysis
  have published : (analysis.synthesis.table.component? "Button").map (fun component =>
      (component.props.field? "size").map PropField.hasDefault) = some (some false) := by
    decide +kernel
  obtain ⟨component, found, sized⟩ := Option.map_eq_some_iff.mp published
  obtain ⟨other, given, bare⟩ := Option.map_eq_some_iff.mp sized
  have annotated := buttonFile_annotates found
  obtain ⟨reads, isDeclared, shown⟩ := annotated_prop_required_iff found annotated
  obtain ⟨type, marked⟩ := reads .number true (.primitive _) rfl
  obtain ⟨field, listed, -, typed, required, follows, reported⟩ :=
    shown (isDeclared.mpr ⟨rfl, by decide⟩)
  obtain rfl : other = field := Option.some.inj (given.symm.trans listed)
  rw [type] at typed required follows
  have missing := (reported .none _ (buttonFile_constructs found)).mpr
    ⟨by rw [type]; rfl, bare, by decide, rfl, rfl⟩
  refine ⟨component, _, other, found, annotated, listed, typed, required.mpr rfl, ?_, _, missing.2⟩
  rw [follows, marked]
  decide

end Button

end ClassFactory
