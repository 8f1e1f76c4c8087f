/-
Module: ClassFactory.Proofs.Usage.StateFields
Purpose: Reports of state fields that a component does not have. One is made where a field of
  `this.state` is read, or set by the object literal that `setState` is called with. The state of the
  component is known there, so the shape of every definition of its initial state is, and none of them
  has the field.
Main exports: Visit.Accesses, Visit.accesses_of_faulted, state_reports_sound
-/
import ClassFactory.Proofs.Component.InitialState
import ClassFactory.Proofs.Stages

namespace ClassFactory

open Script (Expr Item Key Property Program)

/-- The visit reads the field of the state of `this`, or sets it on an instance of the component by an
object literal; the place is where the field is named. -/
inductive Visit.Accesses (context : UsageContext) (usage : Usage) (component : ComponentType)
    (field : String) : Visit → Site → Prop where
  | reads {visit : Visit} {owner receiver : Expr} {thisSpan holderSpan span fieldSpan : Span}
      (inside : usage.self? context = some component)
      (reads : visit.Reads owner field fieldSpan)
      (holder : owner.unparen = .member receiver "state" holderSpan span)
      (this : receiver.unparen = .this thisSpan) :
      Accesses context usage component field visit (context.unit.site fieldSpan)
  | sets {callee object : Expr} {args : List Item} {span place : Span} {site : Site}
      {properties : List Property} {key : Key} {value : Expr}
      (calls : usage.callKind context callee = .method component "setState" site)
      (first : Script.firstValue? args = some object)
      (literal : object.properties? = some properties)
      (entry : .entry key value span ∈ properties) (named : key.name? = some field) :
      Accesses context usage component field (.call callee args place) (context.unit.site key.span)

section Visits

variable {context : UsageContext} {usage : Usage} {component : ComponentType} {problem : Diagnostic}

/-- What is said to be an unknown field of a new state is one that the known state does not have. -/
theorem stateProblems_faulted {given : List (String × FoundType)}
    (found : problem ∈ stateProblems component given) (fault : problem.code = .unknownStateField) :
    ∃ state field found, component.state = some state ∧ findField field state = none ∧
      (field, found) ∈ given ∧ problem = unknownStateField component field found.site := by
  unfold stateProblems at found
  split at found
  next state known =>
    obtain ⟨⟨field, given⟩, listed, judged⟩ := List.mem_filterMap.mp found
    unfold stateFieldProblem? at judged
    split at judged
    next missing =>
      cases judged
      exact ⟨state, field, given, known, missing, listed, rfl⟩
    next =>
      split at judged
      · cases judged
      · cases judged
        cases fault
  next => cases found

/-- A missing field is reported where `this.state` is read, inside a component whose known state
lacks it. -/
theorem receiverProblems_faulted {owner : Expr} {property : String} {place : Site}
    (found : problem ∈ usage.receiverProblems context owner property place)
    (fault : problem.code = .unknownStateField) :
    ∃ component state receiver thisSpan holderSpan span, usage.self? context = some component ∧
      component.state = some state ∧ findField property state = none ∧
      owner.unparen = .member receiver "state" holderSpan span ∧ receiver.unparen = .this thisSpan ∧
      problem = unknownStateField component property place := by
  unfold Usage.receiverProblems at found
  split at found
  next receiver holder holderSpan span member =>
    split at found
    next thisSpan component this inside =>
      unfold receiverMemberProblems at found
      split at found
      · split at found
        · cases found
        · rw [List.mem_singleton.mp found] at fault
          cases fault
      · split at found
        next state known =>
          split at found
          · cases found
          next missing =>
            exact ⟨component, state, receiver, thisSpan, holderSpan, span, inside, known,
              Option.not_isSome_iff_eq_none.mp missing, member, this, List.mem_singleton.mp found⟩
        next => cases found
      · cases found
    next => cases found
  next => cases found

/-- The component that `this` is an instance of is one of the table. -/
theorem exists_component?_of_self? (inside : usage.self? context = some component) :
    ∃ name, context.table.component? name = some component := by
  obtain ⟨name, -, found⟩ := Option.bind_eq_some_iff.mp inside
  exact ⟨name, found⟩

/-- The component whose method is called is one of the table. -/
theorem exists_component?_of_callKind {callee : Expr} {name : String} {site : Site}
    (calls : usage.callKind context callee = .method component name site) :
    ∃ name, context.table.component? name = some component := by
  unfold Usage.callKind at calls
  split at calls
  · cases calls
  · split at calls
    next owner property propertySpan span _ =>
      dsimp only at calls
      split at calls
      next component isInstance =>
        cases calls
        unfold Setting.instanceOf? at isInstance
        split at isInstance
        next name _ => exact ⟨name, isInstance⟩
        next => cases isInstance
      · cases calls
      · cases calls
    next => cases calls

/-- A field that is written is one of the object literal that the call is given. -/
theorem mem_newState {args : List Item} {field : String} {found : FoundType}
    (listed : (field, found) ∈ usage.newState context args) :
    ∃ object properties key value span, Script.firstValue? args = some object ∧
      object.properties? = some properties ∧ .entry key value span ∈ properties ∧
      key.name? = some field ∧ found.site = context.unit.site key.span := by
  unfold Usage.newState at listed
  split at listed
  next properties literal =>
    obtain ⟨object, first, literal⟩ := Option.bind_eq_some_iff.mp literal
    obtain ⟨property, mem, given⟩ := List.mem_filterMap.mp listed
    cases property with
    | entry key value span =>
        obtain ⟨name, named, same⟩ := Option.map_eq_some_iff.mp given
        cases same
        exact ⟨object, properties, key, value, span, first, literal, mem, named, rfl⟩
    | spread => cases given
  next => cases listed

/-- A visit that finds an unknown state field accesses one that the known state of a component of the
table does not have. -/
theorem Visit.accesses_of_faulted {visit : Visit} (found : problem ∈ visit.found context usage)
    (fault : problem.code = .unknownStateField) :
    ∃ component field place state, (∃ name, context.table.component? name = some component) ∧
      visit.Accesses context usage component field place ∧ component.state = some state ∧
      findField field state = none ∧ problem = unknownStateField component field place := by
  cases Visit.finds_of_mem found with
  | receiver reads about =>
      obtain ⟨component, state, receiver, thisSpan, holderSpan, span, inside, known, missing, holder,
        this, rfl⟩ := receiverProblems_faulted about fault
      exact ⟨component, _, _, state, exists_component?_of_self? inside,
        .reads inside reads holder this, known, missing, rfl⟩
  | constructor reads about =>
      exact absurd fault ((constructorProblems_coded _ _ _ _ _).code_ne about (by decide))
  | element coded =>
      rw [fault] at coded
      exact absurd coded (by decide)
  | method kind about =>
      unfold callProblems at about
      split at about
      · split at about
        · cases about
        · rw [List.mem_singleton.mp about] at fault
          cases fault
      · rcases List.mem_append.mp about with state | argued
        · split at state
          next isSet =>
            subst isSet
            obtain ⟨known, field, given, isKnown, missing, listed, rfl⟩ :=
              stateProblems_faulted state fault
            obtain ⟨object, properties, key, value, span, first, literal, entry, named, site⟩ :=
              mem_newState listed
            rw [site]
            exact ⟨_, field, _, known, exists_component?_of_callKind kind,
              .sets kind first literal entry named, isKnown, missing, rfl⟩
          next => cases state
        · split at argued
          · exact absurd fault ((argumentProblems_coded _ _ _ _).code_ne argued (by decide))
          · cases argued
  | static kind about =>
      exact absurd fault ((staticCallProblems_coded _ _ _ _).code_ne about (by decide))

end Visits

/-- Whatever programs are analyzed: where a state field is found to be unknown, some program accesses
it on a component that is published, the shapes of all definitions of the component's initial state
are known, and none has the field. The state of a component is known just if it has such a definition
and the shapes of all of them are known, and then it has each field as the last of them gives it. -/
theorem state_reports_sound (compilation : Compilation) (files : List ParsedFile) :
    let analysis := analyze compilation files
    let options := compilation.options
    let table := analysis.synthesis.table
    (∀ problem ∈ analysis.result.diagnostics, problem.code = .unknownStateField →
      ∃ parsed ∈ files, ∃ usage visit component field place chain,
        Arrives (programContext options analysis.registry table parsed.file parsed.text
          parsed.program) parsed.program.body usage visit ∧
        visit.Accesses (programContext options analysis.registry table parsed.file parsed.text
          parsed.program) usage component field place ∧
        problem = unknownStateField component field place ∧
        table.component? component.name = some component ∧
        component.InitialState options files chain ∧ chain ≠ [] ∧
        ∀ definition ∈ chain, ∃ shape, Shape options files definition shape ∧
          ∀ other ∈ shape, other.name ≠ field) ∧
    ∀ name component, table.component? name = some component →
      ∃ chain, component.InitialState options files chain := by
  intro analysis options table
  constructor
  · intro problem found fault
    have other : problem.code ∉ collectionCodes ++ resolutionCodes ++ publicationCodes := by
      rw [fault]
      decide
    obtain ⟨parsed, isFile, reported⟩ := exists_checked_of_code found other
    obtain ⟨usage, visit, arrives, found⟩ := (mem_checkProgram_iff ..).mp reported
    obtain ⟨component, field, place, state, ⟨name, published⟩, accesses, known, missing, same⟩ :=
      Visit.accesses_of_faulted found fault
    obtain ⟨chain, initial⟩ := initialState_of_component? published
    exact ⟨parsed, isFile, usage, visit, component, field, place, chain, arrives, accesses, same,
      component?_self (collectAll_wellFormed options files) published, initial,
      (initial.known.mp ⟨state, known⟩).1, initial.absent known missing⟩
  · intro name component published
    exact initialState_of_component? published

section Panel

/-- A mixin whose state has a size; and a component that includes it, has a state of its own that says
whether it is open, and reads a width. -/
def panelFile : ParsedFile :=
  let entry (name : String) (value : Expr) : Property := .entry (.named name default) value default
  let returning (name : String) (start : Nat) : Expr :=
    .function [] [.returns (.object [entry name (.bool true default)] default)] ⟨start, start⟩
  let reading (name : String) (start : Nat) : Expr :=
    .function [] [.expression (.member (.member (.this default) "state" default default) name default
      default) default] ⟨start, start⟩
  let bound (name factory : String) (start : Nat) (properties : List Property) : Script.Stmt :=
    .variables false [.initialized (.name name default)
      (.call (.member (.ident "React" default) factory default default)
        [.value (.object properties default)] ⟨start, start⟩)] default
  let base := bound "Base" "createMixin" 1 [entry "getInitialState" (returning "size" 2)]
  let panel := bound "Panel" "createClass" 3
    [entry "mixins" (.array [.value (.ident "Base" default)] default),
      entry "getInitialState" (returning "open" 4), entry "render" (reading "width" 5)]
  { file := 0, text := "", program := { body := [base, panel], comments := [] } }

/-- Neither the mixin nor the component gives the state a width. -/
theorem state_reports_sound_panel :
    let analysis := analyze (Compilation.ofOptions .standard) [panelFile]
    (∃ problem ∈ analysis.result.diagnostics, problem.code = .unknownStateField ∧
      ∃ component field place chain, problem = unknownStateField component field place ∧
        component.InitialState .standard [panelFile] chain ∧ chain ≠ [] ∧
        ∀ definition ∈ chain, ∃ shape, Shape .standard [panelFile] definition shape ∧
          ∀ other ∈ shape, other.name ≠ field) ∧
    ∃ component chain, analysis.synthesis.table.component? "Panel" = some component ∧
      component.state.map (List.map Field.name) = some ["size", "open"] ∧
      component.InitialState .standard [panelFile] chain := by
  intro analysis
  have codes : analysis.result.diagnostics.map Diagnostic.code = [.unknownStateField] := by
    decide +kernel
  have named : (analysis.synthesis.table.component? "Panel").map (fun component =>
      component.state.map (List.map Field.name)) = some (some ["size", "open"]) := by
    decide +kernel
  obtain ⟨problem, found, fault⟩ : ∃ problem ∈ analysis.result.diagnostics,
      problem.code = .unknownStateField := by
    have listed : .unknownStateField ∈ analysis.result.diagnostics.map Diagnostic.code := by
      rw [codes]
      exact List.mem_cons_self
    exact List.mem_map.mp listed
  obtain ⟨component, published, fields⟩ := Option.map_eq_some_iff.mp named
  obtain ⟨reports, states⟩ := state_reports_sound (Compilation.ofOptions .standard) [panelFile]
  obtain ⟨_, _, _, _, faulted, field, place, chain, _, _, same, _, initial, nonempty, absent⟩ :=
    reports problem found fault
  obtain ⟨own, ownInitial⟩ := states "Panel" component published
  exact ⟨⟨problem, found, fault, faulted, field, place, chain, same, initial, nonempty, absent⟩,
    component, own, published, fields, ownInitial⟩

end Panel

end ClassFactory
