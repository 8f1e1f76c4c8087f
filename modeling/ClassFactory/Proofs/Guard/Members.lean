/-
Module: ClassFactory.Proofs.Guard.Members
Purpose: What becomes of diagnostics that some owner is without a property. An owner stands for the
  component of its name, or else for the first one whose interface is declared under its name. The
  members that the component has are not missing, and neither are hooks and standard methods in a
  specification; but a property with a dollar sign is not read in full, so the former are not
  recognized and others are taken for the latter.
Main exports: Analysis.StandsFor, Analysis.Denotes, componentNamed?_eq_some_iff, denotes_iff,
  ruleFor?_inexistent, named_property_guarded_iff
-/
import ClassFactory.Proofs.Component.Typed
import ClassFactory.Proofs.Guard.Messages

namespace ClassFactory

/-! ## Components that owners stand for -/

/-- The interface of a component is told by its name: no component has the name, and no call in front
of the component's declares its interface under it. -/
structure Analysis.DeclaresInterface (analysis : Analysis) (component : ComponentType) : Prop where
  free : ∀ other ∈ analysis.synthesis.table.components, other.name ≠ interfaceOf component.name
  first : ∀ call ∈ analysis.registry.components,
    interfaceOf call.name = interfaceOf component.name → component.id ≤ call.id

/-- The published components that names stand for. -/
inductive Analysis.StandsFor (analysis : Analysis) : String → ComponentType → Prop where
  | named {component : ComponentType}
      (published : component ∈ analysis.synthesis.table.components) :
      StandsFor analysis component.name component
  | interface {component : ComponentType}
      (published : component ∈ analysis.synthesis.table.components)
      (own : analysis.DeclaresInterface component) :
      StandsFor analysis (interfaceOf component.name) component

/-- The component that an owner stands for, whatever its decoration. -/
def Analysis.Denotes (analysis : Analysis) (owner : String) (component : ComponentType) : Prop :=
  ∃ name, Decorates owner name ∧ analysis.StandsFor name component

/-- The first item of those that qualify, where items are in order, is the least one. -/
theorem find?_eq_some_iff_least {α : Type} {rank : α → Nat} {p : α → Bool} {items : List α}
    (sorted : items.Pairwise (rank · < rank ·)) {item : α} :
    items.find? p = some item ↔
      item ∈ items ∧ p item = true ∧ ∀ other ∈ items, p other = true → rank item ≤ rank other := by
  induction items with
  | nil => simp
  | cons first items ih =>
      obtain ⟨least, sorted⟩ := List.pairwise_cons.mp sorted
      rw [List.find?_cons]
      cases holds : p first with
      | true =>
          constructor
          · rintro ⟨⟩
            refine ⟨List.mem_cons_self, holds, fun other mem _ => ?_⟩
            rcases List.mem_cons.mp mem with rfl | later
            · exact Nat.le_refl _
            · exact Nat.le_of_lt (least other later)
          · rintro ⟨mem, -, first⟩
            rcases List.mem_cons.mp mem with rfl | later
            · rfl
            · have := first _ List.mem_cons_self holds
              have := least item later
              omega
      | false =>
          have skip : ∀ {other}, p other = true → (other ∈ first :: items ↔ other ∈ items) := by
            intro other qualifies
            rw [List.mem_cons, or_iff_right]
            rintro rfl
            rw [holds] at qualifies
            cases qualifies
          rw [ih sorted]
          constructor
          · rintro ⟨mem, qualifies, first⟩
            exact ⟨(skip qualifies).mpr mem, qualifies,
              fun other mem also => first other ((skip also).mp mem) also⟩
          · rintro ⟨mem, qualifies, first⟩
            exact ⟨(skip qualifies).mp mem, qualifies,
              fun other mem also => first other ((skip also).mpr mem) also⟩

/-- Names whose interface is declared under a name are those of the identifier in front of its
ending. -/
theorem identifierOf_eq_iff {interface own : String} {base : List Char}
    (ending : interface.toList = base ++ "Interface".toList) :
    identifierOf own = String.ofList base ↔ interfaceOf own = interface := by
  rw [← String.toList_inj, ← String.toList_inj, ending, interfaceOf, String.toList_append,
    String.toList_ofList, List.append_left_inj]

/-- The call that is found by the name of an interface is the first component that declares it. -/
theorem find?_interface_iff {registry : Registry} (h : registry.WellFormed) {interface : String}
    {base : List Char} (ending : interface.toList = base ++ "Interface".toList)
    {call : FactoryCall} :
    registry.components.find? (fun call => identifierOf call.name = String.ofList base) =
        some call ↔
      call ∈ registry.components ∧ interfaceOf call.name = interface ∧
        ∀ other ∈ registry.components, interfaceOf other.name = interface → call.id ≤ other.id := by
  simp only [find?_eq_some_iff_least h.indexed.pairwise_components, decide_eq_true_eq,
    identifierOf_eq_iff ending]

/-- Types that are attached to places publish nothing. -/
theorem component?_table (analysis : Analysis) (name : String) :
    analysis.table.component? name = analysis.synthesis.table.component? name :=
  List.foldlRecOn (motive := fun table : TypeTable =>
      table.component? name = analysis.synthesis.table.component? name) _ _ rfl
    fun _ same _ _ => same

section Lookup

variable {compilation : Compilation} {files : List ParsedFile} {owner name : String}
  {component other : ComponentType}

/-- The guard looks for components among those that are published. -/
theorem component?_guard :
    (analyze compilation files).guard.table.component? name = some component ↔
      component ∈ (analyze compilation files).synthesis.table.components ∧
        component.name = name := by
  have published := component?_table (analyze compilation files) name
  rw [Analysis.guard, published]
  exact component?_eq_some_iff (collectAll_wellFormed compilation.options files)

/-- The component that is looked up by a name is the one it stands for. -/
theorem componentNamed?_eq_some_iff :
    (analyze compilation files).guard.componentNamed? name = some component ↔
      (analyze compilation files).StandsFor name component := by
  have h := collectAll_wellFormed compilation.options files
  unfold Guard.componentNamed?
  cases found : (analyze compilation files).guard.table.component? name with
  | some other =>
      obtain ⟨mem, same⟩ := component?_guard.mp found
      constructor
      · rintro ⟨⟩
        exact same ▸ .named mem
      · rintro (listed | ⟨-, free, -⟩)
        · exact found.symm.trans (component?_guard.mpr ⟨listed, rfl⟩)
        · exact absurd same (free other mem)
  | none =>
      constructor
      · intro looked
        obtain ⟨base, ending, rest⟩ := Option.bind_eq_some_iff.mp looked
        obtain ⟨call, first, shown⟩ := Option.bind_eq_some_iff.mp rest
        have ending := Text.dropEnd?_eq_some_iff.mp ending
        obtain ⟨mem, named⟩ := component?_guard.mp shown
        obtain ⟨callMem, same, least⟩ := (find?_interface_iff h ending).mp first
        obtain ⟨own, ownMem, number, called⟩ := exists_call_of_published h mem
        obtain rfl : own = call := List.inj_on_of_nodup_map h.named (List.mem_of_mem_filter ownMem)
          (List.mem_of_mem_filter callMem) (called.trans named)
        have same : interfaceOf component.name = name := called ▸ same
        refine same ▸ .interface mem ⟨fun other otherMem taken => ?_, fun other otherMem alike => ?_⟩
        · cases found.symm.trans (component?_guard.mpr ⟨otherMem, taken.trans same⟩)
        · exact number ▸ least other otherMem (alike.trans same)
      · rintro (mem | ⟨mem, own⟩)
        · cases found.symm.trans (component?_guard.mpr ⟨mem, rfl⟩)
        · obtain ⟨call, callMem, number, called⟩ := exists_call_of_published h mem
          have ending : (interfaceOf component.name).toList =
              (identifierOf component.name).toList ++ "Interface".toList := String.toList_append
          have first := (find?_interface_iff h ending).mpr
            ⟨callMem, congrArg interfaceOf called, number ▸ own.first⟩
          exact Option.bind_eq_some_iff.mpr ⟨_, Text.dropEnd?_eq_some_iff.mpr ending,
            Option.bind_eq_some_iff.mpr ⟨call, first, component?_guard.mpr ⟨mem, called.symm⟩⟩⟩

/-- An owner stands for the component that is looked up by its name without the decoration. -/
theorem denotes_iff :
    (analyze compilation files).Denotes owner component ↔
      (analyze compilation files).guard.componentNamed? (plainOwner owner.toList) =
        some component := by
  rw [componentNamed?_eq_some_iff, Analysis.Denotes]
  simp only [← plainOwner_eq_iff, exists_eq_left']

/-- An owner stands for one component at most. -/
theorem Analysis.Denotes.unique (denotes : (analyze compilation files).Denotes owner component)
    (also : (analyze compilation files).Denotes owner other) : component = other :=
  Option.some.inj ((denotes_iff.mp denotes).symm.trans (denotes_iff.mp also))

end Lookup

/-! ## Diagnostics -/

/-- A diagnostic that a property does not exist is dropped as one about a member that the library
calls or about one that the host cannot know of. -/
theorem ruleFor?_inexistent {guard : Guard} {diagnostic : Diagnostic}
    (inexistent : diagnostic.code = .inexistentProperty) :
    guard.ruleFor? diagnostic =
      if guard.recognizes diagnostic .dispatchedHook then some .dispatchedHook
      else if guard.isSynthesized diagnostic.message then some .synthesizedMember else none := by
  have codes : guard.recognizes diagnostic .libraryDoc = false ∧
      guard.recognizes diagnostic .specMethodThis = false ∧
      guard.recognizes diagnostic .abstractDeclaration = false ∧
      guard.recognizes diagnostic .propsMismatch = false ∧
      guard.recognizes diagnostic .synthesizedMember =
        guard.isSynthesized diagnostic.message := by
    simp [Guard.recognizes, inexistent]
  obtain ⟨library, this, declaration, mismatch, synthesized⟩ := codes
  rw [Guard.ruleFor?, GuardRule.all]
  simp only [List.find?_cons, List.find?_nil, library, this, declaration, mismatch, synthesized]
  cases guard.recognizes diagnostic .dispatchedHook <;>
    cases guard.isSynthesized diagnostic.message <;> rfl

section Reports

variable {compilation : Compilation} {files : List ParsedFile} {diagnostic : Diagnostic}
  {property owner : String}

/-- The host is found to miss a member just if the component has it and its name is read in full. -/
theorem isSynthesized_message (identifier : IsIdentifier property) (unbroken : IsUnbroken owner) :
    (analyze compilation files).guard.isSynthesized (neverDefinedOn property owner) = true ↔
      '$' ∉ property.toList ∧ ∃ component, (analyze compilation files).Denotes owner component ∧
        (component.hasMember property = true ∨ (component.static? property).isSome = true) := by
  rw [Guard.isSynthesized, neverDefined?_message identifier unbroken]
  split
  next told =>
    split at told
    next => cases told
    next plain =>
      cases told
      rw [Option.any_eq_true, and_iff_right plain]
      simp only [denotes_iff, Bool.or_eq_true]
  next told =>
    split at told
    next dollar => simp [dollar]
    next => cases told

/-- A diagnostic that an owner is without a property, read off its message. Outside of all
specifications it is dropped just if the owner stands for a component with that member or static and
the property has no dollar sign. Inside of one, it is taken for one about a hook or standard method
just if the property is one or goes on with a dollar sign behind the name of one. A component stands
for its name, its prototype and the name of its interface, unless that is the name of another
component or of the interface of one declared earlier. -/
theorem named_property_guarded_iff (inexistent : diagnostic.code = .inexistentProperty)
    (told : diagnostic.message = neverDefinedOn property owner)
    (identifier : IsIdentifier property) (unbroken : IsUnbroken owner) :
    let analysis := analyze compilation files
    ((∀ call ∈ analysis.registry.calls, call.specSite.contains diagnostic.site = false) →
      ∀ host, diagnostic ∈ host →
        (diagnostic ∉ analysis.guard.filter host ↔
          '$' ∉ property.toList ∧ ∃ component, analysis.Denotes owner component ∧
            (component.hasMember property = true ∨
              (component.static? property).isSome = true))) ∧
    ((∃ call ∈ analysis.registry.calls, call.specSite.contains diagnostic.site = true) →
      (analysis.guard.recognizes diagnostic .dispatchedHook = true ↔
        ∃ name, IsCalled name ∧ (property = name ∨ ∃ rest, property = name ++ "$" ++ rest))) ∧
    ∀ component ∈ analysis.synthesis.table.components, IsBare component.name →
      analysis.Denotes component.name component ∧
      analysis.Denotes (component.name ++ ".prototype") component ∧
      (analysis.DeclaresInterface component →
        analysis.Denotes (interfaceOf component.name) component) := by
  intro analysis
  have dispatched : analysis.guard.recognizes diagnostic .dispatchedHook =
      (isDispatched (String.ofList (property.toList.takeWhile Text.isWordCharacter)) &&
        analysis.guard.inSpec diagnostic.site) := by
    rw [← any_namedProperty? identifier unbroken, ← told]
    simp [Guard.recognizes, inexistent]
  refine ⟨fun outside host mem => ?_, fun inside => ?_, fun component published bare => ?_⟩
  · have away : analysis.guard.inSpec diagnostic.site = false := by
      rw [Guard.inSpec, List.any_eq_false]
      exact fun call mem => Bool.eq_false_iff.mp (outside call mem)
    rw [← isSynthesized_message identifier unbroken, ← told, Guard.filter, List.mem_filter,
      and_iff_right mem, ruleFor?_inexistent inexistent, dispatched, away, Bool.and_false,
      if_neg Bool.false_ne_true]
    cases analysis.guard.isSynthesized diagnostic.message <;> simp
  · have within : analysis.guard.inSpec diagnostic.site = true := List.any_eq_true.mpr inside
    rw [dispatched, within, Bool.and_true, isDispatched_iff, leading_called_iff identifier]
  · exact ⟨⟨_, bare.decorates, .named published⟩, ⟨_, bare.decorates_prototype, .named published⟩,
      fun own => ⟨_, bare.interface.decorates, .interface published own⟩⟩

end Reports

section Dollar

/-- A component with a member whose name begins with a dollar sign. -/
def listFile : ParsedFile :=
  let factory : Script.Expr := .member (.ident "React" default) "createClass" default default
  let method : Script.Expr := .function [] [] default
  let properties : List Script.Property :=
    [.entry (.named "$el" default) method default, .entry (.named "render" default) method default]
  { file := 0, text := ""
    program :=
      { comments := []
        body :=
          [.variables false [.initialized (.name "List" default)
            (.call factory [.value (.object properties ⟨30, 90⟩)] default)] default] } }

/-- The warning of a host that an owner is without a property. -/
def missingWarning (property owner : String) (site : Site) : Diagnostic :=
  .warning .inexistentProperty (neverDefinedOn property owner) site

/-- The list has both its members. The warning about `render` is dropped, and that about `$el` is
kept. In the specification `render$x` is taken for `render`, whatever is without it. -/
theorem named_property_guarded_iff_list :
    let analysis := analyze (Compilation.ofOptions .standard) [listFile]
    let outside : Site := ⟨0, 0, 1⟩
    let inside : Site := ⟨0, 40, 43⟩
    (∃ component, analysis.Denotes "List" component ∧
        component.hasMember "$el" = true ∧ component.hasMember "render" = true) ∧
      missingWarning "$el" "List" outside ∈
        analysis.guard.filter [missingWarning "$el" "List" outside] ∧
      missingWarning "render" "List" outside ∉
        analysis.guard.filter [missingWarning "render" "List" outside] ∧
      analysis.guard.recognizes (missingWarning "render$x" "Other" inside) .dispatchedHook =
        true := by
  intro analysis outside inside
  have published : (analysis.synthesis.table.components.map fun component =>
      (component.name, component.hasMember "$el", component.hasMember "render")) =
        [("List", true, true)] := by
    decide +kernel
  obtain ⟨component, alone, shown⟩ := List.map_eq_singleton_iff.mp published
  obtain ⟨called, dollar, render⟩ :
      component.name = "List" ∧ component.hasMember "$el" = true ∧
        component.hasMember "render" = true := by
    simpa using shown
  have bare : IsBare "List" := by decide
  have denotes : analysis.Denotes "List" component :=
    ⟨"List", bare.decorates, called ▸ .named (alone ▸ List.mem_singleton_self component)⟩
  have away : ∀ call ∈ analysis.registry.calls, call.specSite.contains outside = false := by
    decide +kernel
  have within : ∃ call ∈ analysis.registry.calls, call.specSite.contains inside = true := by
    decide +kernel
  have guarded := @named_property_guarded_iff (Compilation.ofOptions .standard) [listFile]
  obtain ⟨kept, -, -⟩ := @guarded (missingWarning "$el" "List" outside) "$el" "List" rfl rfl
    (by decide) (by decide)
  obtain ⟨dropped, -, -⟩ := @guarded (missingWarning "render" "List" outside) "render" "List" rfl rfl
    (by decide) (by decide)
  obtain ⟨-, taken, -⟩ := @guarded (missingWarning "render$x" "Other" inside) "render$x" "Other" rfl
    rfl (by decide) (by decide)
  refine ⟨⟨component, denotes, dollar, render⟩, ?_, ?_, ?_⟩
  · by_contra gone
    exact ((kept away _ (List.mem_singleton_self _)).mp gone).1 (by decide)
  · exact (dropped away _ (List.mem_singleton_self _)).mpr
      ⟨by decide, component, denotes, .inl render⟩
  · exact (taken within).mpr ⟨"render", .inl ⟨.render, rfl⟩, .inr ⟨"x", rfl⟩⟩

end Dollar

end ClassFactory
