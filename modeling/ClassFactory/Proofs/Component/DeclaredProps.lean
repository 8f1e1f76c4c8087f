/-
Module: ClassFactory.Proofs.Component.DeclaredProps
Purpose: The props of a component, told by the sources. Each stands for the last entry of its name in
  the last `propTypes` of the specification. If documentation gives the entry a type, the prop is of
  that type, and it is required unless the type admits `null` or `undefined`.
Main exports: SourceUnit.annotation?, typeTag_docAt, declaredProps?_object,
  ComponentType.Annotates, ComponentType.Annotates.exists_field
-/
import ClassFactory.Proofs.Component.InitialState
import ClassFactory.Proofs.Factory.Literal

namespace ClassFactory

open Script (Expr Key Property)

/-! ## Types in documentation -/

/-- The text in braces of a tag that declares a type. -/
def typedText? (tag : List Char) : Option String :=
  let keyword := String.ofList (tag.takeWhile fun c => !Text.isBlank c)
  if keyword = "@type" ∨ keyword = "@const" then
    (DocBlock.braced? (Text.trim ((tag.dropWhile fun c => !Text.isBlank c).drop 1))).map Prod.fst
  else none

/-- The text of the type that the documentation in front of a place declares: that of the last of its
tags that declares one. -/
def SourceUnit.annotation? (unit : SourceUnit) (offset : Nat) : Option String :=
  (leadingBlock unit.text unit.comments offset).bind fun raw =>
    lastTelling? typedText? (DocBlock.splitTags (commentContent raw))

/-- What a text in braces declares. -/
def TypeTag.ofText (text : String) : TypeTag :=
  { type := (readDeclaredType text).type, optional := (readDeclaredType text).optional }

/-- Of two type tags the later one counts. -/
theorem typeTag_enter (block : DocBlock) (tag : List Char) :
    (block.enter tag).typeTag = ((typedText? tag).map TypeTag.ofText).or block.typeTag := by
  unfold DocBlock.enter typedText?
  dsimp only
  generalize DocBlock.braced? _ = braces
  generalize String.ofList _ = keyword
  split
  · cases braces <;> simp
  · cases braces <;> simp
  · cases braces <;> simp
  · cases braces <;> simp [TypeTag.ofText]
  · cases braces <;> simp [TypeTag.ofText]
  · simp
  next noType noConst _ =>
    rw [if_neg fun either => either.elim noType noConst]
    rfl

/-- The type tag of a block is what the last of its tags declares that declares a type. -/
theorem typeTag_ofContent (content : String) :
    (DocBlock.ofContent content).typeTag =
      (lastTelling? typedText? (DocBlock.splitTags content)).map TypeTag.ofText := by
  unfold DocBlock.ofContent
  induction DocBlock.splitTags content using List.reverseRecOn with
  | nil => rfl
  | append_singleton tags tag ih =>
      rw [List.foldl_append, List.foldl_cons, List.foldl_nil, typeTag_enter, ih,
        lastTelling?_concat]
      cases typedText? tag <;> rfl

/-- The type of a documentation block is what annotates the place. -/
theorem typeTag_docAt (unit : SourceUnit) (offset : Nat) :
    (unit.docAt offset).typeTag = (unit.annotation? offset).map TypeTag.ofText := by
  unfold SourceUnit.docAt SourceUnit.annotation? docBlockAt
  cases leadingBlock unit.text unit.comments offset with
  | none => rfl
  | some raw => rw [Option.bind_some, ← typeTag_ofContent]

/-! ## Declared props -/

/-- The prop that an entry of `propTypes` declares. -/
def propOf (unit : SourceUnit) (name : String) (given : Expr × Span) : PropDef :=
  { name := name, site := unit.site given.2, validator := Validator.ofExpr unit.options given.1,
    documented := (unit.docAt given.2.start).typeTag.map TypeTag.type }

section Declared

variable {unit : SourceUnit} {name : String} {properties entries : List Property} {value : Expr}
  {span : Span}

/-- The value that is given last is the last of those given. -/
theorem LastGives.getLast?_valuesOf (last : LastGives name properties value span) :
    (valuesOf name properties).getLast? = some (value, span) := by
  induction last with
  | @here key value span rest named others =>
      have none : valuesOf name rest = [] := by
        rw [valuesOf, List.filterMap_eq_nil_iff]
        intro property mem
        have other := others property mem
        cases property with
        | entry key value span => exact if_neg other
        | spread => rfl
      simp [valuesOf_cons, named, none]
  | @later property rest value span _ ih =>
      have split : valuesOf name ([property] ++ rest) = valuesOf name [property] ++ _ :=
        valuesOf_append rest
      rw [← List.singleton_append, split, List.getLast?_append, ih, Option.some_or]

/-- In a map that is built from a list the last entry is written last. -/
theorem Keyed.ofList_concat {α : Type} (entries : List (String × α)) (entry : String × α) :
    Keyed.ofList (entries ++ [entry]) = (Keyed.ofList entries).insert entry.1 entry.2 := by
  rw [ofList, List.foldl_append]
  rfl

/-- The names of a map that pairs are entered into one after another differ. -/
theorem Keyed.distinct_ofList {α : Type} (entries : List (String × α)) :
    (Keyed.ofList entries).keys.Nodup := by
  have sound : (Keyed.ofList entries).Sound fun _ _ => True :=
    List.foldlRecOn entries _ Keyed.Sound.empty fun _ sound _ _ => sound.insert trivial
  exact sound.distinct

/-- Of the props of a name the last one declared stands. -/
theorem get?_ofList_propDefs (entries : List Property) (name : String) :
    (Keyed.ofList (entries.filterMap (propDef? unit))).get? name =
      (valuesOf name entries).getLast?.map (propOf unit name) := by
  induction entries using List.reverseRecOn with
  | nil => rfl
  | append_singleton entries entry ih =>
      rw [List.filterMap_append]
      cases entry with
      | spread e span =>
          have undeclared : [Property.spread e span].filterMap (propDef? unit) = [] := rfl
          have unnamed : valuesOf name [.spread e span] = [] := rfl
          rwa [undeclared, List.append_nil, valuesOf_append, unnamed, List.append_nil]
      | entry key value span =>
          rw [valuesOf_concat]
          cases named : key.name? with
          | none => simpa [propDef?, named] using ih
          | some known =>
              have single : [Property.entry key value span].filterMap (propDef? unit) =
                  [(known, propOf unit known (value, span))] := by
                simp [propDef?, named, propOf]
              rw [single, Keyed.ofList_concat]
              by_cases same : known = name
              · subst same
                simp [Keyed.get?_insert_self]
              · simpa [same, Keyed.get?_insert_other _ (Ne.symm same)] using ih

/-- A list is read just if every item is, and then it yields what each item does. -/
theorem mapM_eq_some_iff {α β : Type} {read : α → Option β} {items : List α} {results : List β} :
    items.mapM read = some results ↔
      (∀ item ∈ items, read item ≠ none) ∧ items.filterMap read = results := by
  induction items generalizing results with
  | nil => simp
  | cons item rest ih =>
      rw [List.mapM_cons, List.forall_mem_cons]
      cases first : read item with
      | none => simp
      | some result =>
          rw [List.filterMap_cons_some first]
          simp only [Option.bind_eq_bind, Option.bind_some, Option.pure_def,
            Option.bind_eq_some_iff, ih]
          simp

/-- An object declares props if all its keys are known, and then the last one of each name. -/
theorem declaredProps?_object (place : Span) {declared : Keyed PropDef} :
    declaredProps? unit (.object entries place) = some declared ↔
      (∀ entry ∈ entries, entry.name? ≠ none) ∧
        Keyed.ofList (entries.filterMap (propDef? unit)) = declared := by
  have unnamed : ∀ entry : Property, propDef? unit entry = none ↔ entry.name? = none := by
    intro entry
    cases entry with
    | entry key value span => simp [propDef?, Property.name?]
    | spread => exact ⟨fun _ => rfl, fun _ => rfl⟩
  simp only [declaredProps?, Option.map_eq_some_iff, mapM_eq_some_iff, ne_eq, unnamed, and_assoc,
    exists_and_left, exists_eq_left']

end Declared

/-! ## Calls of a compilation -/

section Calls

variable {options : Options} {files : List ParsedFile} {parsed : ParsedFile}
  {properties : List Property} {call changed : FactoryCall} {value : Expr} {span : Span}

/-- Methods that are declared apart leave the kind of a call and its props as they are. -/
theorem FactoryCall.DeclaresAll.propTypes {declarations : List AbstractDecl}
    (declares : call.DeclaresAll declarations changed) :
    changed.kind = call.kind ∧ changed.spec.propTypes = call.spec.propTypes := by
  induction declares with
  | nil => exact ⟨rfl, rfl⟩
  | cons here _ ih =>
      cases here with
      | adds => exact ih
      | fills => exact ih
      | keeps => exact ih

/-- The props of a component's call are what the last `propTypes` of its specification declares. -/
theorem ParsedFile.Specifies.propTypes (specifies : parsed.Specifies options properties call)
    (component : call.kind = .component) (last : LastGives "propTypes" properties value span) :
    call.spec.propTypes = declaredProps? (parsed.unit options) value.unparen := by
  obtain ⟨node, -, collected, declarations, specified, declares⟩ := specifies
  obtain ⟨kind, kept⟩ := declares.propTypes
  have described := (buildSpec_describes specified.reads).propTypes
  rw [← kind, component] at described
  rw [kept, described]
  simp [last.getLast?_valuesOf]

end Calls

/-! ## Props of published components -/

/-- The last `propTypes` in the specification of the component is an object with these entries, and
documentation of the last one that declares the prop gives it a type with that text. -/
inductive ComponentType.Annotates (options : Options) (files : List ParsedFile)
    (component : ComponentType) (entries : List Property) (prop : String) (site : Site)
    (text : String) : Prop where
  | entry {parsed : ParsedFile} (isFile : parsed ∈ files) {call : FactoryCall}
      (recorded : call ∈ (collectAll options files).calls) (same : component.id = call.id)
      {properties : List Property} (specifies : parsed.Specifies options properties call)
      {value : Expr} {span : Span} (last : LastGives "propTypes" properties value span)
      {place : Span} (literal : value.unparen = .object entries place)
      {validator : Expr} {range : Span} (lastEntry : LastGives prop entries validator range)
      (stands : site = (parsed.unit options).site range)
      (annotated : (parsed.unit options).annotation? range.start = some text) :
      Annotates options files component entries prop site text

section Published

variable {options : Options} {files : List ParsedFile} {component : ComponentType}
  {entries : List Property} {name prop text : String} {site : Site}

section Props

variable {registry : Registry} {call : FactoryCall} {surface : Surface} {declared : Keyed PropDef}

/-- The names of the props of a component differ if those of the declared props do. -/
theorem distinct_componentProps
    (distinct : ∀ declared, checkedProps? options call = some declared → declared.keys.Nodup) :
    (componentProps registry options call surface).fields.keys.Nodup := by
  unfold componentProps
  split
  next declared checked =>
    apply Keyed.distinct_insertNew
    rw [Keyed.keys, List.map_map]
    exact distinct declared checked
  next =>
    have none : (Keyed.empty : Keyed PropField).keys.Nodup := List.nodup_nil
    exact Keyed.distinct_insertNew none _ _

/-- The props of a component are declared just if they are checked. -/
theorem isDeclared_componentProps :
    (componentProps registry options call surface).isDeclared =
      (checkedProps? options call).isSome := by
  unfold componentProps
  cases checkedProps? options call <;> rfl

/-- A prop that is declared and to be checked is a prop of the component. -/
theorem field?_componentProps {definition : PropDef}
    (checked : checkedProps? options call = some declared)
    (found : declared.get? prop = some definition) :
    (componentProps registry options call surface).field? prop =
      some (propField registry call surface definition) := by
  have entry : Keyed.lookup prop declared.entries = some definition := found
  unfold componentProps
  simp only [checked]
  have mapped : Keyed.lookup prop (declared.entries.map fun entry =>
      (entry.1, propField registry call surface entry.2)) =
        some (propField registry call surface definition) :=
    (Keyed.lookup_map _ prop declared.entries).trans (by rw [entry]; rfl)
  refine (Keyed.get?_insertNew _ "children" childrenField prop).trans ?_
  exact Option.or_eq_some_iff.mpr (.inl mapped)

end Props

/-- Props are declared if they are to be checked and the keys of all of them are known. Then a prop
whose type is documented has that type, and it is required unless the type admits `null` or
`undefined`. -/
theorem ComponentType.Annotates.exists_field
    (found : (synthesize (collectAll options files) options
      (resolve (collectAll options files) options)).table.component? name = some component)
    (annotated : component.Annotates options files entries prop site text) :
    component.props.fields.keys.Nodup ∧
      (component.props.isDeclared = true ↔
        options.checkPropTypes = true ∧ ∀ entry ∈ entries, entry.name? ≠ none) ∧
      (component.props.isDeclared = true → ∃ field, component.props.field? prop = some field ∧
        field.site = some site ∧ field.type = (readDeclaredType text).type ∧
        field.required = !(readDeclaredType text).type.admitsNullish) := by
  have sound := collectAll_wellFormed options files
  obtain ⟨call, mem, surface, -, -, rfl⟩ := component?_components sound found
  obtain ⟨recorded, isComponent⟩ := List.mem_filter.mp mem
  cases annotated with
  | @entry parsed _ other otherRecorded same properties specifies value span last place literal
      validator range lastEntry stands annotated =>
      obtain rfl := List.inj_on_of_nodup_map sound.ids_nodup otherRecorded recorded same.symm
      have kind : other.kind = .component := by
        simpa [FactoryCall.isComponent] using isComponent
      have checked : ∀ declared, checkedProps? options other = some declared ↔
          options.checkPropTypes = true ∧ (∀ entry ∈ entries, entry.name? ≠ none) ∧
            Keyed.ofList (entries.filterMap (propDef? (parsed.unit options))) = declared := by
        intro declared
        rw [← declaredProps?_object place, ← literal, ← specifies.propTypes kind last,
          checkedProps?]
        cases options.checkPropTypes <;> simp
      have distinct : (componentProps (collectAll options files) options other
          surface).fields.keys.Nodup := by
        apply distinct_componentProps
        intro declared isChecked
        obtain ⟨-, -, rfl⟩ := (checked declared).mp isChecked
        exact Keyed.distinct_ofList _
      refine ⟨distinct, ?_, fun isDeclared => ?_⟩
      · change (componentProps (collectAll options files) options other surface).isDeclared = true ↔ _
        rw [isDeclared_componentProps, Option.isSome_iff_exists]
        simp [checked]
      · change (componentProps (collectAll options files) options other surface).isDeclared = true
          at isDeclared
        rw [isDeclared_componentProps, Option.isSome_iff_exists] at isDeclared
        obtain ⟨declared, isChecked⟩ := isDeclared
        obtain ⟨-, -, rfl⟩ := (checked declared).mp isChecked
        have definition : (Keyed.ofList (entries.filterMap (propDef? (parsed.unit options)))).get?
            prop = some (propOf (parsed.unit options) prop (validator, range)) := by
          rw [get?_ofList_propDefs, lastEntry.getLast?_valuesOf]
          rfl
        refine ⟨_, field?_componentProps isChecked definition, ?_, ?_, ?_⟩
        · rw [stands]
          rfl
        · simp [propField, propType?, propOf, typeTag_docAt, annotated, TypeTag.ofText]
        · simp [propField, propType?, propOf, typeTag_docAt, annotated, TypeTag.ofText]

end Published

end ClassFactory
