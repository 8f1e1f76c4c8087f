/-
Module: ClassFactory.Proofs.Component.InitialState
Purpose: The state of a component, told by the definitions of `getInitialState` in the sources. Each
  link of its chain is the last property of that name in some specification, and its shape is known
  where it is documented to return a record or, undocumented, returns an object literal with known
  keys. A state is known just if all of these shapes are, and has what the last of them give.
Main exports: KnownState, Stands, Shape, LastGiven, MergedChain, OwnLink.stands, shape_iff,
  ComponentType.InitialState, initialState_of_component?
-/
import ClassFactory.Proofs.Component.State
import ClassFactory.Proofs.Component.Typed
import ClassFactory.Proofs.Mixins.Contents

namespace ClassFactory

open Script (Expr Key Property)

/-! ## What the sources say -/

/-- The last of the properties that has that name gives it the value, and stands at the place. -/
inductive LastGives (name : String) : List Property → Expr → Span → Prop where
  | here {key : Key} (value : Expr) (span : Span) {rest : List Property}
      (named : key.name? = some name) (others : ∀ property ∈ rest, property.name? ≠ some name) :
      LastGives name (.entry key value span :: rest) value span
  | later (property : Property) {rest : List Property} {value : Expr} {span : Span}
      (last : LastGives name rest value span) : LastGives name (property :: rest) value span

/-- The property shows a field: its key is known, and the type is what its value shows. -/
inductive ShowsField : Property → Field → Prop where
  | entry {key : Key} {name : String} (value : Expr) (span : Span) (named : key.name? = some name) :
      ShowsField (.entry key value span) (.mk name value.shownType false)

/-- The value of `getInitialState` is known to return a record of these fields. Documentation has the
last word: only a function without it is looked into, for an object literal whose keys are known. -/
inductive KnownState (doc : DocBlock) (value : Expr) : List Field → Prop where
  | documented {type : Ty} {fields : List Field} (returns : doc.returns = some type)
      (record : type.nonNullish = .record fields) : KnownState doc value fields
  | shown {properties : List Property} {fields : List Field} (undocumented : doc.returns = none)
      (literal : value.returnedObject? = some properties)
      (each : List.Forall₂ ShowsField properties fields) :
      KnownState doc value (Fields.ofList fields)

/-- The definition of `getInitialState` is the last property of that name in the specification of the
call that it comes from. -/
inductive Stands (options : Options) (files : List ParsedFile) (definition : MemberDefinition) :
    SourceUnit → Expr → Span → Prop where
  | property {parsed : ParsedFile} (isFile : parsed ∈ files) {call : FactoryCall}
      (recorded : call ∈ (collectAll options files).calls) (origin : definition.origin = call.id)
      {properties : List Property} (specifies : parsed.Specifies options properties call)
      {value : Expr} {span : Span} (last : LastGives "getInitialState" properties value span)
      (site : definition.site = (parsed.unit options).site span) :
      Stands options files definition (parsed.unit options) value span

/-- What the definition returns is known to be a record of these fields. -/
def Shape (options : Options) (files : List ParsedFile) (definition : MemberDefinition)
    (fields : List Field) : Prop :=
  ∃ unit value span, Stands options files definition unit value span ∧
    KnownState (unit.docAt span.start) value.unparen fields

section Properties

variable {name : String} {properties : List Property} {value other : Expr} {span place : Span}

theorem LastGives.exists_named (last : LastGives name properties value span) :
    ∃ property ∈ properties, property.name? = some name := by
  induction last with
  | here value span named others => exact ⟨_, List.mem_cons_self, named⟩
  | later property _ ih =>
      obtain ⟨found, mem, named⟩ := ih
      exact ⟨found, List.mem_cons_of_mem _ mem, named⟩

/-- Only one property is the last of its name. -/
theorem LastGives.unique (last : LastGives name properties value span)
    (again : LastGives name properties other place) : other = value ∧ place = span := by
  induction last with
  | here value span named others =>
      cases again with
      | here => exact ⟨rfl, rfl⟩
      | later _ last =>
          obtain ⟨property, mem, same⟩ := last.exists_named
          exact absurd same (others property mem)
  | later property last ih =>
      cases again with
      | here _ _ _ others =>
          obtain ⟨property, mem, same⟩ := last.exists_named
          exact absurd same (others property mem)
      | later _ again => exact ih again

end Properties

/-! ## What specifications keep of it -/

/-- What a specification says of the initial state, and where its definition stands. -/
def FactorySpec.initially (spec : FactorySpec) : Option StateHint × Option Site :=
  (spec.stateHint, (spec.link? .getInitialState).map MemberDefinition.site)

/-- What the value and its place make a specification say of the initial state. -/
def SourceUnit.initially (unit : SourceUnit) (value : Expr) (span : Span) :
    Option StateHint × Option Site :=
  (stateHint? unit (unit.docAt span.start) value.unparen span, some (unit.site span))

section Specifications

variable {unit : SourceUnit} {owner : Nat} {spec result : FactorySpec}

/-- The initial state is told by the hint and by the member alone. -/
theorem FactorySpec.initially_of_same (hint : result.stateHint = spec.stateHint)
    (member : result.member? "getInitialState" = spec.member? "getInitialState") :
    result.initially = spec.initially := by
  have link : result.link? .getInitialState = spec.link? .getInitialState :=
    congrArg (Option.bind · SpecMember.link?) member
  rw [FactorySpec.initially, FactorySpec.initially, hint, link]

/-- Statics leave the initial state alone. -/
theorem FactorySpec.AddsStatics.initially (adds : spec.AddsStatics owner result) :
    result.initially = spec.initially := by
  induction adds with
  | done => rfl
  | next _ _ _ _ ih => exact ih

/-- What a property gives is a definition, never a mere declaration. -/
theorem memberKind_isDeclared (unit : SourceUnit) (doc : DocBlock) (value : Expr) :
    (memberKind unit doc value).isDeclared = false := by
  unfold memberKind
  split
  · rfl
  · rfl
  · split
    · rfl
    · rfl

/-- Only the property that gives the initial state leaves a hint of it. -/
theorem enterHints_of_ne (unit : SourceUnit) (spec : FactorySpec) {name : String}
    (other : name ≠ "getInitialState") (doc : DocBlock) (value : Expr) (span : Span) :
    (enterHints unit spec name doc value span).stateHint = spec.stateHint ∧
      (enterHints unit spec name doc value span).members = spec.members := by
  unfold enterHints
  split
  · split
    · exact ⟨rfl, rfl⟩
    · exact ⟨rfl, rfl⟩
  · exact absurd rfl other
  · exact ⟨rfl, rfl⟩

/-- Members of other names leave the initial state alone. -/
theorem enterMember_initially_of_ne {name : String} (other : name ≠ "getInitialState")
    (value : Expr) (span : Span) :
    (enterMember unit owner spec name value span).initially = spec.initially := by
  obtain ⟨hint, members⟩ := enterHints_of_ne unit spec other (unit.docAt span.start) value span
  apply FactorySpec.initially_of_same
  · exact hint
  · rw [enterMember, FactorySpec.member?, FactorySpec.addMember, Keyed.get?_insert_other _ other.symm,
      members]
    rfl

/-- The property that gives the initial state makes it what its value says. -/
theorem enterMember_initially_self (value : Expr) (span : Span) :
    (enterMember unit owner spec "getInitialState" value.unparen span).initially =
      unit.initially value span := by
  have concrete := memberKind_isDeclared unit (unit.docAt span.start) value.unparen
  simp [FactorySpec.initially, SourceUnit.initially, enterMember, enterHints, FactorySpec.addMember,
    FactorySpec.link?, FactorySpec.member?, Hook.name, Keyed.get?_insert_self, SpecMember.link?,
    concrete, MemberDefinition.ofMember]

/-- A property changes what is said of the initial state only if it is named so. -/
theorem SourceUnit.Enters.initially {property : Property}
    (enters : unit.Enters owner spec property result) :
    (∃ key value span, property = .entry key value span ∧ key.name? = some "getInitialState" ∧
      result.initially = unit.initially value span) ∨
    property.name? ≠ some "getInitialState" ∧ result.initially = spec.initially := by
  cases enters with
  | mixins named | propTypes named | displayName named =>
      exact .inr ⟨by simp [Property.name?, named], rfl⟩
  | statics named adds => exact .inr ⟨by simp [Property.name?, named], adds.initially⟩
  | ignored named =>
      refine .inr ⟨?_, rfl⟩
      rcases named with named | named
      · simp [Property.name?, named]
      · simp [Property.name?, named]
  | @member key name value span named =>
      by_cases same : name = "getInitialState"
      · subst same
        exact .inl ⟨key, value, span, rfl, named, enterMember_initially_self value span⟩
      · exact .inr ⟨by simp [Property.name?, named, same],
          enterMember_initially_of_ne same value.unparen span⟩

/-- Reading keeps what the last property of that name says of the initial state. -/
theorem foldlM_initially {kind : FactoryKind} {properties : List Property}
    (ok : properties.foldlM (enterProperty unit owner kind) spec = .ok result) :
    (∃ value span, LastGives "getInitialState" properties value span ∧
      result.initially = unit.initially value span) ∨
    (∀ property ∈ properties, property.name? ≠ some "getInitialState") ∧
      result.initially = spec.initially := by
  induction properties generalizing spec with
  | nil =>
      cases ok
      exact .inr ⟨fun _ none => absurd none List.not_mem_nil, rfl⟩
  | cons property rest ih =>
      rw [List.foldlM_cons] at ok
      cases entered : enterProperty unit owner kind spec property with
      | error reason => simp [entered, bind, Except.bind] at ok
      | ok middle =>
          rw [entered] at ok
          rcases ih ok with ⟨value, span, last, said⟩ | ⟨others, kept⟩
          · exact .inl ⟨value, span, .later property last, said⟩
          · rcases (enterProperty_ok entered).initially with
              ⟨key, value, span, rfl, named, said⟩ | ⟨other, same⟩
            · exact .inl ⟨value, span, .here value span named others, kept.trans said⟩
            · exact .inr ⟨List.forall_mem_cons.mpr ⟨other, others⟩, kept.trans same⟩

end Specifications

/-! ## Calls of a compilation -/

section Calls

variable {options : Options} {files : List ParsedFile} {parsed : ParsedFile}
  {properties : List Property} {call changed : FactoryCall} {value : Expr} {span : Span}

/-- Where a method is declared apart, what is said of the initial state stays. -/
theorem FactoryCall.Declares.initially {declaration : AbstractDecl}
    (declares : call.Declares declaration changed) :
    changed.spec.initially = call.spec.initially := by
  cases declares with
  | adds fresh =>
      have absent : Keyed.lookup declaration.name call.spec.members.entries = none :=
        Keyed.get?_eq_none_of_notMem fresh
      simp only [FactorySpec.initially, FactorySpec.link?, FactorySpec.member?, Keyed.get?,
        Keyed.lookup_append, Keyed.lookup]
      by_cases same : declaration.name = Hook.getInitialState.name
      · rw [if_pos same, ← same, absent]
        rfl
      · rw [if_neg same, Option.or_none]
  | @fills before _ _ _ _ entries first unsigned =>
      have absent : Keyed.lookup declaration.name before = none := by
        by_contra found
        exact first (Keyed.lookup_ne_none_iff.mp found)
      simp only [FactorySpec.initially, FactorySpec.link?, FactorySpec.member?, Keyed.get?, entries,
        Keyed.lookup_append, Keyed.lookup]
      by_cases same : declaration.name = Hook.getInitialState.name
      · rw [if_pos same, if_pos same, ← same, absent]
        simp [SpecMember.link?, unsigned, MemberKind.isDeclared, MemberDefinition.ofMember]
      · rw [if_neg same, if_neg same]
  | keeps found settled => rfl

/-- Of a call that stands for a specification, the last property of that name says what its initial
state is. -/
theorem ParsedFile.Specifies.initially (specifies : parsed.Specifies options properties call) :
    (∃ value span, LastGives "getInitialState" properties value span ∧
      call.spec.initially = (parsed.unit options).initially value span) ∨
    (∀ property ∈ properties, property.name? ≠ some "getInitialState") ∧
      call.spec.initially = (none, none) := by
  obtain ⟨node, -, collected, declarations, specified, declares⟩ := specifies
  have kept : call.spec.initially = collected.spec.initially := by
    clear specified
    induction declares with
    | nil call => rfl
    | cons here _ ih => exact ih.trans here.initially
  rw [kept]
  exact foldlM_initially specified.reads

/-- The initial state of a call is what the last property of that name says. -/
theorem ParsedFile.Specifies.initially_of_last (specifies : parsed.Specifies options properties call)
    (last : LastGives "getInitialState" properties value span) :
    call.spec.initially = (parsed.unit options).initially value span := by
  rcases specifies.initially with ⟨other, place, again, said⟩ | ⟨others, -⟩
  · obtain ⟨rfl, rfl⟩ := last.unique again
    exact said
  · obtain ⟨property, mem, named⟩ := last.exists_named
    exact absurd named (others property mem)

/-! ## Shapes -/

/-- Every definition of the chain stands in one of the files. -/
theorem OwnLink.stands {id : Nat} {definition : MemberDefinition}
    (own : OwnLink (collectAll options files) .getInitialState id definition) :
    ∃ unit value span, Stands options files definition unit value span := by
  have sound := collectAll_wellFormed options files
  have origin := own.origin sound
  obtain ⟨call, found, links⟩ := own
  have recorded := Registry.mem_of_get? found
  obtain ⟨parsed, isFile, properties, specifies⟩ := exists_specifies recorded
  rcases specifies.initially with ⟨value, span, last, said⟩ | ⟨-, said⟩
  · have site : some definition.site = some ((parsed.unit options).site span) := by
      have place := congrArg Prod.snd said
      rwa [FactorySpec.initially, links] at place
    exact ⟨_, value, span, .property isFile recorded (origin.trans (sound.id_of_get? found).symm)
      specifies last (Option.some.inj site)⟩
  · have place := congrArg Prod.snd said
    rw [FactorySpec.initially, links] at place
    cases place

/-- A property shows a field just if it is read as one. -/
theorem showsField_iff {property : Property} {field : Field} :
    stateField? property = some field ↔ ShowsField property field := by
  constructor
  · intro read
    cases property with
    | entry key value span =>
        obtain ⟨name, named, rfl⟩ := Option.map_eq_some_iff.mp read
        exact .entry value span named
    | spread value span => cases read
  · rintro ⟨value, span, named⟩
    rw [stateField?, named]
    rfl

/-- A hint says that the state is a record just if the value is known to return that record. -/
theorem stateHint?_iff {unit : SourceUnit} {doc : DocBlock} {fields : List Field} :
    (∃ hint, stateHint? unit doc value span = some hint ∧ hint.type.nonNullish = .record fields) ↔
      KnownState doc value fields := by
  unfold stateHint?
  constructor
  · rintro ⟨hint, hinted, record⟩
    split at hinted
    next type documented =>
      cases hinted
      exact .documented documented record
    next undocumented =>
      obtain ⟨properties, literal, hinted⟩ := Option.bind_eq_some_iff.mp hinted
      obtain ⟨shown, read, hinted⟩ := Option.bind_eq_some_iff.mp hinted
      cases hinted
      cases record
      exact .shown undocumented literal
        ((forall₂_of_mapM read).imp fun _ _ => showsField_iff.mp)
  · intro known
    cases known with
    | documented returns record =>
        rw [returns]
        exact ⟨_, rfl, record⟩
    | shown undocumented literal each =>
        have read := mapM_of_forall₂ (each.imp fun _ _ => showsField_iff.mpr)
        simp only [undocumented, literal, read, Option.bind_eq_bind, Option.bind_some]
        exact ⟨_, rfl, rfl⟩

/-- The state that a link contributes is the record that its hint shows. -/
theorem stateFields?_eq_some_iff {registry : Registry} {origin : Nat} {fields : List Field} :
    stateFields? registry origin = some fields ↔
      ∃ hint, registry.stateHint? origin = some hint ∧ hint.type.nonNullish = .record fields := by
  unfold stateFields?
  cases registry.stateHint? origin with
  | none => simp
  | some hint => cases shape : hint.type.nonNullish <;> simp [shape]

/-- The source of a definition settles its shape. -/
theorem Stands.stateFields?_iff {definition : MemberDefinition} {unit : SourceUnit}
    {fields : List Field} (stands : Stands options files definition unit value span) :
    stateFields? (collectAll options files) definition.origin = some fields ↔
      KnownState (unit.docAt span.start) value.unparen fields := by
  cases stands with
  | @property parsed isFile call recorded origin properties specifies _ _ last site =>
      have hinted : call.spec.stateHint = stateHint? (parsed.unit options)
          ((parsed.unit options).docAt span.start) value.unparen span :=
        congrArg Prod.fst (specifies.initially_of_last last)
      have found := (collectAll_wellFormed options files).get?_id recorded
      rw [stateFields?_eq_some_iff, ← stateHint?_iff, origin, Registry.stateHint?, found,
        Option.bind_some, hinted]

/-- The shape of a link is what the registry remembers of it. -/
theorem OwnLink.shape_iff {id : Nat} {definition : MemberDefinition} {fields : List Field}
    (own : OwnLink (collectAll options files) .getInitialState id definition) :
    Shape options files definition fields ↔
      stateFields? (collectAll options files) definition.origin = some fields := by
  constructor
  · rintro ⟨unit, value, span, stands, known⟩
    exact stands.stateFields?_iff.mpr known
  · intro known
    obtain ⟨unit, value, span, stands⟩ := own.stands
    exact ⟨unit, value, span, stands, stands.stateFields?_iff.mp known⟩

end Calls

/-! ## Records written one over another -/

/-- The field is in the last of the records that has one of its name. -/
inductive LastGiven (field : Field) : List (List Field) → Prop where
  | here {record : List Field} {rest : List (List Field)} (mem : field ∈ record)
      (others : ∀ later ∈ rest, ∀ other ∈ later, other.name ≠ field.name) :
      LastGiven field (record :: rest)
  | later (record : List Field) {rest : List (List Field)} (last : LastGiven field rest) :
      LastGiven field (record :: rest)

section Records

variable {base later : List Field} {field : Field} {records : List (List Field)}

/-- In a list without repetitions a field is found under its name just if it is there. -/
theorem mem_iff_findField (distinct : (base.map Field.name).Nodup) :
    field ∈ base ↔ findField field.name base = some field :=
  ⟨findField_of_mem distinct, fun found => (of_findField found).1⟩

/-- A field of an extended record is a later one, or an earlier one whose name no later one has. -/
theorem mem_extend_iff (distinct : (base.map Field.name).Nodup)
    (laterDistinct : (later.map Field.name).Nodup) :
    field ∈ Fields.extend base later ↔
      field ∈ later ∨ (∀ other ∈ later, other.name ≠ field.name) ∧ field ∈ base := by
  rw [mem_iff_findField (names_extend_nodup distinct), findField_extend,
    findField_reverse laterDistinct, Option.or_eq_some_iff, ← mem_iff_findField laterDistinct,
    ← mem_iff_findField distinct, findField_eq_none_iff]
  simp only [List.mem_map, not_exists, not_and, ne_eq]

/-- What is written over a record stays unless it is written over itself. -/
theorem mem_foldl_extend_iff (distinct : (base.map Field.name).Nodup)
    (each : ∀ record ∈ records, (record.map Field.name).Nodup) :
    field ∈ records.foldl Fields.extend base ↔
      LastGiven field records ∨
        (∀ record ∈ records, ∀ other ∈ record, other.name ≠ field.name) ∧ field ∈ base := by
  induction records generalizing base with
  | nil =>
      constructor
      · intro mem
        exact .inr ⟨fun _ none => absurd none List.not_mem_nil, mem⟩
      · rintro (none | ⟨-, mem⟩)
        · cases none
        · exact mem
  | cons record rest ih =>
      rw [List.forall_mem_cons] at each
      rw [List.foldl_cons, ih (names_extend_nodup distinct) each.2, mem_extend_iff distinct each.1,
        List.forall_mem_cons]
      constructor
      · rintro (last | ⟨others, mem | ⟨absent, mem⟩⟩)
        · exact .inl (.later record last)
        · exact .inl (.here mem others)
        · exact .inr ⟨⟨absent, others⟩, mem⟩
      · rintro (last | ⟨⟨absent, others⟩, mem⟩)
        · cases last with
          | here mem others => exact .inr ⟨others, .inl mem⟩
          | later _ last => exact .inl last
        · exact .inr ⟨others, .inr ⟨absent, mem⟩⟩

/-- A name that some record has is one that a last record has. -/
theorem exists_lastGiven {record : List Field} (listed : record ∈ records) (mem : field ∈ record) :
    ∃ last, LastGiven last records ∧ last.name = field.name := by
  induction records generalizing record field with
  | nil => cases listed
  | cons first rest ih =>
      by_cases again : ∃ later ∈ rest, ∃ other ∈ later, other.name = field.name
      · obtain ⟨later, inRest, other, named, same⟩ := again
        obtain ⟨last, given, sameName⟩ := ih inRest named
        exact ⟨last, .later first given, sameName.trans same⟩
      · rcases List.mem_cons.mp listed with rfl | inRest
        · refine ⟨field, .here mem fun later inRest other named same => ?_, rfl⟩
          exact again ⟨later, inRest, other, named, same⟩
        · exact absurd ⟨record, inRest, field, mem, rfl⟩ again

end Records

/-! ## The state of a published component -/

/-- The definitions of a hook that a call comes to, in call order: those of all that it includes,
directly or through others, and its own, each where it is first come to. -/
structure MergedChain (registry : Registry) (options : Options) (hook : Hook) (id : Nat)
    (chain : List MemberDefinition) : Prop where
  order : ∃ full, Expands registry options hook [id] full ∧
    chain = full.eraseDupsBy MemberDefinition.same
  members : ∀ definition, definition ∈ chain ↔
    ∃ mixin ∈ covered registry options id, OwnLink registry hook mixin definition

/-- The chain that a surface has for a hook is merged in the order of inclusion. -/
theorem mergedChain_hookChain {registry : Registry} {options : Options} (h : registry.WellFormed)
    {id : Nat} {surface : Surface} (found : (resolve registry options).surface? id = some surface)
    (hook : Hook) : MergedChain registry options hook id (surface.hookChain hook) where
  order := by
    obtain ⟨full, expands, chain⟩ := exists_expands h found hook
    exact ⟨full, expands, by rw [chain, linkAll_nil]⟩
  members := fun _ => mem_hookChain_iff h found hook

/-- What the state of a component is, by the chain of its definitions of `getInitialState`. -/
structure ComponentType.InitialState (options : Options) (files : List ParsedFile)
    (component : ComponentType) (chain : List MemberDefinition) : Prop where
  merged : MergedChain (collectAll options files) options .getInitialState component.id chain
  stands : ∀ definition ∈ chain, ∃ unit value span, Stands options files definition unit value span
  /-- The state is known just if there is a definition and the shapes of all of them are known. -/
  known : (∃ state, component.state = some state) ↔
    chain ≠ [] ∧ ∀ definition ∈ chain, ∃ shape, Shape options files definition shape
  /-- The fields are those that the last of the shapes gives. -/
  fields : ∀ state, component.state = some state → (state.map Field.name).Nodup ∧
    ∃ shapes, List.Forall₂ (Shape options files) chain shapes ∧
      ∀ field, field ∈ state ↔ LastGiven field shapes

/-- A component has a known state just if some link gives one and the state of every link is
known. -/
theorem componentState_eq_some_iff {registry : Registry} {surface : Surface} {state : List Field} :
    componentState registry surface = some state ↔
      surface.hookChain .getInitialState ≠ [] ∧ ∃ shapes,
        List.Forall₂ (fun definition shape => stateFields? registry definition.origin = some shape)
          (surface.hookChain .getInitialState) shapes ∧
        state = shapes.foldl Fields.extend [] := by
  unfold componentState
  split
  next none => simp [none]
  next nonempty =>
    rw [Option.map_eq_some_iff]
    constructor
    · rintro ⟨shapes, read, rfl⟩
      exact ⟨nonempty, shapes, forall₂_of_mapM read, rfl⟩
    · rintro ⟨-, shapes, each, rfl⟩
      exact ⟨shapes, mapM_of_forall₂ each, rfl⟩

section Published

variable {options : Options} {files : List ParsedFile} {component : ComponentType} {name : String}
  {id : Nat} {chain : List MemberDefinition} {shapes : List (List Field)}

/-- Every link of a merged chain is some call's own. -/
theorem MergedChain.exists_ownLink
    (merged : MergedChain (collectAll options files) options .getInitialState id chain)
    {definition : MemberDefinition} (mem : definition ∈ chain) :
    ∃ mixin, OwnLink (collectAll options files) .getInitialState mixin definition := by
  obtain ⟨mixin, -, own⟩ := (merged.members definition).mp mem
  exact ⟨mixin, own⟩

/-- The shapes of the links are what the registry remembers of them. -/
theorem MergedChain.shapes_iff
    (merged : MergedChain (collectAll options files) options .getInitialState id chain) :
    List.Forall₂ (Shape options files) chain shapes ↔
      List.Forall₂ (fun definition shape =>
        stateFields? (collectAll options files) definition.origin = some shape) chain shapes := by
  apply forall₂_iff_of_mem
  intro definition mem shape
  obtain ⟨mixin, own⟩ := merged.exists_ownLink mem
  exact own.shape_iff

/-- Writing the shapes one over another leaves of each name the field that the last of them gives. -/
theorem mem_written_iff
    (each : List.Forall₂ (fun definition shape =>
      stateFields? (collectAll options files) definition.origin = some shape) chain shapes)
    (field : Field) : field ∈ shapes.foldl Fields.extend [] ↔ LastGiven field shapes := by
  have start : (([] : List Field).map Field.name).Nodup := List.nodup_nil
  rw [mem_foldl_extend_iff start]
  · simp
  · intro shape listed
    obtain ⟨definition, -, returned⟩ := exists_left_of_forall₂ each listed
    cases stateFields?_wellKeyed (collectAll_wellTyped options files) returned with
    | record _ distinct => exact distinct

/-- The state of a component that is published is the one that its chain gives. -/
theorem initialState_of_component? (found : (synthesize (collectAll options files) options
      (resolve (collectAll options files) options)).table.component? name = some component) :
    ∃ chain, component.InitialState options files chain := by
  have sound := collectAll_wellFormed options files
  obtain ⟨call, -, surface, surfaced, -, rfl⟩ := component?_synthesize sound found
  have merged := mergedChain_hookChain sound surfaced .getInitialState
  refine ⟨surface.hookChain .getInitialState, merged, ?_, ?_, ?_⟩
  · intro definition mem
    obtain ⟨mixin, own⟩ := merged.exists_ownLink mem
    exact own.stands
  · constructor
    · rintro ⟨state, known⟩
      obtain ⟨nonempty, shapes, each, -⟩ := componentState_eq_some_iff.mp known
      refine ⟨nonempty, fun definition mem => ?_⟩
      obtain ⟨shape, -, isShape⟩ := exists_right_of_forall₂ (merged.shapes_iff.mpr each) mem
      exact ⟨shape, isShape⟩
    · rintro ⟨nonempty, each⟩
      obtain ⟨shapes, each⟩ := exists_forall₂ each
      exact ⟨_, componentState_eq_some_iff.mpr ⟨nonempty, shapes, merged.shapes_iff.mp each, rfl⟩⟩
  · intro state known
    have keyed := state_wellKeyed (collectAll_wellTyped options files) known
    obtain ⟨-, shapes, each, rfl⟩ := componentState_eq_some_iff.mp known
    refine ⟨?_, shapes, merged.shapes_iff.mpr each, mem_written_iff each⟩
    cases keyed with
    | record _ distinct => exact distinct

/-- A field that a known state does not have is none of any shape. -/
theorem ComponentType.InitialState.absent
    (initial : component.InitialState options files chain) {state : List Field}
    (known : component.state = some state) {field : String} (missing : findField field state = none) :
    ∀ definition ∈ chain, ∃ shape, Shape options files definition shape ∧
      ∀ other ∈ shape, other.name ≠ field := by
  intro definition mem
  obtain ⟨-, shapes, each, given⟩ := initial.fields state known
  obtain ⟨shape, listed, isShape⟩ := exists_right_of_forall₂ each mem
  refine ⟨shape, isShape, ?_⟩
  rintro other has rfl
  obtain ⟨last, isLast, same⟩ := exists_lastGiven listed has
  rw [findField_eq_none_iff] at missing
  exact missing (same ▸ List.mem_map_of_mem ((given last).mpr isLast))

end Published

end ClassFactory
