/-
Module: ClassFactory.Proofs.Factory.Literal
Purpose: What reading a specification comes to, told by its properties. Reading stops at the first
  property that is at fault, whatever was read before. Otherwise each part of the specification is told
  by the properties of one name: some parts by the last of them, others by the last that says
  anything, and the entries of `mixins` by all of them.
Main exports: valuesOf, lastTelling?, fault?, buildSpec_eq_error_iff, SourceUnit.Describes,
  enterProperty_describes, buildSpec_describes
-/
import ClassFactory.Proofs.Component.State
import ClassFactory.Proofs.Registry
import Mathlib.Data.List.Induction

namespace ClassFactory

open Script (Expr Item Key Property)

/-! ## Values by name -/

/-- The values that the properties of a name give, each with the place of its property. -/
def valuesOf (name : String) (properties : List Property) : List (Expr × Span) :=
  properties.filterMap fun
    | .entry key value span => if key.name? = some name then some (value, span) else none
    | .spread _ _ => none

/-- What the last item that says anything says. -/
def lastTelling? {α β : Type} (tells : α → Option β) (items : List α) : Option β :=
  items.reverse.findSome? tells

section Values

variable {α β : Type} {name : String} {properties : List Property} {key : Key} {value : Expr}
  {span : Span}

/-- The values given under a name are those given first and those given later. -/
theorem valuesOf_append (more : List Property) :
    valuesOf name (properties ++ more) = valuesOf name properties ++ valuesOf name more :=
  List.filterMap_append ..

theorem valuesOf_cons :
    valuesOf name (.entry key value span :: properties) =
      (if key.name? = some name then [(value, span)] else []) ++ valuesOf name properties := by
  by_cases named : key.name? = some name <;> simp [valuesOf, named]

/-- A property that comes last adds its value to those of its own name. -/
theorem valuesOf_concat :
    valuesOf name (properties ++ [.entry key value span]) =
      valuesOf name properties ++ if key.name? = some name then [(value, span)] else [] := by
  rw [valuesOf_append, valuesOf_cons]
  simp [valuesOf]

/-- Some value is given under a name just if it is among the keys that are known. -/
theorem valuesOf_ne_nil_iff : valuesOf name properties ≠ [] ↔ name ∈ knownKeys properties := by
  simp only [ne_eq, valuesOf, knownKeys, List.filterMap_eq_nil_iff, not_forall, List.mem_filterMap,
    exists_prop]
  refine exists_congr fun property => and_congr_right fun _ => ?_
  cases property with
  | entry key value span => simp
  | spread => simp

/-- The last item counts if it tells anything. -/
theorem lastTelling?_concat (tells : α → Option β) (items : List α) (item : α) :
    lastTelling? tells (items ++ [item]) = (tells item).or (lastTelling? tells items) := by
  cases told : tells item <;> simp [lastTelling?, told]

end Values

/-! ## Faults -/

/-- Why a reading failed. -/
def failure? {ε α : Type} : Except ε α → Option ε
  | .error reason => some reason
  | .ok _ => none

/-- What is wrong with the value of `mixins`. -/
def mixinsFault? (unit : SourceUnit) : Expr → Option OpaqueReason
  | .array items _ => items.findSome? fun item => failure? (mixinRef unit item)
  | _ => some .computedMixins

/-- What is wrong with an entry of `statics`. -/
def staticFault? (property : Property) : Option OpaqueReason :=
  if property.name?.isSome then none else some .computedStatics

/-- What is wrong with the value of `statics`. -/
def staticsFault? : Expr → Option OpaqueReason
  | .object properties _ => properties.findSome? staticFault?
  | _ => some .computedStatics

/-- What is wrong with a property of a specification. -/
def fault? (unit : SourceUnit) : Property → Option OpaqueReason
  | .spread _ _ => some .nonLiteralSpec
  | .entry key value _ =>
    match key.name? with
    | none => some .nonLiteralSpec
    | some name =>
      if name = "mixins" then mixinsFault? unit value.unparen
      else if name = "statics" then staticsFault? value.unparen
      else none

section Faults

variable {σ ι ε α β : Type} {unit : SourceUnit} {owner : Nat} {kind : FactoryKind}
  {spec : FactorySpec} {reason : OpaqueReason}

/-- A run whose steps fail for their items alone fails for the first item at fault. -/
theorem foldlM_eq_error_iff {step : σ → ι → Except ε σ} {fault : ι → Option ε}
    (faults : ∀ state item reason, step state item = .error reason ↔ fault item = some reason)
    {items : List ι} {state : σ} {reason : ε} :
    items.foldlM step state = .error reason ↔ items.findSome? fault = some reason := by
  induction items generalizing state with
  | nil => simp [pure, Except.pure]
  | cons item rest ih =>
      rw [List.foldlM_cons, List.findSome?_cons]
      cases next : step state item with
      | error other =>
          rw [(faults state item other).mp next]
          simp [bind, Except.bind]
      | ok middle =>
          have sound : fault item = none := by
            refine Option.eq_none_iff_forall_ne_some.mpr fun other bad => ?_
            rw [(faults state item other).mpr bad] at next
            cases next
          rw [sound]
          exact ih

/-- Reading a list fails just if reading some item does, and for the reason of the first that
fails. -/
theorem mapM_eq_error_iff {read : ι → Except ε β} {items : List ι} {reason : ε} :
    items.mapM read = .error reason ↔
      items.findSome? (fun item => failure? (read item)) = some reason := by
  induction items with
  | nil => simp [pure, Except.pure]
  | cons item rest ih =>
      rw [List.mapM_cons, List.findSome?_cons]
      cases read item with
      | error other => simp [failure?, bind, Except.bind]
      | ok value =>
          refine Iff.trans ?_ ih
          cases rest.mapM read <;> simp [bind, Except.bind, pure, Except.pure]

/-- Reading the mixins fails just for the fault that they have. -/
theorem enterMixins_eq_error_iff {value : Expr} :
    enterMixins unit spec value = .error reason ↔ mixinsFault? unit value = some reason := by
  unfold enterMixins mixinsFault?
  split
  · rw [← mapM_eq_error_iff]
    cases List.mapM (mixinRef unit) _ <;> simp [bind, Except.bind, pure, Except.pure]
  · simp

/-- Reading a static fails just for the fault that it has. -/
theorem enterStatic_eq_error_iff (property : Property) :
    enterStatic unit owner spec property = .error reason ↔
      staticFault? property = some reason := by
  cases property with
  | entry key value span => cases named : key.name? <;> simp [enterStatic, staticFault?,
      Property.name?, named]
  | spread => simp [enterStatic, staticFault?, Property.name?]

/-- Reading the statics fails just for the first fault that they have. -/
theorem enterStatics_eq_error_iff {value : Expr} :
    enterStatics unit owner spec value = .error reason ↔ staticsFault? value = some reason := by
  unfold enterStatics staticsFault?
  split
  · exact foldlM_eq_error_iff fun _ property _ => enterStatic_eq_error_iff property
  · simp

/-- Whether a property is at fault does not depend on what was read before it. -/
theorem enterProperty_eq_error_iff (property : Property) :
    enterProperty unit owner kind spec property = .error reason ↔
      fault? unit property = some reason := by
  cases property with
  | spread => simp [enterProperty, fault?]
  | entry key value span =>
      unfold enterProperty
      dsimp only
      split
      next named => simp [fault?, named]
      next named => simpa [fault?, named] using enterMixins_eq_error_iff
      next named => simpa [fault?, named] using enterStatics_eq_error_iff
      next named => split <;> simp [fault?, named]
      next named => split <;> simp [fault?, named]
      next notMixins notStatics _ _ named =>
        simp only [fault?, named, if_neg notMixins, if_neg notStatics, reduceCtorEq]

/-- A specification is left out for the first of its properties that is at fault. -/
theorem buildSpec_eq_error_iff {properties : List Property} :
    buildSpec unit owner kind properties = .error reason ↔
      properties.findSome? (fault? unit) = some reason :=
  foldlM_eq_error_iff fun _ property _ => enterProperty_eq_error_iff property

/-- A specification of which no property is at fault is read. -/
theorem exists_buildSpec_iff {properties : List Property} :
    (∃ spec, buildSpec unit owner kind properties = .ok spec) ↔
      properties.findSome? (fault? unit) = none := by
  rw [Option.eq_none_iff_forall_ne_some]
  constructor
  · rintro ⟨spec, ok⟩ reason first
    rw [buildSpec_eq_error_iff.mpr first] at ok
    cases ok
  · intro sound
    cases read : buildSpec unit owner kind properties with
    | error reason => exact absurd (buildSpec_eq_error_iff.mp read) (sound reason)
    | ok spec => exact ⟨spec, rfl⟩

end Faults

/-! ## Contents -/

/-- A member apart from its number. -/
def SpecMember.unnumbered (member : SpecMember) : SpecMember :=
  { member with definition := default }

/-- A static apart from its number. -/
def StaticDef.unnumbered (entry : StaticDef) : StaticDef :=
  { entry with definition := default }

/-- The keys of a specification that are no members. -/
def reservedKeys : List String := ["mixins", "statics", "propTypes", "displayName"]

/-- The member that a property of that name makes, apart from its number. -/
def memberOf (unit : SourceUnit) (name : String) (given : Expr × Span) : SpecMember :=
  { definition := default, name := name, site := unit.site given.2,
    kind := memberKind unit (unit.docAt given.2.start) given.1.unparen,
    isPrivate := (unit.docAt given.2.start).isPrivate }

/-- The entries of a `mixins` list. -/
def mixinsIn (unit : SourceUnit) (given : Expr × Span) : List MixinRef :=
  match given.1.unparen with
  | .array items _ => items.filterMap fun item => (mixinRef unit item).toOption
  | _ => []

/-- The static that a property of that name makes, apart from its number. -/
def staticOf (unit : SourceUnit) (name : String) (given : Expr × Span) : StaticDef :=
  { definition := default, name := name, site := unit.site given.2,
    type := staticType (unit.docAt given.2.start) given.1 }

/-- The entries of a `statics` object. -/
def staticsIn (given : Expr × Span) : List Property :=
  match given.1.unparen with
  | .object properties _ => properties
  | _ => []

/-- The static of that name in a `statics` object. -/
def static? (unit : SourceUnit) (name : String) (given : Expr × Span) : Option StaticDef :=
  (valuesOf name (staticsIn given)).getLast?.map (staticOf unit name)

/-- The text of a string literal. -/
def text? (given : Expr × Span) : Option String :=
  match given.1.unparen with
  | .string text _ => some text
  | _ => none

theorem text?_eq_some {value : Expr} {text : String} {place span : Span}
    (literal : value.unparen = .string text place) : text? (value, span) = some text := by
  rw [text?, literal]

theorem text?_eq_none {value : Expr} {span : Span}
    (computed : ∀ text place, value.unparen = .string text place → False) :
    text? (value, span) = none := by
  unfold text?
  split
  next text place literal => exact absurd literal (computed text place)
  next => rfl

/-- The keys of the object literal that a function returns. -/
def returnedKeys? (given : Expr × Span) : Option (List String) :=
  given.1.unparen.returnedObject?.map knownKeys

/-- What a specification holds, part by part, if it was read from these properties. -/
structure SourceUnit.Describes (unit : SourceUnit) (kind : FactoryKind)
    (properties : List Property) (spec : FactorySpec) : Prop where
  members : ∀ name, (spec.members.get? name).map SpecMember.unnumbered =
    if name ∈ reservedKeys then none
    else (valuesOf name properties).getLast?.map (memberOf unit name)
  mixins : spec.mixins = (valuesOf "mixins" properties).flatMap (mixinsIn unit)
  statics : ∀ name, (spec.statics.get? name).map StaticDef.unnumbered =
    lastTelling? (static? unit name) (valuesOf "statics" properties)
  propTypes : spec.propTypes =
    match kind with
    | .component => (valuesOf "propTypes" properties).getLast?.bind fun given =>
        declaredProps? unit given.1.unparen
    | .mixin => none
  displayName : spec.displayName = lastTelling? text? (valuesOf "displayName" properties)
  defaultProps : spec.defaultProps =
    (lastTelling? returnedKeys? (valuesOf "getDefaultProps" properties)).getD []
  stateHint : spec.stateHint =
    (valuesOf "getInitialState" properties).getLast?.bind fun given =>
      stateHint? unit (unit.docAt given.2.start) given.1.unparen given.2

section Contents

variable {unit : SourceUnit} {owner : Nat} {kind : FactoryKind} {spec result : FactorySpec}
  {properties : List Property} {key : Key} {value : Expr} {span : Span}

/-- An empty literal describes the empty specification. -/
theorem describes_empty : unit.Describes kind [] FactorySpec.empty where
  members := by simp [FactorySpec.empty, valuesOf, Keyed.empty, Keyed.get?, Keyed.lookup]
  mixins := rfl
  statics := by
    simp [FactorySpec.empty, valuesOf, Keyed.empty, Keyed.get?, Keyed.lookup, lastTelling?]
  propTypes := by cases kind <;> rfl
  displayName := rfl
  defaultProps := rfl
  stateHint := rfl

/-- A property of a reserved key leaves the members as they are. -/
theorem SourceUnit.Describes.members_concat (describes : unit.Describes kind properties spec)
    {reserved : String} (named : key.name? = some reserved) (mem : reserved ∈ reservedKeys)
    (name : String) :
    (spec.members.get? name).map SpecMember.unnumbered =
      if name ∈ reservedKeys then none
      else (valuesOf name (properties ++ [.entry key value span])).getLast?.map
        (memberOf unit name) := by
  rw [describes.members name, valuesOf_concat, named]
  by_cases same : reserved = name
  · rw [if_pos (same ▸ mem), if_pos (same ▸ mem)]
  · simp [same]

/-- What a list of readings yields is what each of them does. -/
theorem mapM_ok_eq_filterMap {ε α β : Type} {read : α → Except ε β} {items : List α}
    {results : List β} (ok : items.mapM read = .ok results) :
    results = items.filterMap fun item => (read item).toOption := by
  induction items generalizing results with
  | nil =>
      cases ok
      rfl
  | cons item rest ih =>
      rw [List.mapM_cons] at ok
      cases first : read item with
      | error reason => simp [first, bind, Except.bind] at ok
      | ok value =>
          cases others : rest.mapM read with
          | error reason => simp [first, others, bind, Except.bind] at ok
          | ok values =>
              simp only [first, others, bind, Except.bind, pure, Except.pure, Except.ok.injEq] at ok
              rw [← ok, ih others]
              simp [first, Except.toOption]

/-- Reading the mixins appends those that the value lists. -/
theorem enterMixins_eq (span : Span) (ok : enterMixins unit spec value.unparen = .ok result) :
    result = { spec with mixins := spec.mixins ++ mixinsIn unit (value, span) } := by
  unfold enterMixins at ok
  unfold mixinsIn
  split at ok
  next items _ literal =>
    cases refs : items.mapM (mixinRef unit) with
    | error reason => simp [refs, bind, Except.bind] at ok
    | ok entries =>
        simp only [refs, bind, Except.bind, pure, Except.pure, Except.ok.injEq] at ok
        rw [← ok, mapM_ok_eq_filterMap refs]
        simp [literal]
  · cases ok

/-- Of the statics of a name the last one entered stands, and one that was there before the others
only if none is entered. -/
theorem foldlM_enterStatic (ok : properties.foldlM (enterStatic unit owner) spec = .ok result) :
    (∀ name, (result.statics.get? name).map StaticDef.unnumbered =
      ((valuesOf name properties).getLast?.map (staticOf unit name)).or
        ((spec.statics.get? name).map StaticDef.unnumbered)) ∧
    ∃ statics count, result = { spec with statics := statics, definitionCount := count } := by
  induction properties generalizing spec with
  | nil =>
      cases ok
      exact ⟨fun _ => rfl, _, _, rfl⟩
  | cons property rest ih =>
      rw [List.foldlM_cons] at ok
      cases property with
      | spread => cases ok
      | entry key value span =>
          cases named : key.name? with
          | none => simp [enterStatic, named, bind, Except.bind] at ok
          | some known =>
              simp only [enterStatic, named, bind, Except.bind] at ok
              obtain ⟨later, statics, count, rfl⟩ := ih ok
              refine ⟨fun name => ?_, _, _, rfl⟩
              rw [later name, valuesOf_cons, named, List.getLast?_append]
              by_cases same : known = name
              · subst same
                cases (valuesOf known rest).getLast? <;>
                  simp [FactorySpec.addStatic, Keyed.get?_insert_self, StaticDef.unnumbered,
                    staticOf]
              · simp [same, FactorySpec.addStatic, Keyed.get?_insert_other _ (Ne.symm same)]

/-- Reading the statics writes each under its name, over what stood there. -/
theorem enterStatics_eq (span : Span)
    (ok : enterStatics unit owner spec value.unparen = .ok result) :
    (∀ name, (result.statics.get? name).map StaticDef.unnumbered =
      (static? unit name (value, span)).or
        ((spec.statics.get? name).map StaticDef.unnumbered)) ∧
    ∃ statics count, result = { spec with statics := statics, definitionCount := count } := by
  unfold enterStatics at ok
  unfold static? staticsIn
  split at ok
  next properties _ literal =>
    simp only [literal]
    exact foldlM_enterStatic ok
  · cases ok

/-- What a member says beyond being there touches the default props and the state only. -/
theorem enterHints_eq (unit : SourceUnit) (spec : FactorySpec) (name : String) (value : Expr)
    (span : Span) :
    enterHints unit spec name (unit.docAt span.start) value.unparen span =
      { spec with
        defaultProps :=
          if name = "getDefaultProps" then (returnedKeys? (value, span)).getD spec.defaultProps
          else spec.defaultProps
        stateHint :=
          if name = "getInitialState" then
            stateHint? unit (unit.docAt span.start) value.unparen span
          else spec.stateHint } := by
  unfold enterHints
  split
  · cases literal : value.unparen.returnedObject? <;> simp [returnedKeys?, literal]
  · simp
  · rename_i notDefaults notState
    rw [if_neg notDefaults, if_neg notState]

section Steps

variable (describes : unit.Describes kind properties spec)
include describes

/-- With its mixins read a longer literal is described. -/
theorem SourceUnit.Describes.enterMixins (named : key.name? = some "mixins")
    (ok : ClassFactory.enterMixins unit spec value.unparen = .ok result) :
    unit.Describes kind (properties ++ [.entry key value span]) result := by
  obtain rfl := enterMixins_eq span ok
  exact
    { members := describes.members_concat named (by decide)
      mixins := by simp [valuesOf_concat, named, describes.mixins]
      statics := by simpa [valuesOf_concat, named] using describes.statics
      propTypes := by simpa [valuesOf_concat, named] using describes.propTypes
      displayName := by simpa [valuesOf_concat, named] using describes.displayName
      defaultProps := by simpa [valuesOf_concat, named] using describes.defaultProps
      stateHint := by simpa [valuesOf_concat, named] using describes.stateHint }

/-- With its statics read a longer literal is described. -/
theorem SourceUnit.Describes.enterStatics (named : key.name? = some "statics")
    (ok : ClassFactory.enterStatics unit owner spec value.unparen = .ok result) :
    unit.Describes kind (properties ++ [.entry key value span]) result := by
  obtain ⟨later, statics, count, rfl⟩ := enterStatics_eq span ok
  exact
    { members := describes.members_concat named (by decide)
      mixins := by simpa [valuesOf_concat, named] using describes.mixins
      statics := by
        intro name
        rw [later name, describes.statics name, valuesOf_concat, if_pos named, lastTelling?_concat]
      propTypes := by simpa [valuesOf_concat, named] using describes.propTypes
      displayName := by simpa [valuesOf_concat, named] using describes.displayName
      defaultProps := by simpa [valuesOf_concat, named] using describes.defaultProps
      stateHint := by simpa [valuesOf_concat, named] using describes.stateHint }

/-- With its props read a longer literal is described. -/
theorem SourceUnit.Describes.enterPropTypes (named : key.name? = some "propTypes")
    (given : result = match kind with
      | .component => { spec with propTypes := declaredProps? unit value.unparen }
      | .mixin => spec) :
    unit.Describes kind (properties ++ [.entry key value span]) result := by
  have others : result = { spec with propTypes := result.propTypes } := by
    cases kind <;> simp [given]
  have props : result.propTypes = match kind with
      | .component => declaredProps? unit value.unparen
      | .mixin => spec.propTypes := by
    cases kind <;> simp [given]
  rw [others]
  exact
    { members := describes.members_concat named (by decide)
      mixins := by simpa [valuesOf_concat, named] using describes.mixins
      statics := by simpa [valuesOf_concat, named] using describes.statics
      propTypes := by
        rw [props]
        cases kind with
        | component => simp [valuesOf_concat, named]
        | mixin => exact describes.propTypes
      displayName := by simpa [valuesOf_concat, named] using describes.displayName
      defaultProps := by simpa [valuesOf_concat, named] using describes.defaultProps
      stateHint := by simpa [valuesOf_concat, named] using describes.stateHint }

/-- With its display name read a longer literal is described. -/
theorem SourceUnit.Describes.enterDisplayName (named : key.name? = some "displayName")
    (given : result = { spec with displayName := (text? (value, span)).or spec.displayName }) :
    unit.Describes kind (properties ++ [.entry key value span]) result := by
  rw [given]
  exact
    { members := describes.members_concat named (by decide)
      mixins := by simpa [valuesOf_concat, named] using describes.mixins
      statics := by simpa [valuesOf_concat, named] using describes.statics
      propTypes := by simpa [valuesOf_concat, named] using describes.propTypes
      displayName := by
        simp only [valuesOf_concat, if_pos named, lastTelling?_concat, describes.displayName]
      defaultProps := by simpa [valuesOf_concat, named] using describes.defaultProps
      stateHint := by simpa [valuesOf_concat, named] using describes.stateHint }

/-- With a member entered a longer literal is described. -/
theorem SourceUnit.Describes.enterMember {name : String} (named : key.name? = some name)
    (plain : name ∉ reservedKeys) :
    unit.Describes kind (properties ++ [.entry key value span])
      (ClassFactory.enterMember unit owner spec name value.unparen span) := by
  have others : ∀ reserved ∈ reservedKeys, name ≠ reserved :=
    fun reserved mem same => plain (same ▸ mem)
  simp only [reservedKeys, List.forall_mem_cons] at others
  obtain ⟨notMixins, notStatics, notPropTypes, notDisplayName, -⟩ := others
  simp only [ClassFactory.enterMember, enterHints_eq, FactorySpec.addMember]
  exact
    { members := by
        intro other
        rw [valuesOf_concat, named]
        by_cases same : name = other
        · subst same
          simp [plain, Keyed.get?_insert_self, SpecMember.unnumbered, memberOf]
        · simpa [same, Keyed.get?_insert_other _ (Ne.symm same)] using describes.members other
      mixins := by simpa [valuesOf_concat, named, notMixins] using describes.mixins
      statics := by simpa [valuesOf_concat, named, notStatics] using describes.statics
      propTypes := by simpa [valuesOf_concat, named, notPropTypes] using describes.propTypes
      displayName := by simpa [valuesOf_concat, named, notDisplayName] using describes.displayName
      defaultProps := by
        by_cases same : name = "getDefaultProps"
        · subst same
          simp only [valuesOf_concat, if_pos named, lastTelling?_concat, describes.defaultProps]
          cases returnedKeys? (value, span) <;> rfl
        · simpa [valuesOf_concat, named, same] using describes.defaultProps
      stateHint := by
        by_cases same : name = "getInitialState"
        · subst same
          simp [valuesOf_concat, named]
        · simpa [valuesOf_concat, named, same] using describes.stateHint }

/-- Reading one more property keeps it so that the properties read describe the specification. -/
theorem enterProperty_describes {property : Property}
    (ok : enterProperty unit owner kind spec property = .ok result) :
    unit.Describes kind (properties ++ [property]) result := by
  unfold enterProperty at ok
  split at ok
  · cases ok
  · dsimp only at ok
    split at ok
    next => cases ok
    next named => exact describes.enterMixins named ok
    next named => exact describes.enterStatics named ok
    next named =>
      refine describes.enterPropTypes named ?_
      cases kind <;> cases ok <;> rfl
    next named =>
      refine describes.enterDisplayName named ?_
      split at ok
      next text _ literal =>
        cases ok
        rw [text?_eq_some literal]
        rfl
      next computed =>
        cases ok
        rw [text?_eq_none computed]
        rfl
    next notMixins notStatics notPropTypes notDisplayName named =>
      cases ok
      refine describes.enterMember named ?_
      simpa [reservedKeys] using ⟨notMixins, notStatics, notPropTypes, notDisplayName⟩

end Steps

/-- A specification holds what its properties describe. -/
theorem buildSpec_describes (ok : buildSpec unit owner kind properties = .ok spec) :
    unit.Describes kind properties spec := by
  suffices run : ∀ (done rest : List Property) (start : FactorySpec),
      unit.Describes kind done start →
      rest.foldlM (enterProperty unit owner kind) start = .ok spec →
      unit.Describes kind (done ++ rest) spec from run [] properties _ describes_empty ok
  intro done rest
  induction rest generalizing done with
  | nil =>
      intro start describes ok
      cases ok
      simpa using describes
  | cons property rest ih =>
      intro start describes ok
      rw [List.foldlM_cons] at ok
      cases entered : enterProperty unit owner kind start property with
      | error reason => simp [entered, bind, Except.bind] at ok
      | ok middle =>
          rw [entered] at ok
          simpa using ih (done ++ [property]) middle (enterProperty_describes describes entered) ok

end Contents

end ClassFactory
