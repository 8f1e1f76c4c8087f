/-
Module: ClassFactory.Proofs.Types.Assignable
Purpose: Being assignable is a preorder as far as types are not gradual. A value of a union needs all
  of its members to fit, a union target needs one of its alternatives to be met, however deep unions
  are nested; between types that are no unions there are few ways to fit. So every type fits itself,
  and on types without gradual parts fitting is transitive.
Main exports: Ty.Alternative, Ty.Fits, Ty.WellKeyed, Ty.Firm, assignable_iff_exists,
  assignable_iff_fits, assignable_preorder
-/
import ClassFactory.Types.Assignable

namespace ClassFactory

/-! ## Unions and parts -/

/-- Whether a type is a union. -/
def Ty.isUnion : Ty → Bool
  | .union _ => true
  | _ => false

/-- Induction over nested unions: a property of every type that is no union, which a union has as soon
as its members have it, is one of all types. -/
@[elab_as_elim]
theorem Ty.unionInduction {motive : Ty → Prop}
    (single : ∀ type : Ty, type.isUnion = false → motive type)
    (union : ∀ members : List Ty, (∀ member ∈ members, motive member) → motive (.union members)) :
    ∀ type, motive type
  | .union members => union members fun member _ => Ty.unionInduction single union member
  | .unknown | .primitive _ | .literal _ | .null | .undefined | .array _ | .map _ | .record _
  | .function _ _ | .anyFunction | .anyObject | .named _ | .constructor _ | .element _
  | .renderable => single _ rfl

/-- Whether no part of the type is looked at when it is compared. -/
def Ty.isPlain : Ty → Bool
  | .array _ => false
  | .map _ => false
  | .record _ => false
  | .union _ => false
  | _ => true

/-- Induction over the parts of a type that are looked at. -/
@[elab_as_elim]
theorem Ty.partsInduction {motive : Ty → Prop}
    (plain : ∀ type : Ty, type.isPlain = true → motive type)
    (array : ∀ item : Ty, motive item → motive (.array item))
    (map : ∀ value : Ty, motive value → motive (.map value))
    (record : ∀ fields : List Field, (∀ field ∈ fields, motive field.type) →
      motive (.record fields))
    (union : ∀ members : List Ty, (∀ member ∈ members, motive member) → motive (.union members)) :
    ∀ type, motive type
  | .array item => array item (Ty.partsInduction plain array map record union item)
  | .map value => map value (Ty.partsInduction plain array map record union value)
  | .record fields =>
      record fields fun field _ => Ty.partsInduction plain array map record union field.type
  | .union members =>
      union members fun member _ => Ty.partsInduction plain array map record union member
  | .unknown | .primitive _ | .literal _ | .null | .undefined | .function _ _ | .anyFunction
  | .anyObject | .named _ | .constructor _ | .element _ | .renderable => plain _ rfl
decreasing_by
  all_goals simp_wf
  · rename_i mem
    have smaller := List.sizeOf_lt_of_mem mem
    cases field with
    | mk name type optional =>
        simp only [Field.mk.sizeOf_spec] at smaller
        simp only [Field.type]
        omega
  · rename_i mem
    have smaller := List.sizeOf_lt_of_mem mem
    omega

/-! ## Alternatives of a target -/

/-- What may be met to meet a target: a type that is no union is its own alternative, a union has
those of its members. -/
inductive Ty.Alternative : Ty → Ty → Prop where
  | itself {type : Ty} (single : type.isUnion = false) : Alternative type type
  | member {type member : Ty} {members : List Ty} (mem : member ∈ members)
      (alternative : Alternative type member) : Alternative type (.union members)

/-- The alternatives of a type are no unions themselves. -/
theorem Ty.Alternative.isUnion {type target : Ty} (alternative : type.Alternative target) :
    type.isUnion = false := by
  induction alternative with
  | itself single => exact single
  | member _ _ ih => exact ih

theorem someAlternative_iff {p : Ty → Bool} {types : List Ty} :
    someAlternative p types = true ↔ ∃ type ∈ types, type.anyAlternative p = true := by
  induction types with
  | nil => simp [someAlternative]
  | cons type rest ih => simp [someAlternative, ih]

/-- A type that is no union has itself as its only alternative. -/
theorem anyAlternative_of_single {p : Ty → Bool} {target : Ty} (single : target.isUnion = false) :
    target.anyAlternative p = p target := by
  cases target with
  | union members => cases single
  | _ => rfl

/-- The condition holds of an alternative of the target. -/
theorem anyAlternative_iff {p : Ty → Bool} (target : Ty) :
    target.anyAlternative p = true ↔ ∃ type, type.Alternative target ∧ p type = true := by
  induction target using Ty.unionInduction with
  | single target single =>
      rw [anyAlternative_of_single single]
      constructor
      · intro holds
        exact ⟨target, .itself single, holds⟩
      · rintro ⟨type, alternative, holds⟩
        cases alternative with
        | itself => exact holds
        | member => cases single
  | union members ih =>
      rw [Ty.anyAlternative, someAlternative_iff]
      constructor
      · rintro ⟨member, mem, met⟩
        obtain ⟨type, alternative, holds⟩ := (ih member mem).mp met
        exact ⟨type, .member mem alternative, holds⟩
      · rintro ⟨type, alternative, holds⟩
        cases alternative with
        | itself none => cases none
        | member mem alternative => exact ⟨_, mem, (ih _ mem).mpr ⟨type, alternative, holds⟩⟩

/-! ## Values that are unions, and values that are none -/

/-- Every type may stand where nothing is required. -/
@[simp] theorem Ty.assignable_unknown (type : Ty) : type.assignable .unknown = true := by
  cases type <;> simp [Ty.assignable, Ty.anyAlternative, Ty.meets, Ty.isUnknown]

theorem allAssignable_iff {members : List Ty} {target : Ty} :
    allAssignable members target = true ↔ ∀ member ∈ members, member.assignable target = true := by
  induction members with
  | nil => simp [allAssignable]
  | cons member rest ih => simp [allAssignable, ih]

/-- A union fits just if all of its members do, unless nothing is required. -/
theorem union_assignable_iff {members : List Ty} {target : Ty} :
    (Ty.union members).assignable target = true ↔
      target = .unknown ∨ ∀ member ∈ members, member.assignable target = true := by
  rw [Ty.assignable, Bool.or_eq_true, allAssignable_iff]
  cases target <;> simp [Ty.isUnknown]

/-- A value that is no union meets an alternative of the target. -/
theorem assignable_iff_exists {value target : Ty} (single : value.isUnion = false)
    (known : value ≠ .unknown) :
    value.assignable target = true ↔
      ∃ type, type.Alternative target ∧ value.assignable type = true := by
  have agree : ∀ {p : Ty → Bool}, (∀ target, value.assignable target = target.anyAlternative p) →
      (value.assignable target = true ↔
        ∃ type, type.Alternative target ∧ value.assignable type = true) := by
    intro p reads
    rw [reads target, anyAlternative_iff]
    refine exists_congr fun type => and_congr_right fun alternative => ?_
    rw [reads type, anyAlternative_of_single alternative.isUnion]
  cases value with
  | unknown => exact absurd rfl known
  | union members => cases single
  | _ => exact agree fun _ => rfl

/-- Fitting a member of a union is enough to fit the union. -/
theorem assignable_of_mem {value member : Ty} {members : List Ty} (mem : member ∈ members)
    (fits : value.assignable member = true) : value.assignable (.union members) = true := by
  induction value using Ty.unionInduction with
  | single value single =>
      by_cases known : value = .unknown
      · rw [known, Ty.assignable]
      · rw [assignable_iff_exists single known] at fits ⊢
        obtain ⟨type, alternative, fits⟩ := fits
        exact ⟨type, .member mem alternative, fits⟩
  | union inner ih =>
      rw [union_assignable_iff] at fits ⊢
      refine .inr fun part within => ih part within ?_
      rcases fits with rfl | all
      · exact Ty.assignable_unknown part
      · exact all part within

/-! ## Records -/

/-- Types that name no field of a record twice. What stands inside a function type is never looked
at. -/
inductive Ty.WellKeyed : Ty → Prop where
  | unknown : WellKeyed .unknown
  | primitive (kind : Primitive) : WellKeyed (.primitive kind)
  | literal (value : Literal) : WellKeyed (.literal value)
  | null : WellKeyed .null
  | undefined : WellKeyed .undefined
  | array {item : Ty} (ofItem : WellKeyed item) : WellKeyed (.array item)
  | map {value : Ty} (ofValue : WellKeyed value) : WellKeyed (.map value)
  | record {fields : List Field} (types : ∀ field ∈ fields, WellKeyed field.type)
      (distinct : (fields.map Field.name).Nodup) : WellKeyed (.record fields)
  | union {members : List Ty} (types : ∀ type ∈ members, WellKeyed type) :
      WellKeyed (.union members)
  | function (params : List Param) (returns : Ty) : WellKeyed (.function params returns)
  | anyFunction : WellKeyed .anyFunction
  | anyObject : WellKeyed .anyObject
  | named (name : String) : WellKeyed (.named name)
  | constructor (component : String) : WellKeyed (.constructor component)
  | element (component : Option String) : WellKeyed (.element component)
  | renderable : WellKeyed .renderable

/-- A record meets a field if what it has under the name fits, and otherwise if the field is
optional. -/
theorem fieldMeets_eq {name : String} {target : Ty} {optional : Bool} {fields : List Field} :
    fieldMeets name target optional fields =
      ((findField name fields).map fun field => field.type.assignable target).getD optional := by
  induction fields with
  | nil => rfl
  | cons field rest ih =>
      rw [fieldMeets, findField]
      split
      · cases field with
        | mk => rfl
      · exact ih

/-- A record fits another one if it meets each of the fields that are expected. -/
theorem record_assignable_record {fields expected : List Field} :
    (Ty.record fields).assignable (.record expected) =
      expected.all fun field => fieldMeets field.name field.type field.optional fields := by
  rw [Ty.assignable]
  rfl

theorem allFieldsAssignable_iff {fields : List Field} {target : Ty} :
    allFieldsAssignable fields target = true ↔
      ∀ field ∈ fields, field.type.assignable target = true := by
  induction fields with
  | nil => simp [allFieldsAssignable]
  | cons field rest ih =>
      cases field with
      | mk name type optional =>
          simp [allFieldsAssignable, fieldAssignable, ih, Field.type]

/-- A record fits a map just if all of its fields fit the values of the map. -/
theorem record_assignable_map {fields : List Field} {expected : Ty} :
    (Ty.record fields).assignable (.map expected) = true ↔
      ∀ field ∈ fields, field.type.assignable expected = true :=
  allFieldsAssignable_iff

/-- Where no name occurs twice, looking up the name of a field gives that field. -/
theorem findField_of_mem {fields : List Field} (distinct : (fields.map Field.name).Nodup)
    {field : Field} (mem : field ∈ fields) : findField field.name fields = some field := by
  induction fields with
  | nil => cases mem
  | cons first rest ih =>
      rw [List.map_cons, List.nodup_cons] at distinct
      rw [findField]
      rcases List.mem_cons.mp mem with rfl | later
      · rw [if_pos rfl]
      · have other : first.name ≠ field.name := by
          intro same
          exact distinct.1 (same ▸ List.mem_map_of_mem later)
        rw [if_neg other, ih distinct.2 later]

/-- Every type fits itself. -/
theorem Ty.WellKeyed.assignable_self {type : Ty} (keyed : type.WellKeyed) :
    type.assignable type = true := by
  induction keyed with
  | array _ ih => rw [Ty.assignable]; exact ih
  | map _ ih => rw [Ty.assignable]; exact ih
  | record _ distinct ih =>
      rw [record_assignable_record, List.all_eq_true]
      intro field mem
      rw [fieldMeets_eq, findField_of_mem distinct mem]
      exact ih field mem
  | union _ ih =>
      rw [union_assignable_iff]
      exact .inr fun member mem => assignable_of_mem mem (ih member mem)
  | primitive kind => simp [Ty.assignable, Ty.anyAlternative, Ty.meets]
  | literal value => simp [Ty.assignable, Ty.anyAlternative, Ty.meets]
  | named name => simp [Ty.assignable, Ty.anyAlternative, Ty.meets]
  | constructor component => simp [Ty.assignable, Ty.anyAlternative, Ty.meets]
  | element component => cases component <;> simp [Ty.assignable, Ty.anyAlternative, Ty.meets]
  | _ => rfl

/-! ## Types without gradual parts -/

/-- Types without gradual parts: nothing unconstrained, no object or map of any kind, no elements,
and no field that may be absent. What stands inside a function type is never looked at. -/
inductive Ty.Firm : Ty → Prop where
  | primitive (kind : Primitive) : Firm (.primitive kind)
  | literal (value : Literal) : Firm (.literal value)
  | null : Firm .null
  | undefined : Firm .undefined
  | array {item : Ty} (ofItem : Firm item) : Firm (.array item)
  | record {fields : List Field} (types : ∀ field ∈ fields, Firm field.type)
      (required : ∀ field ∈ fields, field.optional = false) : Firm (.record fields)
  | union {members : List Ty} (types : ∀ type ∈ members, Firm type) : Firm (.union members)
  | function (params : List Param) (returns : Ty) : Firm (.function params returns)
  | anyFunction : Firm .anyFunction
  | named (name : String) : Firm (.named name)
  | constructor (component : String) : Firm (.constructor component)
  | renderable : Firm .renderable

/-- The unconstrained type is not firm. -/
theorem Ty.Firm.ne_unknown {type : Ty} (firm : type.Firm) : type ≠ .unknown := by
  rintro rfl
  cases firm

/-- The alternatives of a firm type are firm. -/
theorem Ty.Firm.alternative {type target : Ty} (firm : target.Firm)
    (alternative : type.Alternative target) : type.Firm := by
  induction alternative with
  | itself => exact firm
  | member mem _ ih =>
      cases firm with
      | union types => exact ih (types _ mem)

/-- Whether values of the type can be called. -/
def Ty.isCallable : Ty → Bool
  | .function _ _ => true
  | .anyFunction => true
  | .constructor _ => true
  | _ => false

/-- Whether the type is one of functions. -/
def Ty.isFunction : Ty → Bool
  | .function _ _ => true
  | .anyFunction => true
  | _ => false

/-- The ways in which a type fits another one, where neither is a union or has gradual parts. -/
inductive Ty.Fits : Ty → Ty → Prop where
  | primitive (kind : Primitive) : Fits (.primitive kind) (.primitive kind)
  | literal (value : Literal) : Fits (.literal value) (.literal value)
  | kindOf (value : Literal) : Fits (.literal value) (.primitive value.primitive)
  | null : Fits .null .null
  | undefined : Fits .undefined .undefined
  | absent (name : String) : Fits .null (.named name)
  | array {item expected : Ty} (ofItem : item.assignable expected = true) :
      Fits (.array item) (.array expected)
  | record {fields expected : List Field}
      (each : ∀ field ∈ expected, ∃ given, findField field.name fields = some given ∧
        given.type.assignable field.type = true) : Fits (.record fields) (.record expected)
  | callable {value target : Ty} (called : value.isCallable = true)
      (function : target.isFunction = true) : Fits value target
  | named (name : String) : Fits (.named name) (.named name)
  | constructor (component : String) : Fits (.constructor component) (.constructor component)
  | child {value : Ty} (renderable : value.isRenderable = true) : Fits value .renderable

theorem allRenderable_iff {types : List Ty} :
    allRenderable types = true ↔ ∀ type ∈ types, type.isRenderable = true := by
  induction types with
  | nil => simp [allRenderable]
  | cons type rest ih => simp [allRenderable, ih]

/-- What fits the type of children is what can be rendered. -/
theorem assignable_renderable (value : Ty) : value.assignable .renderable = value.isRenderable := by
  induction value using Ty.unionInduction with
  | single value single =>
      cases value with
      | union members => cases single
      | _ => rfl
  | union members ih =>
      rw [Bool.eq_iff_iff, union_assignable_iff, Ty.isRenderable, allRenderable_iff]
      simp only [reduceCtorEq, false_or]
      exact forall₂_congr fun member mem => by rw [ih member mem]

/-- If no field may be absent, a record fits just if it has each field with a type that fits. -/
theorem record_assignable_iff {fields expected : List Field}
    (required : ∀ field ∈ expected, field.optional = false) :
    (Ty.record fields).assignable (.record expected) = true ↔
      ∀ field ∈ expected, ∃ given, findField field.name fields = some given ∧
        given.type.assignable field.type = true := by
  rw [record_assignable_record, List.all_eq_true]
  refine forall₂_congr fun field mem => ?_
  rw [fieldMeets_eq, required field mem]
  cases findField field.name fields with
  | none => simp
  | some given => simp

/-- Between firm types that are no unions there are just these ways to fit. -/
theorem assignable_iff_fits {value target : Ty} (ofValue : value.Firm) (ofTarget : target.Firm)
    (single : value.isUnion = false) (one : target.isUnion = false) :
    value.assignable target = true ↔ value.Fits target := by
  constructor
  · intro fits
    cases ofTarget with
    | union => cases one
    | renderable =>
        rw [assignable_renderable] at fits
        exact .child fits
    | primitive kind =>
        cases ofValue with
        | primitive other =>
            obtain rfl : other = kind := of_decide_eq_true fits
            exact .primitive other
        | literal value =>
            obtain rfl : value.primitive = kind := of_decide_eq_true fits
            exact .kindOf value
        | union => cases single
        | _ => cases fits
    | literal value =>
        cases ofValue with
        | literal other =>
            obtain rfl : other = value := of_decide_eq_true fits
            exact .literal other
        | union => cases single
        | _ => cases fits
    | null =>
        cases ofValue with
        | null => exact .null
        | union => cases single
        | _ => cases fits
    | undefined =>
        cases ofValue with
        | undefined => exact .undefined
        | union => cases single
        | _ => cases fits
    | array =>
        cases ofValue with
        | array => exact .array fits
        | union => cases single
        | _ => cases fits
    | record _ required =>
        cases ofValue with
        | record => exact .record ((record_assignable_iff required).mp fits)
        | union => cases single
        | _ => cases fits
    | named name =>
        cases ofValue with
        | null => exact .absent name
        | named other =>
            obtain rfl : other = name := of_decide_eq_true fits
            exact .named other
        | union => cases single
        | _ => cases fits
    | constructor component =>
        cases ofValue with
        | constructor other =>
            obtain rfl : other = component := of_decide_eq_true fits
            exact .constructor other
        | union => cases single
        | _ => cases fits
    | function =>
        cases ofValue with
        | function => exact .callable rfl rfl
        | anyFunction => exact .callable rfl rfl
        | constructor => exact .callable rfl rfl
        | union => cases single
        | _ => cases fits
    | anyFunction =>
        cases ofValue with
        | function => exact .callable rfl rfl
        | anyFunction => exact .callable rfl rfl
        | constructor => exact .callable rfl rfl
        | union => cases single
        | _ => cases fits
  · intro fits
    cases fits with
    | primitive kind => exact decide_eq_true rfl
    | literal value => exact decide_eq_true rfl
    | kindOf value => exact decide_eq_true rfl
    | null => rfl
    | undefined => rfl
    | absent name => rfl
    | array ofItem => exact ofItem
    | record each =>
        cases ofTarget with
        | record _ required => exact (record_assignable_iff required).mpr each
    | callable called function =>
        cases value <;> cases called <;> cases target <;> cases function <;> rfl
    | named name => exact decide_eq_true rfl
    | constructor component => exact decide_eq_true rfl
    | child renderable => rw [assignable_renderable, renderable]

/-! ## Transitivity -/

/-- What fits a firm type also fits whatever that type fits. -/
def Ty.Transits (value : Ty) : Prop :=
  ∀ {middle target : Ty}, middle.Firm → target.Firm → value.assignable middle = true →
    middle.assignable target = true → value.assignable target = true

/-- What fits an alternative of a type fits wherever the type does. -/
theorem Ty.Alternative.assignable {type middle target : Ty} (alternative : type.Alternative middle)
    (known : target ≠ .unknown) (fits : middle.assignable target = true) :
    type.assignable target = true := by
  induction alternative with
  | itself => exact fits
  | member mem _ ih =>
      rcases union_assignable_iff.mp fits with unknown | all
      · exact absurd unknown known
      · exact ih (all _ mem)

/-- A field that is found is one of the record's and has the name. -/
theorem of_findField {name : String} {fields : List Field} {field : Field}
    (found : findField name fields = some field) : field ∈ fields ∧ field.name = name := by
  induction fields with
  | nil => cases found
  | cons first rest ih =>
      rw [findField] at found
      split at found
      next named =>
        cases found
        exact ⟨List.mem_cons_self, named⟩
      next =>
        exact ⟨List.mem_cons_of_mem first (ih found).1, (ih found).2⟩

/-- Two fits in a row make one, if that is so for the items of an array and the fields of a
record. -/
theorem Ty.Fits.trans {value middle target : Ty} (first : value.Fits middle)
    (second : middle.Fits target) (ofMiddle : middle.Firm) (ofTarget : target.Firm)
    (items : ∀ item, value = .array item → item.Transits)
    (types : ∀ fields, value = .record fields → ∀ field ∈ fields, field.type.Transits) :
    value.Fits target := by
  cases first with
  | primitive kind => exact second
  | literal value => exact second
  | kindOf value =>
      cases second with
      | primitive => exact .kindOf value
      | callable called => cases called
      | child => exact .child rfl
  | null => exact second
  | undefined => exact second
  | absent name =>
      cases second with
      | named => exact .absent name
      | callable called => cases called
      | child renderable => cases renderable
  | @array item expected ofItem =>
      cases ofMiddle with
      | array ofExpected =>
        cases second with
        | array ofLater =>
            cases ofTarget with
            | array ofLast => exact .array (items item rfl ofExpected ofLast ofItem ofLater)
        | callable called => cases called
        | child renderable =>
            have later : expected.assignable .renderable = true := by
              rw [assignable_renderable]
              exact renderable
            have whole := items item rfl ofExpected .renderable ofItem later
            rw [assignable_renderable] at whole
            exact .child whole
  | @record fields expected each =>
      cases second with
      | record later =>
          refine .record fun field mem => ?_
          obtain ⟨between, found, ofBetween⟩ := later field mem
          obtain ⟨within, named⟩ := of_findField found
          obtain ⟨given, ofName, ofGiven⟩ := each between within
          rw [named] at ofName
          refine ⟨given, ofName, ?_⟩
          cases ofMiddle with
          | record middleTypes =>
            cases ofTarget with
            | record targetTypes =>
                exact types fields rfl given (of_findField ofName).1 (middleTypes between within)
                  (targetTypes field mem) ofGiven ofBetween
      | callable called => cases called
      | child renderable => cases renderable
  | callable called function =>
      cases second with
      | callable _ later => exact .callable called later
      | child renderable => cases middle <;> cases function <;> cases renderable
      | _ => cases function
  | named name => exact second
  | constructor component => exact second
  | child renderable =>
      cases second with
      | callable called => cases called
      | child => exact .child renderable

/-- A firm type that is no union passes on what it fits, if its parts do. -/
theorem transits_of_parts {value : Ty} (ofValue : value.Firm) (single : value.isUnion = false)
    (items : ∀ item, value = .array item → item.Transits)
    (types : ∀ fields, value = .record fields → ∀ field ∈ fields, field.type.Transits) :
    value.Transits := by
  intro middle target ofMiddle ofTarget first second
  rw [assignable_iff_exists single ofValue.ne_unknown] at first
  obtain ⟨between, toMiddle, first⟩ := first
  have second := toMiddle.assignable ofTarget.ne_unknown second
  have ofBetween := ofMiddle.alternative toMiddle
  rw [assignable_iff_exists toMiddle.isUnion ofBetween.ne_unknown] at second
  obtain ⟨last, toTarget, second⟩ := second
  have ofLast := ofTarget.alternative toTarget
  rw [assignable_iff_exists single ofValue.ne_unknown]
  refine ⟨last, toTarget, ?_⟩
  rw [assignable_iff_fits ofValue ofBetween single toMiddle.isUnion] at first
  rw [assignable_iff_fits ofBetween ofLast toMiddle.isUnion toTarget.isUnion] at second
  rw [assignable_iff_fits ofValue ofLast single toTarget.isUnion]
  exact first.trans second ofBetween ofLast items types

/-- A firm value passes on to every firm target: by induction on the value, whose parts do so. -/
theorem Ty.Firm.transits {value : Ty} (ofValue : value.Firm) : value.Transits := by
  induction ofValue with
  | array ofItem ih =>
      refine transits_of_parts (.array ofItem) rfl ?_ (by simp)
      rintro item ⟨⟩
      exact ih
  | record ofTypes required ih =>
      refine transits_of_parts (.record ofTypes required) rfl (by simp) ?_
      rintro fields ⟨⟩
      exact ih
  | union _ ih =>
      intro middle target ofMiddle ofTarget first second
      rw [union_assignable_iff] at first ⊢
      refine .inr fun member mem => ih member mem ofMiddle ofTarget ?_ second
      exact first.resolve_left ofMiddle.ne_unknown member mem
  | primitive kind => exact transits_of_parts (.primitive kind) rfl (by simp) (by simp)
  | literal value => exact transits_of_parts (.literal value) rfl (by simp) (by simp)
  | null => exact transits_of_parts .null rfl (by simp) (by simp)
  | undefined => exact transits_of_parts .undefined rfl (by simp) (by simp)
  | function params returns =>
      exact transits_of_parts (.function params returns) rfl (by simp) (by simp)
  | anyFunction => exact transits_of_parts .anyFunction rfl (by simp) (by simp)
  | named name => exact transits_of_parts (.named name) rfl (by simp) (by simp)
  | constructor component =>
      exact transits_of_parts (.constructor component) rfl (by simp) (by simp)
  | renderable => exact transits_of_parts .renderable rfl (by simp) (by simp)

/-- Being assignable is reflexive, and transitive where no type is gradual in any part. -/
theorem assignable_preorder :
    (∀ type : Ty, type.WellKeyed → type.assignable type = true) ∧
    ∀ value middle target : Ty, value.Firm → middle.Firm → target.Firm →
      value.assignable middle = true → middle.assignable target = true →
        value.assignable target = true :=
  ⟨fun _ keyed => keyed.assignable_self,
    fun _ _ _ ofValue ofMiddle ofTarget => ofValue.transits ofMiddle ofTarget⟩

/-- Rows of texts or nothing, or one of the alternatives of a union that also holds an empty one. -/
def listing : Ty :=
  .union [.union [], .record [.mk "rows" (.array (.union [.string, .null])) true],
    .union [.unknown, .element none]]

theorem listing_wellKeyed : listing.WellKeyed := by
  have row : (Ty.union [.string, .null]).WellKeyed := by
    refine .union ?_
    simp only [List.mem_cons, List.not_mem_nil, or_false, forall_eq_or_imp, forall_eq]
    exact ⟨.primitive _, .null⟩
  refine .union ?_
  simp only [List.mem_cons, List.not_mem_nil, or_false, forall_eq_or_imp, forall_eq]
  refine ⟨.union (by simp), .record (by simpa using .array row) (by simp), .union ?_⟩
  simp only [List.mem_cons, List.not_mem_nil, or_false, forall_eq_or_imp, forall_eq]
  exact ⟨.unknown, .element none⟩

/-- A list of one text fits a list of texts or `null`, and with it whatever may be a child. -/
theorem assignable_preorder_listing :
    (listing.WellKeyed ∧ listing.assignable listing = true) ∧
    (Ty.array (.literal (.string "row"))).assignable (.union [.union [.renderable], .undefined]) =
      true := by
  have texts : (Ty.union [.array .string, .null]).Firm := by
    refine .union ?_
    simp only [List.mem_cons, List.not_mem_nil, or_false, forall_eq_or_imp, forall_eq]
    exact ⟨.array (.primitive _), .null⟩
  have child : (Ty.union [.union [.renderable], .undefined]).Firm := by
    refine .union ?_
    simp only [List.mem_cons, List.not_mem_nil, or_false, forall_eq_or_imp, forall_eq]
    exact ⟨.union (by simpa using .renderable), .undefined⟩
  constructor
  · exact ⟨listing_wellKeyed, assignable_preorder.1 listing listing_wellKeyed⟩
  · exact assignable_preorder.2 _ _ _ (.array (.literal _)) texts child rfl rfl

end ClassFactory
