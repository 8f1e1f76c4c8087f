/-
Module: ClassFactory.Proofs.Types.Sources
Purpose: Where types come from. A property that the ways of building a type keep holds of whatever type
  expressions spell and documentation says. So no field of a record is named twice there, nor in the
  types that validators admit: a later field of a name takes the place of the earlier one.
Main exports: Reading.Gives, Ty.Spelled, Ty.Spelled.docBlockAt, DocBlock.WellKeyed,
  Fields.insert_wellKeyed, Validator.ofExpr_wellKeyed
-/
import ClassFactory.DocBlock
import ClassFactory.Proofs.Keyed
import ClassFactory.Proofs.Types.Joins
import ClassFactory.Validator

namespace ClassFactory

open Script (Expr Item Property)

/-! ## Records that are written field by field -/

section Fields

variable {field : Field} {fields : List Field}

/-- A field of the record is the one that was written or was there before. -/
theorem mem_insert {other : Field} (mem : other ∈ Fields.insert field fields) :
    other = field ∨ other ∈ fields := by
  induction fields with
  | nil => exact .inl (List.mem_singleton.mp mem)
  | cons old rest ih =>
      rw [Fields.insert] at mem
      split at mem
      · exact (List.mem_cons.mp mem).imp_right (List.mem_cons_of_mem _)
      · rcases List.mem_cons.mp mem with rfl | mem
        · exact .inr List.mem_cons_self
        · exact (ih mem).imp_right (List.mem_cons_of_mem _)

/-- Writing a field keeps the names of a record distinct. -/
theorem Fields.insert_wellKeyed (keyed : (Ty.record fields).WellKeyed)
    (ofField : field.type.WellKeyed) : (Ty.record (Fields.insert field fields)).WellKeyed := by
  cases keyed with
  | record types distinct =>
      apply Ty.WellKeyed.record _ (names_insert_nodup distinct)
      intro other mem
      rcases mem_insert mem with rfl | earlier
      · exact ofField
      · exact types other earlier

end Fields

/-! ## Types that are read -/

namespace Reading

/-- Whatever the reading gives has the property. -/
structure Gives {α : Type} (holds : α → Prop) (reading : Reading α) : Prop where
  of_run : ∀ {cs : List Char} {result : α} {rest : List Char},
    reading.run cs = (some result, rest) → holds result

namespace Gives

variable {α β : Type} {holds : α → Prop} {kept : β → Prop}

/-- Of every result nothing can be said. -/
theorem anything (reading : Reading α) : Gives (fun _ => True) reading := ⟨fun _ => trivial⟩

/-- A result with the property is given with it. -/
protected theorem pure {result : α} (given : holds result) :
    Gives holds (Pure.pure result : Reading α) := by
  constructor
  intro cs other rest ran
  cases ran
  exact given

/-- What fails gives no result. -/
protected theorem failure : Gives holds (failure : Reading α) := by
  constructor
  intro cs result rest ran
  cases ran

/-- A second step may rely on what the first one gives. -/
protected theorem bind {reading : Reading β} {next : β → Reading α} (first : Gives kept reading)
    (second : ∀ result, kept result → Gives holds (next result)) :
    Gives holds (reading >>= next) := by
  constructor
  intro cs result rest ran
  rw [OptionT.run_bind] at ran
  unfold Option.elimM at ran
  change StateT.bind _ _ cs = _ at ran
  unfold StateT.bind at ran
  cases middle : reading.run cs with
  | mk outcome between =>
      rw [middle] at ran
      cases outcome with
      | none => cases ran
      | some given => exact (second given (first.of_run middle)).of_run ran

/-- A step of which the result does not matter. -/
theorem after {reading : Reading β} {next : β → Reading α}
    (second : ∀ result, Gives holds (next result)) : Gives holds (reading >>= next) :=
  (anything reading).bind fun result _ => second result

/-- A choice gives the property if both ways do. -/
protected theorem ite {condition : Prop} [Decidable condition] {yes no : Reading α}
    (ifYes : Gives holds yes) (ifNo : Gives holds no) :
    Gives holds (if condition then yes else no) := by
  split
  · exact ifYes
  · exact ifNo

end Gives

end Reading

/-- Whether the type has no parts and is not the constructor of a component. -/
def Ty.isSimple : Ty → Bool
  | .array _ => false
  | .map _ => false
  | .record _ => false
  | .union _ => false
  | .function _ _ => false
  | .constructor _ => false
  | _ => true

/-- The property holds of whatever a type expression spells. -/
structure Ty.Spelled (holds : Ty → Prop) : Prop where
  simple : ∀ {type : Ty}, type.isSimple = true → holds type
  array : ∀ {item : Ty}, holds item → holds (.array item)
  map : ∀ {value : Ty}, holds value → holds (.map value)
  function : ∀ {params : List Param} {returns : Ty}, (∀ param ∈ params, holds param.type) →
    holds returns → holds (.function params returns)
  noFields : holds (.record [])
  insert : ∀ {field : Field} {fields : List Field}, holds (.record fields) → holds field.type →
    holds (.record (Fields.insert field fields))
  join : ∀ {types : List Ty}, (∀ type ∈ types, holds type) → holds (Ty.join types)

variable {holds : Ty → Prop}

namespace Ty.Spelled

variable (spelled : Ty.Spelled holds)

include spelled

theorem unknown : holds .unknown :=
  spelled.simple rfl

theorem nullable {type : Ty} (given : holds type) : holds type.nullable :=
  spelled.join (by simpa using ⟨given, spelled.simple rfl⟩)

/-- A name with type arguments stands for an array or a map of the last of them, or has no parts. -/
theorem namedType (name : String) {args : List Ty} (given : ∀ type ∈ args, holds type) :
    holds (Reading.namedType name args) := by
  unfold Reading.namedType
  split
  case h_9 =>
    rw [List.getLastD_eq_getLast?]
    apply spelled.array
    cases last : args.getLast? with
    | none => exact spelled.unknown
    | some type => exact given type (List.mem_of_getLast? last)
  case h_10 =>
    split
    next value last => exact spelled.map (given value (List.mem_of_getLast? last))
    next => exact spelled.simple rfl
  case h_11 => split <;> exact spelled.simple rfl
  all_goals exact spelled.simple rfl

/-- Writing fields over those of a record keeps the property. -/
theorem extend {fields later : List Field} (given : holds (.record fields))
    (ofLater : ∀ field ∈ later, holds field.type) :
    holds (.record (Fields.extend fields later)) :=
  List.foldlRecOn later (fun written field => Fields.insert field written)
    (motive := fun written => holds (.record written)) given
    fun _ written field mem => spelled.insert written (ofLater field mem)

/-- A record of fields with the property has it. -/
theorem ofList {fields : List Field} (given : ∀ field ∈ fields, holds field.type) :
    holds (.record (Fields.ofList fields)) :=
  spelled.extend spelled.noFields given

/-- What a validator without parts admits. -/
theorem scalarType (kind : ScalarValidator) : holds kind.toType := by
  cases kind with
  | array => exact spelled.array spelled.unknown
  | any =>
      rw [ScalarValidator.toType]
      apply spelled.join
      simp only [List.mem_cons, List.not_mem_nil, or_false, forall_eq_or_imp, forall_eq]
      exact ⟨spelled.simple rfl, spelled.simple rfl, spelled.simple rfl, spelled.simple rfl⟩
  | _ => exact spelled.simple rfl

/-- What a list of literals admits. -/
theorem literals (values : List Literal) : holds (Ty.join (values.map Ty.literal)) := by
  apply spelled.join
  intro type mem
  obtain ⟨value, -, rfl⟩ := List.mem_map.mp mem
  exact spelled.simple rfl

end Ty.Spelled

namespace Reading

/-- What the readings of one budget give. -/
structure GivesAt (holds : Ty → Prop) (budget : Nat) : Prop where
  unionType : Gives holds (unionType budget)
  alternatives : ∀ {members : List Ty}, (∀ member ∈ members, holds member) →
    Gives holds (alternatives budget members)
  prefixedType : Gives holds (prefixedType budget)
  primaryType : Gives holds (primaryType budget)
  recordFields : ∀ {fields : List Field}, holds (.record fields) →
    Gives holds (recordFields budget fields)
  functionParams : ∀ {params : List Param}, (∀ param ∈ params, holds param.type) →
    Gives holds (functionParams budget params)
  functionResult : ∀ {params : List Param}, (∀ param ∈ params, holds param.type) →
    Gives holds (functionResult budget params)
  typeArguments : ∀ {args : List Ty}, (∀ type ∈ args, holds type) →
    Gives (fun args => ∀ type ∈ args, holds type) (typeArguments budget args)

section Steps

variable {budget : Nat} (spelled : Ty.Spelled holds) (ih : GivesAt holds budget)

include spelled ih

omit spelled in
theorem unionType_gives : Gives holds (unionType (budget + 1)) := by
  unfold Reading.unionType
  apply ih.prefixedType.bind
  intro first given
  exact ih.alternatives (by simpa using given)

theorem alternatives_gives {members : List Ty} (given : ∀ member ∈ members, holds member) :
    Gives holds (alternatives (budget + 1) members) := by
  unfold Reading.alternatives
  apply Gives.after
  intro _
  apply Gives.after
  intro _
  apply Gives.ite
  · apply ih.prefixedType.bind
    intro next ofNext
    apply ih.alternatives
    intro member mem
    rcases List.mem_append.mp mem with earlier | here
    · exact given member earlier
    · rw [List.mem_singleton.mp here]
      exact ofNext
  · exact .pure (spelled.join given)

theorem prefixedType_gives : Gives holds (prefixedType (budget + 1)) := by
  unfold Reading.prefixedType
  apply Gives.after
  intro _
  apply Gives.after
  intro _
  apply Gives.ite
  · exact ih.primaryType
  · apply Gives.after
    intro _
    apply Gives.ite
    · apply Gives.after
      intro _
      apply Gives.after
      intro left
      split
      · exact .pure spelled.unknown
      · apply Gives.ite
        · exact .pure spelled.unknown
        · apply ih.primaryType.bind
          intro type given
          exact .pure (spelled.nullable given)
    · exact ih.primaryType

theorem primaryType_gives : Gives holds (primaryType (budget + 1)) := by
  unfold Reading.primaryType
  apply Gives.after
  intro _
  apply Gives.after
  intro c
  apply Gives.ite
  · apply Gives.after
    intro _
    apply ih.unionType.bind
    intro type given
    apply Gives.after
    intro _
    exact .pure given
  apply Gives.ite
  · apply Gives.after
    intro _
    exact ih.recordFields spelled.noFields
  apply Gives.ite
  · apply Gives.after
    intro _
    exact .pure spelled.unknown
  apply Gives.ite
  · apply Gives.after
    intro text
    exact .pure (spelled.simple rfl)
  apply Gives.after
  intro word
  apply Gives.ite
  · apply Gives.after
    intro _
    exact ih.functionParams (by simp)
  apply Gives.after
  intro _
  apply Gives.ite
  · apply (ih.typeArguments (by simp)).bind
    intro args given
    exact .pure (spelled.namedType word given)
  · exact .pure (spelled.namedType word (by simp))

theorem recordFields_gives {fields : List Field} (given : holds (.record fields)) :
    Gives holds (recordFields (budget + 1) fields) := by
  unfold Reading.recordFields
  apply Gives.after
  intro _
  apply Gives.after
  intro _
  apply Gives.ite
  · exact .pure given
  apply Gives.after
  intro key
  apply Gives.after
  intro _
  apply Gives.after
  intro _
  extract_lets onward
  have written : ∀ field : Field, holds field.type → Gives holds (onward field) := by
    intro field ofField
    have extended := spelled.insert given ofField
    apply Gives.after
    intro _
    apply Gives.after
    intro _
    apply Gives.ite
    · exact ih.recordFields extended
    · apply Gives.after
      intro _
      exact .pure extended
  apply Gives.ite
  · apply ih.unionType.bind
    intro type ofType
    apply Gives.after
    intro _
    apply Gives.after
    intro marked
    rw [pure_bind]
    exact written _ ofType
  · rw [pure_bind]
    exact written _ spelled.unknown

omit spelled in
theorem functionParams_gives {params : List Param} (given : ∀ param ∈ params, holds param.type) :
    Gives holds (functionParams (budget + 1) params) := by
  unfold Reading.functionParams
  apply Gives.after
  intro _
  apply Gives.after
  intro _
  apply Gives.ite
  · exact ih.functionResult given
  apply Gives.after
  intro _
  apply Gives.ite
  · apply Gives.after
    intro _
    apply Gives.after
    intro _
    apply Gives.after
    intro _
    apply Gives.ite
    · exact ih.functionParams given
    · apply Gives.after
      intro _
      exact ih.functionResult given
  · apply Gives.after
    intro rest
    apply ih.unionType.bind
    intro type ofType
    apply Gives.after
    intro _
    apply Gives.after
    intro optional
    have extended : ∀ param ∈ params ++ [.mk ("p" ++ toString params.length) type optional rest],
        holds param.type := by
      intro param mem
      rcases List.mem_append.mp mem with earlier | here
      · exact given param earlier
      · rw [List.mem_singleton.mp here]
        exact ofType
    apply Gives.after
    intro _
    apply Gives.after
    intro _
    apply Gives.ite
    · exact ih.functionParams extended
    · apply Gives.after
      intro _
      exact ih.functionResult extended

theorem functionResult_gives {params : List Param} (given : ∀ param ∈ params, holds param.type) :
    Gives holds (functionResult (budget + 1) params) := by
  unfold Reading.functionResult
  apply Gives.after
  intro _
  apply Gives.after
  intro _
  apply Gives.ite
  · apply ih.prefixedType.bind
    intro returns ofReturns
    exact .pure (spelled.function given ofReturns)
  · exact .pure (spelled.function given spelled.unknown)

omit spelled in
theorem typeArguments_gives {args : List Ty} (given : ∀ type ∈ args, holds type) :
    Gives (fun args => ∀ type ∈ args, holds type) (typeArguments (budget + 1) args) := by
  unfold Reading.typeArguments
  apply ih.unionType.bind
  intro type ofType
  have extended : ∀ one ∈ args ++ [type], holds one := by
    intro one mem
    rcases List.mem_append.mp mem with earlier | here
    · exact given one earlier
    · rw [List.mem_singleton.mp here]
      exact ofType
  apply Gives.after
  intro _
  apply Gives.after
  intro _
  apply Gives.ite
  · exact .pure extended
  · apply Gives.after
    intro _
    exact ih.typeArguments extended

end Steps

/-- Whatever the budget, the property holds of what is read. -/
theorem readings_give (spelled : Ty.Spelled holds) (budget : Nat) : GivesAt holds budget := by
  induction budget with
  | zero =>
      exact ⟨.failure, fun _ => .failure, .failure, .failure, fun _ => .failure,
        fun _ => .failure, fun _ => .failure, fun _ => .failure⟩
  | succ budget ih =>
      exact ⟨unionType_gives ih, alternatives_gives spelled ih, prefixedType_gives spelled ih,
        primaryType_gives spelled ih, recordFields_gives spelled ih, functionParams_gives ih,
        functionResult_gives spelled ih, typeArguments_gives ih⟩

end Reading

/-- What a declaration in a comment spells has the property. -/
theorem Ty.Spelled.readDeclaredType (spelled : Ty.Spelled holds) (text : String) :
    holds (readDeclaredType text).type := by
  unfold ClassFactory.readDeclaredType
  dsimp only
  split
  rename_i type left ran
  have whole : holds (type.getD .unknown) := by
    cases type with
    | none => exact spelled.unknown
    | some type => exact (Reading.readings_give spelled _).unionType.of_run ran
  have either : ∀ ended : Bool, holds (if ended = true then type.getD .unknown else .unknown) := by
    intro ended
    cases ended with
    | true => exact whole
    | false => exact spelled.unknown
  exact either _

/-! ## Types in documentation -/

/-- The property holds of the result and the type tag of a block. -/
structure DocBlock.Gives (holds : Ty → Prop) (block : DocBlock) : Prop where
  returns : ∀ type, block.returns = some type → holds type
  typeTag : ∀ tag, block.typeTag = some tag → holds tag.type

namespace Ty.Spelled

variable (spelled : Ty.Spelled holds)

include spelled

/-- Entering a tag keeps the property of all types of the block. -/
theorem enter {block : DocBlock} (given : block.Gives holds) (tag : List Char) :
    (block.enter tag).Gives holds := by
  have ofReturns : ∀ text : String,
      ({ block with returns := some (readType text) } : DocBlock).Gives holds := by
    intro text
    refine ⟨?_, given.typeTag⟩
    intro type written
    rw [← Option.some.inj written]
    exact spelled.readDeclaredType text
  have ofTypeTag : ∀ (text : String) (optional : Bool),
      ({ block with typeTag := some ⟨(ClassFactory.readDeclaredType text).type, optional⟩ } :
        DocBlock).Gives holds := by
    intro text optional
    refine ⟨given.returns, ?_⟩
    intro tag written
    rw [← Option.some.inj written]
    dsimp only
    exact spelled.readDeclaredType text
  unfold DocBlock.enter
  dsimp only
  split
  -- a parameter
  · split
    · exact ⟨given.returns, given.typeTag⟩
    · exact given
  -- the result, under either of its names
  · split
    · exact ofReturns _
    · exact given
  · split
    · exact ofReturns _
    · exact given
  -- the type tag, under either of its names
  · split
    · exact ofTypeTag _ _
    · exact given
  · split
    · exact ofTypeTag _ _
    · exact given
  · exact ⟨given.returns, given.typeTag⟩
  · exact given

omit spelled in
theorem emptyBlock : DocBlock.empty.Gives holds := ⟨by simp [DocBlock.empty], by simp [DocBlock.empty]⟩

/-- The types of a documentation block have the property. -/
theorem ofContent (content : String) : (DocBlock.ofContent content).Gives holds :=
  List.foldlRecOn (DocBlock.splitTags content) DocBlock.enter emptyBlock
    fun _ given tag _ => spelled.enter given tag

/-- The types of the block in front of a place have the property. -/
theorem docBlockAt (source : List Char) (comments : Array Span) (offset : Nat) :
    (docBlockAt source comments offset).Gives holds := by
  unfold ClassFactory.docBlockAt
  split
  · exact spelled.ofContent _
  · exact emptyBlock

end Ty.Spelled

/-! ## Records that are read -/

/-- What is read names no field of a record twice. -/
theorem Ty.WellKeyed.spelled : Ty.Spelled Ty.WellKeyed where
  simple {type} simple := by
    cases type with
    | array | map | record | union | function | constructor => cases simple
    | _ => constructor
  array := .array
  map := .map
  function _ _ := .function _ _
  noFields := .record (by simp) List.nodup_nil
  insert := Fields.insert_wellKeyed
  join := .join

/-- The result and the type tag of a block name no field of a record twice. -/
structure DocBlock.WellKeyed (block : DocBlock) : Prop where
  returns : ∀ type, block.returns = some type → type.WellKeyed
  typeTag : ∀ tag, block.typeTag = some tag → tag.type.WellKeyed

/-- No record in the documentation in front of a place names a field twice. -/
theorem docBlockAt_wellKeyed (source : List Char) (comments : Array Span) (offset : Nat) :
    (docBlockAt source comments offset).WellKeyed :=
  have given := Ty.WellKeyed.spelled.docBlockAt source comments offset
  ⟨given.returns, given.typeTag⟩

/-! ## Types that validators admit -/

namespace Validator

/-- Making a validator required does not change the type. -/
theorem toType_require (validator : Validator) : validator.require.toType = validator.toType := by
  cases validator <;> rfl

theorem allTypes_eq_map (validators : List Validator) :
    allTypes validators = validators.map toType := by
  induction validators with
  | nil => rfl
  | cons validator rest ih => rw [allTypes, ih, List.map_cons]

theorem shapeTypes_eq_map (fields : List ShapeField) :
    shapeTypes fields = fields.map fieldType := by
  induction fields with
  | nil => rfl
  | cons field rest ih => rw [shapeTypes, ih, List.map_cons]

/-- A later field of a shape takes the place of an earlier one of its name. -/
theorem toType_ofShape {fields : List (String × Validator)}
    (keyed : ∀ field ∈ fields, field.2.toType.WellKeyed) :
    (ofShape fields).toType.WellKeyed := by
  have sound : (Keyed.ofList fields).Sound fun _ validator => validator.toType.WellKeyed :=
    List.foldlRecOn fields _ Keyed.Sound.empty fun _ keeps field mem => keeps.insert (keyed field mem)
  rw [ofShape, toType, shapeTypes_eq_map, List.map_map]
  apply Ty.WellKeyed.record
  · intro field mem
    obtain ⟨entry, listed, rfl⟩ := List.mem_map.mp mem
    exact sound.values entry listed
  · rw [List.map_map]
    exact sound.distinct

mutual
/-- A validator that is read admits values of a type that names no field of a record twice. -/
theorem ofExpr_wellKeyed (options : Options) : (e : Expr) → (ofExpr options e).toType.WellKeyed
  | .paren inner _ => ofExpr_wellKeyed options inner
  | .member owner property _ _ => by
    have ofOwner := ofExpr_wellKeyed options owner
    rw [ofExpr]
    split
    · rw [toType_require]
      exact ofOwner
    · unfold ofMember
      split
      · split
        · exact Ty.WellKeyed.spelled.scalarType _
        · exact .unknown
      · exact .unknown
  | .call callee args _ => by
    rw [ofExpr]
    split
    · exact ofArguments_wellKeyed options _ args
    · exact .unknown
  | .ident _ _ | .this _ | .string _ _ | .number _ _ | .bool _ _ | .null _ | .regex _
  | .template _ _ | .array _ _ | .object _ _ | .function _ _ _ | .arrow _ _ _ _
  | .construct _ _ _ | .unary _ _ _ | .binary _ _ _ _ | .conditional _ _ _ _ | .assign _ _ _
  | .element _ _ _ _ _ | .fragment _ _ | .other _ _ _ => .unknown

theorem ofArguments_wellKeyed (options : Options) (builder : ValidatorBuilder) :
    (args : List Item) → (ofArguments options builder args).toType.WellKeyed
  | [] => .unknown
  | item :: _ => ofArgument_wellKeyed options builder item

theorem ofArgument_wellKeyed (options : Options) (builder : ValidatorBuilder) :
    (item : Item) → (ofArgument options builder item).toType.WellKeyed
  | .value e => by
    have ofItem := ofExpr_wellKeyed options e
    have ofAlternatives := alternatives?_wellKeyed options e
    have ofFields := shapeFields?_wellKeyed options e
    cases builder with
    | arrayOf => exact .array ofItem
    | objectOf => exact .map ofItem
    | instanceOf =>
        change ((e.qualifiedName?.map Validator.instanceOf).getD .unresolved).toType.WellKeyed
        cases e.qualifiedName? with
        | none => exact .unknown
        | some name => exact .named name
    | oneOf =>
        change (((literals? e).map Validator.oneOf).getD .unresolved).toType.WellKeyed
        cases literals? e with
        | none => exact .unknown
        | some values => exact Ty.WellKeyed.spelled.literals values
    | oneOfType =>
        change (((alternatives? options e).map Validator.oneOfType).getD .unresolved).toType.WellKeyed
        cases given : alternatives? options e with
        | none => exact .unknown
        | some validators =>
            change (Ty.join (allTypes validators)).WellKeyed
            apply Ty.WellKeyed.join
            rw [allTypes_eq_map]
            intro type mem
            obtain ⟨validator, listed, rfl⟩ := List.mem_map.mp mem
            exact ofAlternatives validators given validator listed
    | shape =>
        change (((shapeFields? options e).map ofShape).getD .unresolved).toType.WellKeyed
        cases given : shapeFields? options e with
        | none => exact .unknown
        | some fields => exact toType_ofShape (ofFields fields given)
  | .spread _ _ | .hole => .unknown

theorem alternatives?_wellKeyed (options : Options) : (e : Expr) → ∀ validators,
    alternatives? options e = some validators →
      ∀ validator ∈ validators, validator.toType.WellKeyed
  | .paren inner _ => alternatives?_wellKeyed options inner
  | .array items _ => itemValidators?_wellKeyed options items
  | .ident _ _ | .this _ | .string _ _ | .number _ _ | .bool _ _ | .null _ | .regex _
  | .template _ _ | .object _ _ | .function _ _ _ | .arrow _ _ _ _ | .member _ _ _ _
  | .call _ _ _ | .construct _ _ _ | .unary _ _ _ | .binary _ _ _ _ | .conditional _ _ _ _
  | .assign _ _ _ | .element _ _ _ _ _ | .fragment _ _ | .other _ _ _ => fun _ none => by cases none

theorem itemValidators?_wellKeyed (options : Options) : (items : List Item) → ∀ validators,
    itemValidators? options items = some validators →
      ∀ validator ∈ validators, validator.toType.WellKeyed
  | [] => by
    rintro _ ⟨⟩ validator mem
    cases mem
  | item :: rest => by
    have ofItem := itemValidator?_wellKeyed options item
    have ofRest := itemValidators?_wellKeyed options rest
    intro validators read
    rw [itemValidators?] at read
    split at read
    next validator others here later =>
      cases read
      rw [List.forall_mem_cons]
      exact ⟨ofItem validator here, ofRest others later⟩
    next => cases read

theorem itemValidator?_wellKeyed (options : Options) : (item : Item) → ∀ validator,
    itemValidator? options item = some validator → validator.toType.WellKeyed
  | .value e => by
    rintro _ ⟨⟩
    exact ofExpr_wellKeyed options e
  | .spread _ _ | .hole => fun _ none => by cases none

theorem shapeFields?_wellKeyed (options : Options) : (e : Expr) → ∀ fields,
    shapeFields? options e = some fields → ∀ field ∈ fields, field.2.toType.WellKeyed
  | .paren inner _ => shapeFields?_wellKeyed options inner
  | .object properties _ => propertyValidators?_wellKeyed options properties
  | .ident _ _ | .this _ | .string _ _ | .number _ _ | .bool _ _ | .null _ | .regex _
  | .template _ _ | .array _ _ | .function _ _ _ | .arrow _ _ _ _ | .member _ _ _ _
  | .call _ _ _ | .construct _ _ _ | .unary _ _ _ | .binary _ _ _ _ | .conditional _ _ _ _
  | .assign _ _ _ | .element _ _ _ _ _ | .fragment _ _ | .other _ _ _ => fun _ none => by cases none

theorem propertyValidators?_wellKeyed (options : Options) : (properties : List Property) →
    ∀ fields, propertyValidators? options properties = some fields →
      ∀ field ∈ fields, field.2.toType.WellKeyed
  | [] => by
    rintro _ ⟨⟩ field mem
    cases mem
  | property :: rest => by
    have ofProperty := propertyValidator?_wellKeyed options property
    have ofRest := propertyValidators?_wellKeyed options rest
    intro fields read
    rw [propertyValidators?] at read
    split at read
    next field others here later =>
      cases read
      rw [List.forall_mem_cons]
      exact ⟨ofProperty field here, ofRest others later⟩
    next => cases read

theorem propertyValidator?_wellKeyed (options : Options) : (property : Property) → ∀ field,
    propertyValidator? options property = some field → field.2.toType.WellKeyed
  | .entry key value _ => by
    have ofValue := ofExpr_wellKeyed options value
    intro field read
    obtain ⟨name, -, rfl⟩ := Option.map_eq_some_iff.mp read
    exact ofValue
  | .spread _ _ => fun _ none => by cases none
end

end Validator

end ClassFactory
