/-
Module: ClassFactory.Proofs.Types.Absence
Purpose: Fields that may be absent. Reading such a field adds `undefined` to its type, and so does
  printing it; comparing records looks at its type alone. So a record fits where the field is
  required as soon as the values that the field may have fit, whether or not its absence does.
Main exports: Ty.unmarked, unmarked_assignable, Field.seen, memberOfValue_record,
  optional_field_accepted_iff
-/
import ClassFactory.Proofs.Types.Joins
import ClassFactory.Usage.Infer

namespace ClassFactory

/-! ## Marks of absence -/

mutual
/-- The type with no field marked as one that may be absent, at any depth outside of function
types. -/
def Ty.unmarked : Ty → Ty
  | .array item => .array item.unmarked
  | .map value => .map value.unmarked
  | .record fields => .record (unmarkedFields fields)
  | .union members => .union (unmarkedAll members)
  | type => type
termination_by structural type => type

/-- Each type without marks. -/
def unmarkedAll : List Ty → List Ty
  | [] => []
  | type :: rest => type.unmarked :: unmarkedAll rest
termination_by structural types => types

/-- A field without its mark, and with none inside its type. -/
def unmarkedField : Field → Field
  | .mk name type _ => .mk name type.unmarked false
termination_by structural field => field

/-- Each field without marks. -/
def unmarkedFields : List Field → List Field
  | [] => []
  | field :: rest => unmarkedField field :: unmarkedFields rest
termination_by structural fields => fields
end

section Unmarked

variable {fields : List Field} {members : List Ty} {target : Ty}

theorem unmarkedAll_eq_map (types : List Ty) : unmarkedAll types = types.map Ty.unmarked := by
  induction types with
  | nil => rfl
  | cons type rest ih => rw [unmarkedAll, ih, List.map_cons]

theorem unmarkedFields_eq_map (fields : List Field) :
    unmarkedFields fields = fields.map unmarkedField := by
  induction fields with
  | nil => rfl
  | cons field rest ih => rw [unmarkedFields, ih, List.map_cons]

theorem unmarkedField_name (field : Field) : (unmarkedField field).name = field.name := by
  cases field with
  | mk => rfl

theorem unmarkedField_type (field : Field) : (unmarkedField field).type = field.type.unmarked := by
  cases field with
  | mk => rfl

/-- A type whose parts are not looked at carries no marks to take off. -/
theorem unmarked_of_isPlain {type : Ty} (plain : type.isPlain = true) : type.unmarked = type := by
  cases type with
  | array => cases plain
  | map => cases plain
  | record => cases plain
  | union => cases plain
  | _ => rfl

/-- A field is found among the unmarked fields just where it was found before. -/
theorem findField_unmarkedFields (name : String) (fields : List Field) :
    findField name (unmarkedFields fields) = (findField name fields).map unmarkedField := by
  induction fields with
  | nil => rfl
  | cons field rest ih =>
      rw [unmarkedFields, findField, findField, unmarkedField_name, ih]
      split
      · rfl
      · rfl

/-- A record without marks meets what is asked of a name just as the record with them does. -/
theorem fieldMeets_unmarkedFields
    (types : ∀ field ∈ fields, ∀ target,
      field.type.unmarked.assignable target = field.type.assignable target)
    (name : String) (target : Ty) (optional : Bool) :
    fieldMeets name target optional (unmarkedFields fields) =
      fieldMeets name target optional fields := by
  rw [fieldMeets_eq, fieldMeets_eq, findField_unmarkedFields]
  cases found : findField name fields with
  | none => rfl
  | some field =>
      rw [Option.map_some, Option.map_some, Option.map_some, Option.getD_some, Option.getD_some,
        unmarkedField_type]
      exact types field (of_findField found).1 target

/-- Whether fields of a value may be absent makes no difference to where it fits. -/
theorem unmarked_assignable (type target : Ty) :
    type.unmarked.assignable target = type.assignable target := by
  induction type using Ty.partsInduction generalizing target with
  | plain type plain => rw [unmarked_of_isPlain plain]
  | array item ih =>
      apply assignable_eq_of_single rfl (by simp [Ty.unmarked]) rfl (by simp)
      intro target single
      cases target with
      | union members => cases single
      | array expected => exact ih expected
      | renderable =>
          have child := ih .renderable
          rw [assignable_renderable, assignable_renderable] at child
          exact child
      | _ => rfl
  | map value ih =>
      apply assignable_eq_of_single rfl (by simp [Ty.unmarked]) rfl (by simp)
      intro target single
      cases target with
      | union members => cases single
      | map expected => exact ih expected
      | _ => rfl
  | record fields ih =>
      apply assignable_eq_of_single rfl (by simp [Ty.unmarked]) rfl (by simp)
      intro target single
      rw [Ty.unmarked]
      cases target with
      | union members => cases single
      | map expected =>
          rw [Bool.eq_iff_iff, record_assignable_map, record_assignable_map, unmarkedFields_eq_map,
            List.forall_mem_map]
          exact forall₂_congr fun field mem => by rw [unmarkedField_type, ih field mem]
      | record expected =>
          rw [record_assignable_record, record_assignable_record]
          congr
          funext field
          exact fieldMeets_unmarkedFields ih field.name field.type field.optional
      | _ => rfl
  | union members ih =>
      rw [Ty.unmarked, Bool.eq_iff_iff, union_assignable_iff, union_assignable_iff,
        unmarkedAll_eq_map, List.forall_mem_map]
      exact or_congr_right (forall₂_congr fun member mem => by rw [ih member mem])

end Unmarked

/-! ## Fields as they are read -/

/-- The type that reading a field gives. -/
def Field.seen (field : Field) : Ty :=
  if field.optional then field.type.orUndefined else field.type

/-- Reading a field of a record gives the type that is seen of the field. -/
theorem memberOfValue_record {fields : List Field} {name : String} {field : Field}
    (found : findField name fields = some field) :
    memberOfValue (.record fields) name = field.seen := by
  simp only [memberOfValue, Ty.nonNullish, found]
  rfl

/-- Where the absence of a field counts and where it does not. Comparing looks at no mark of a value.
That a record with such a field is accepted where the field is required therefore tells that
`undefined` fits the required type only where the field's own type would not fit otherwise. What is
read of the field fits a type just if both its own type and `undefined` do. -/
theorem optional_field_accepted_iff (value target : Ty) (name : String) (type expected : Ty) :
    value.unmarked.assignable target = value.assignable target ∧
    ((∀ fields others : List Field, findField name fields = some (.mk name type true) →
        findField name others = some (.mk name expected false) →
        (Ty.record fields).assignable (.record others) = true →
          Ty.undefined.assignable expected = true) ↔
      (type.assignable expected = true → Ty.undefined.assignable expected = true)) ∧
    (type.WellKeyed → type ≠ .unknown →
      ∀ fields : List Field, findField name fields = some (.mk name type true) →
        ((memberOfValue (.record fields) name).assignable expected = true ↔
          type.assignable expected = true ∧ Ty.undefined.assignable expected = true)) := by
  refine ⟨unmarked_assignable value target, ?_, ?_⟩
  · constructor
    · intro holds fits
      apply holds [.mk name type true] [.mk name expected false] (if_pos rfl) (if_pos rfl)
      rw [record_assignable_record, List.all_cons, List.all_nil, Bool.and_true, fieldMeets]
      exact (if_pos rfl).trans fits
    · intro enough fields others given required accepted
      apply enough
      rw [record_assignable_record, List.all_eq_true] at accepted
      have meets := accepted _ (of_findField required).1
      rw [fieldMeets_eq] at meets
      simp only [Field.name, given] at meets
      exact meets
  · intro keyed known fields found
    rw [memberOfValue_record found]
    exact orUndefined_assignable_iff keyed known

/-- A count that may be absent fits where a count is required, although `undefined` is no count and
what is read of it may not stand there. -/
theorem optional_field_accepted_iff_count :
    let held : List Field := [.mk "label" .string false, .mk "count" .number true]
    let required : List Field := [.mk "count" .number false]
    ((Ty.record held).unmarked.assignable (.record required) = true ∧
      (Ty.record held).assignable (.record required) = true) ∧
    (¬ ∀ fields others : List Field, findField "count" fields = some (.mk "count" .number true) →
      findField "count" others = some (.mk "count" .number false) →
      (Ty.record fields).assignable (.record others) = true →
        Ty.undefined.assignable .number = true) ∧
    (Ty.number.WellKeyed ∧ Ty.number ≠ .unknown ∧
      findField "count" held = some (.mk "count" .number true)) ∧
    (memberOfValue (.record held) "count").assignable .number = false := by
  intro held required
  obtain ⟨marks, exactly, reads⟩ :=
    optional_field_accepted_iff (.record held) (.record required) "count" .number .number
  have accepted : (Ty.record held).assignable (.record required) = true := by decide
  have found : findField "count" held = some (.mk "count" .number true) := rfl
  have keyed : Ty.number.WellKeyed := .primitive .number
  have misfit : Ty.undefined.assignable .number = false := rfl
  have seen := reads keyed (by simp) held found
  refine ⟨⟨marks.trans accepted, accepted⟩, ?_, ⟨keyed, by simp, found⟩, ?_⟩
  · rw [exactly]
    intro fits
    rw [misfit] at fits
    exact absurd (fits rfl) Bool.false_ne_true
  · rw [Bool.eq_false_iff, ne_eq, seen, misfit]
    intro both
    exact absurd both.2 Bool.false_ne_true

end ClassFactory
