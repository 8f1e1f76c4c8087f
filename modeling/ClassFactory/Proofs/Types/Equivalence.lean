/-
Module: ClassFactory.Proofs.Types.Equivalence
Purpose: Equal types can stand for one another. Equality leaves open the order in which a record
  names its fields, and where no name occurs twice that order is never seen: the two types fit the
  same targets, and the same values fit them.
Main exports: Ty.Equivalent, assignable_union_iff, Ty.WellKeyed.equivalent
-/
import ClassFactory.Proofs.Component.State
import ClassFactory.Proofs.Correspondence
import ClassFactory.Proofs.Types.Assignable
import Mathlib.Data.List.Perm.Subperm

namespace ClassFactory

/-- Two types that no comparison tells apart. -/
structure Ty.Equivalent (one other : Ty) : Prop where
  value : ∀ target, one.assignable target = other.assignable target
  target : ∀ value : Ty, value.assignable one = value.assignable other

/-- A type is equivalent to itself. -/
theorem Ty.Equivalent.refl (type : Ty) : type.Equivalent type :=
  ⟨fun _ => rfl, fun _ => rfl⟩

section Unions

variable {value one other : Ty} {members ones others : List Ty}

/-- A known value that is no union fits a union just if it fits one of the members. -/
theorem assignable_union_iff (single : value.isUnion = false) (known : value ≠ .unknown) :
    value.assignable (.union members) = true ↔ ∃ member ∈ members, value.assignable member = true := by
  constructor
  · intro fits
    obtain ⟨type, alternative, met⟩ := (assignable_iff_exists single known).mp fits
    cases alternative with
    | itself none => cases none
    | member mem within =>
        exact ⟨_, mem, (assignable_iff_exists single known).mpr ⟨type, within, met⟩⟩
  · intro some
    obtain ⟨member, mem, fits⟩ := some
    exact assignable_of_mem mem fits

/-- Values that are no unions are told apart by targets that are none, if at all. -/
theorem assignable_eq_of_single (single : one.isUnion = false) (known : one ≠ .unknown)
    (otherSingle : other.isUnion = false) (otherKnown : other ≠ .unknown)
    (values : ∀ target, target.isUnion = false → one.assignable target = other.assignable target)
    (target : Ty) : one.assignable target = other.assignable target := by
  rw [Bool.eq_iff_iff, assignable_iff_exists single known,
    assignable_iff_exists otherSingle otherKnown]
  apply exists_congr
  intro type
  apply and_congr_right
  intro alternative
  rw [values type alternative.isUnion]

/-- Types that are no unions are told apart by targets and values that are none, if at all. -/
theorem Ty.equivalent_of_single (single : one.isUnion = false) (known : one ≠ .unknown)
    (otherSingle : other.isUnion = false) (otherKnown : other ≠ .unknown)
    (values : ∀ target, target.isUnion = false → one.assignable target = other.assignable target)
    (targets : ∀ value : Ty, value.isUnion = false →
      value.assignable one = value.assignable other) : one.Equivalent other where
  value := assignable_eq_of_single single known otherSingle otherKnown values
  target := by
    intro value
    induction value using Ty.unionInduction with
    | single value none => exact targets value none
    | union members ih =>
        rw [Bool.eq_iff_iff, union_assignable_iff, union_assignable_iff, or_iff_right known,
          or_iff_right otherKnown]
        exact forall₂_congr fun member mem => by rw [ih member mem]

/-- Unions of equivalent members are equivalent. -/
theorem Ty.Equivalent.union (each : List.Forall₂ Ty.Equivalent ones others) :
    (Ty.union ones).Equivalent (.union others) where
  value := by
    intro target
    rw [Bool.eq_iff_iff, union_assignable_iff, union_assignable_iff]
    apply or_congr_right
    constructor
    · intro all other mem
      obtain ⟨one, within, same⟩ := exists_left_of_forall₂ each mem
      rw [← same.value]
      exact all one within
    · intro all one mem
      obtain ⟨other, within, same⟩ := exists_right_of_forall₂ each mem
      rw [same.value]
      exact all other within
  target := by
    intro value
    induction value using Ty.unionInduction with
    | single value single =>
        by_cases known : value = .unknown
        · rw [known, Ty.assignable, Ty.assignable]
        · rw [Bool.eq_iff_iff, assignable_union_iff single known, assignable_union_iff single known]
          constructor
          · intro some
            obtain ⟨one, mem, fits⟩ := some
            obtain ⟨other, within, same⟩ := exists_right_of_forall₂ each mem
            exact ⟨other, within, (same.target value).symm.trans fits⟩
          · intro some
            obtain ⟨other, mem, fits⟩ := some
            obtain ⟨one, within, same⟩ := exists_left_of_forall₂ each mem
            exact ⟨one, within, (same.target value).trans fits⟩
    | union members ih =>
        rw [Bool.eq_iff_iff, union_assignable_iff, union_assignable_iff]
        simp only [reduceCtorEq, false_or]
        exact forall₂_congr fun member mem => by rw [ih member mem]

end Unions

/-! ## Arrays, maps and functions -/

section Parts

variable {one other : Ty}

/-- Arrays of equivalent items are equivalent. -/
theorem Ty.Equivalent.array (same : one.Equivalent other) :
    (Ty.array one).Equivalent (.array other) := by
  apply Ty.equivalent_of_single rfl (by simp) rfl (by simp)
  · intro target single
    cases target with
    | union members => cases single
    | array expected => exact same.value expected
    | renderable =>
        have child := same.value .renderable
        rw [assignable_renderable, assignable_renderable] at child
        exact child
    | _ => rfl
  · intro value single
    cases value with
    | union members => cases single
    | array item => exact same.target item
    | _ => rfl

/-- Maps of equivalent values are equivalent. -/
theorem Ty.Equivalent.map (same : one.Equivalent other) :
    (Ty.map one).Equivalent (.map other) := by
  apply Ty.equivalent_of_single rfl (by simp) rfl (by simp)
  · intro target single
    cases target with
    | union members => cases single
    | map expected => exact same.value expected
    | _ => rfl
  · intro value single
    cases value with
    | union members => cases single
    | map item => exact same.target item
    | record fields =>
        rw [Bool.eq_iff_iff, record_assignable_map, record_assignable_map]
        exact forall₂_congr fun field _ => by rw [same.target field.type]
    | _ => rfl

/-- Nothing is looked at inside a function type. -/
theorem Ty.Equivalent.function (params others : List Param) (returns result : Ty) :
    (Ty.function params returns).Equivalent (.function others result) := by
  apply Ty.equivalent_of_single rfl (by simp) rfl (by simp)
  · intro target single
    cases target with
    | union members => cases single
    | _ => rfl
  · intro value single
    cases value with
    | union members => cases single
    | _ => rfl

end Parts

/-! ## Records -/

/-- What two records have under one name. -/
structure Field.Equivalent (one other : Field) : Prop where
  type : one.type.Equivalent other.type
  optional : one.optional = other.optional

section Records

variable {ones others fields : List Field}

/-- The two records have equivalent fields under every name, or none. -/
def Fields.Agree (ones others : List Field) : Prop :=
  ∀ name, Option.Rel Field.Equivalent (findField name ones) (findField name others)

/-- A field of the first record has its like in the second one. -/
theorem Fields.Agree.exists_right (agree : Fields.Agree ones others)
    (distinct : (ones.map Field.name).Nodup) {one : Field} (mem : one ∈ ones) :
    ∃ other ∈ others, other.name = one.name ∧ one.Equivalent other := by
  have related := agree one.name
  rw [findField_of_mem distinct mem] at related
  generalize found : findField one.name others = here at related
  cases related with
  | some same => exact ⟨_, (of_findField found).1, (of_findField found).2, same⟩

theorem Fields.Agree.exists_left (agree : Fields.Agree ones others)
    (distinct : (others.map Field.name).Nodup) {other : Field} (mem : other ∈ others) :
    ∃ one ∈ ones, one.name = other.name ∧ one.Equivalent other := by
  have related := agree other.name
  rw [findField_of_mem distinct mem] at related
  generalize found : findField other.name ones = here at related
  cases related with
  | some same => exact ⟨_, (of_findField found).1, (of_findField found).2, same⟩

/-- Records that agree meet the same expectations of a field. -/
theorem Fields.Agree.fieldMeets (agree : Fields.Agree ones others) (name : String) (target : Ty)
    (optional : Bool) :
    ClassFactory.fieldMeets name target optional ones =
      ClassFactory.fieldMeets name target optional others := by
  rw [fieldMeets_eq, fieldMeets_eq]
  have related := agree name
  generalize findField name ones = one at related ⊢
  generalize findField name others = other at related ⊢
  cases related with
  | none => rfl
  | some same => exact same.type.value target

/-- Records that agree are equivalent where none of them names a field twice. -/
theorem Ty.Equivalent.record (agree : Fields.Agree ones others)
    (distinct : (ones.map Field.name).Nodup) (othersDistinct : (others.map Field.name).Nodup) :
    (Ty.record ones).Equivalent (.record others) := by
  apply Ty.equivalent_of_single rfl (by simp) rfl (by simp)
  · intro target single
    cases target with
    | union members => cases single
    | map expected =>
        rw [Bool.eq_iff_iff, record_assignable_map, record_assignable_map]
        constructor
        · intro all other mem
          obtain ⟨one, within, -, same⟩ := agree.exists_left othersDistinct mem
          rw [← same.type.value]
          exact all one within
        · intro all one mem
          obtain ⟨other, within, -, same⟩ := agree.exists_right distinct mem
          rw [same.type.value]
          exact all other within
    | record expected =>
        rw [record_assignable_record, record_assignable_record]
        congr
        funext field
        exact agree.fieldMeets field.name field.type field.optional
    | _ => rfl
  · intro value single
    cases value with
    | union members => cases single
    | record fields =>
        rw [record_assignable_record, record_assignable_record, Bool.eq_iff_iff, List.all_eq_true,
          List.all_eq_true]
        have alike : ∀ {one other : Field}, one.name = other.name → one.Equivalent other →
            fieldMeets one.name one.type one.optional fields =
              fieldMeets other.name other.type other.optional fields := by
          intro one other named same
          rw [fieldMeets_eq, fieldMeets_eq, named, same.optional]
          cases findField other.name fields with
          | none => rfl
          | some given => exact same.type.target given.type
        constructor
        · intro all other mem
          obtain ⟨one, within, named, same⟩ := agree.exists_left othersDistinct mem
          rw [← alike named same]
          exact all one within
        · intro all one mem
          obtain ⟨other, within, named, same⟩ := agree.exists_right distinct mem
          rw [alike named.symm same]
          exact all other within
    | _ => rfl

/-- As many names, all of them among the others, are the same names. -/
theorem Fields.agree_of_length (length : ones.length = others.length)
    (distinct : (ones.map Field.name).Nodup)
    (each : ∀ one ∈ ones, ∃ other, findField one.name others = some other ∧
      one.Equivalent other) : Fields.Agree ones others := by
  have names : (ones.map Field.name).Perm (others.map Field.name) := by
    have subset : ones.map Field.name ⊆ others.map Field.name := by
      intro name listed
      obtain ⟨one, mem, rfl⟩ := List.mem_map.mp listed
      obtain ⟨other, found, -⟩ := each one mem
      rw [← (of_findField found).2]
      exact List.mem_map_of_mem (of_findField found).1
    exact (distinct.subperm subset).perm_of_length_le (by simp [length])
  intro name
  cases found : findField name ones with
  | none =>
      rw [findField_eq_none_iff, names.mem_iff, ← findField_eq_none_iff] at found
      rw [found]
      exact .none
  | some one =>
      obtain ⟨mem, rfl⟩ := of_findField found
      obtain ⟨other, there, same⟩ := each one mem
      rw [there]
      exact .some same

end Records

/-! ## Equal types -/

/-- Equality of types that have no parts is equality. -/
theorem eq_of_same {one other : Ty} (same : one.same other = true) (noArray : ∀ item, one ≠ .array item)
    (noMap : ∀ value, one ≠ .map value) (noRecord : ∀ fields, one ≠ .record fields)
    (noUnion : ∀ members, one ≠ .union members)
    (noFunction : ∀ params returns, one ≠ .function params returns) : one = other := by
  cases one <;> cases other <;> first | rfl | cases same | simp_all [Ty.same]

/-- Members that are equal one by one are equivalent one by one, if each equality gives as much. -/
theorem forall₂_of_sameAll {ones others : List Ty} (same : sameAll ones others = true)
    (keyed : ∀ other ∈ others, other.WellKeyed)
    (each : ∀ one ∈ ones, ∀ {other : Ty}, other.WellKeyed → one.same other = true →
      one.Equivalent other) : List.Forall₂ Ty.Equivalent ones others := by
  induction ones generalizing others with
  | nil =>
      cases others with
      | nil => exact .nil
      | cons => cases same
  | cons one rest ih =>
      cases others with
      | nil => cases same
      | cons other later =>
          rw [sameAll, Bool.and_eq_true] at same
          rw [List.forall_mem_cons] at keyed each
          exact .cons (each.1 keyed.1 same.1) (ih same.2 keyed.2 each.2)

/-- A field of a record has in an equal record one of its name, with an equal type and the same
mark. -/
theorem of_sameFields {ones others : List Field} (same : sameFields ones others = true)
    {one : Field} (mem : one ∈ ones) :
    ∃ other, findField one.name others = some other ∧ one.type.same other.type = true ∧
      one.optional = other.optional := by
  induction ones with
  | nil => cases mem
  | cons first rest ih =>
      rw [sameFields, Bool.and_eq_true] at same
      rcases List.mem_cons.mp mem with rfl | later
      · cases one with
        | mk name type optional =>
            have here := same.1
            rw [sameField] at here
            split at here
            next other found =>
              rw [Bool.and_eq_true, decide_eq_true_eq] at here
              exact ⟨other, found, here⟩
            next => cases here
      · exact ih same.2 later

/-- Equal types whose records name no field twice are equivalent. -/
theorem Ty.WellKeyed.equivalent {one other : Ty} (keyed : one.WellKeyed) (otherKeyed : other.WellKeyed)
    (same : one.same other = true) : one.Equivalent other := by
  induction keyed generalizing other with
  | array _ ih =>
      cases otherKeyed with
      | array ofItem => exact (ih ofItem same).array
      | _ => cases same
  | map _ ih =>
      cases otherKeyed with
      | map ofValue => exact (ih ofValue same).map
      | _ => cases same
  | record _ distinct ih =>
      cases otherKeyed with
      | record types othersDistinct =>
          rw [Ty.same, Bool.and_eq_true, decide_eq_true_eq] at same
          apply Ty.Equivalent.record _ distinct othersDistinct
          apply Fields.agree_of_length same.1 distinct
          intro field mem
          obtain ⟨other, found, ofType, optional⟩ := of_sameFields same.2 mem
          have keyed := types other (of_findField found).1
          exact ⟨other, found, ih field mem keyed ofType, optional⟩
      | _ => cases same
  | union _ ih =>
      cases otherKeyed with
      | union types => exact .union (forall₂_of_sameAll same types fun member mem _ => ih member mem)
      | _ => cases same
  | function params returns =>
      cases otherKeyed with
      | function others result => exact .function params others returns result
      | _ => cases same
  | _ =>
      rw [eq_of_same same (by simp) (by simp) (by simp) (by simp) (by simp)]
      exact .refl other

end ClassFactory
