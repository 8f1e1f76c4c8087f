/-
Module: ClassFactory.Proofs.Types.Degradation
Purpose: Losing type information makes no value unfit. Where parts of a value's type, or of the type
  that is expected, are not known, nothing is checked against them, and the rest is compared as
  before: what fitted still fits, however deep in either type the parts were.
Main exports: Ty.Degrades, Ty.Sturdy, assignable_of_degrades
-/
import ClassFactory.Proofs.Correspondence
import ClassFactory.Proofs.Types.Assignable

namespace ClassFactory

/-! ## Types with parts left out -/

mutual
/-- The second type is the first one with any number of its parts, or the whole of it, replaced by the
unconstrained type. -/
inductive Ty.Degrades : Ty → Ty → Prop where
  | lost (type : Ty) : Ty.Degrades type .unknown
  | kept (type : Ty) : Ty.Degrades type type
  | array {item vague : Ty} (ofItem : Ty.Degrades item vague) :
      Ty.Degrades (.array item) (.array vague)
  | map {value vague : Ty} (ofValue : Ty.Degrades value vague) :
      Ty.Degrades (.map value) (.map vague)
  | record {fields vague : List Field} (each : List.Forall₂ Field.Degrades fields vague) :
      Ty.Degrades (.record fields) (.record vague)
  | union {members vague : List Ty} (each : List.Forall₂ Ty.Degrades members vague) :
      Ty.Degrades (.union members) (.union vague)
  | function {params vague : List Param} {returns result : Ty}
      (each : List.Forall₂ Param.Degrades params vague) (ofReturns : Ty.Degrades returns result) :
      Ty.Degrades (.function params returns) (.function vague result)

/-- The same for the type of a field. -/
inductive Field.Degrades : Field → Field → Prop where
  | mk {type vague : Ty} (ofType : Ty.Degrades type vague) (name : String) (optional : Bool) :
      Field.Degrades (.mk name type optional) (.mk name vague optional)

/-- The same for the type of a parameter. -/
inductive Param.Degrades : Param → Param → Prop where
  | mk {type vague : Ty} (ofType : Ty.Degrades type vague) (name : String) (optional rest : Bool) :
      Param.Degrades (.mk name type optional rest) (.mk name vague optional rest)
end

section Parts

variable {fields vagueFields : List Field} {members : List Ty} {item value vague : Ty}
  {name : String}

/-- A field keeps its name however vague its type becomes. -/
theorem Field.Degrades.name_eq {field other : Field} (h : field.Degrades other) :
    other.name = field.name := by
  cases h with
  | mk => rfl

theorem Field.Degrades.optional_eq {field other : Field} (h : field.Degrades other) :
    other.optional = field.optional := by
  cases h with
  | mk => rfl

/-- The type of a field is what becomes vague. -/
theorem Field.Degrades.type {field other : Field} (h : field.Degrades other) :
    field.type.Degrades other.type := by
  cases h with
  | mk ofType => exact ofType

theorem Field.degrades_kept (fields : List Field) : List.Forall₂ Field.Degrades fields fields := by
  rw [List.forall₂_same]
  intro field _
  cases field with
  | mk name type optional => exact .mk (.kept type) name optional

/-- Under every name stands a field of the same kind, if any, whose type may be vaguer. -/
theorem findField_of_degrades (each : List.Forall₂ Field.Degrades fields vagueFields)
    (name : String) :
    Option.Rel Field.Degrades (findField name fields) (findField name vagueFields) := by
  induction each with
  | nil => exact .none
  | cons first _ ih =>
      rw [findField, findField, first.name_eq]
      split
      · exact .some first
      · exact ih

theorem Ty.Degrades.of_array (h : (Ty.array item).Degrades vague) (known : vague ≠ .unknown) :
    ∃ other, vague = .array other ∧ item.Degrades other := by
  cases h with
  | lost => exact absurd rfl known
  | kept => exact ⟨item, rfl, .kept item⟩
  | array ofItem => exact ⟨_, rfl, ofItem⟩

theorem Ty.Degrades.of_map (h : (Ty.map value).Degrades vague) (known : vague ≠ .unknown) :
    ∃ other, vague = .map other ∧ value.Degrades other := by
  cases h with
  | lost => exact absurd rfl known
  | kept => exact ⟨value, rfl, .kept value⟩
  | map ofValue => exact ⟨_, rfl, ofValue⟩

theorem Ty.Degrades.of_record (h : (Ty.record fields).Degrades vague) (known : vague ≠ .unknown) :
    ∃ others, vague = .record others ∧ List.Forall₂ Field.Degrades fields others := by
  cases h with
  | lost => exact absurd rfl known
  | kept => exact ⟨fields, rfl, Field.degrades_kept fields⟩
  | record each => exact ⟨_, rfl, each⟩

theorem Ty.Degrades.of_union (h : (Ty.union members).Degrades vague) (known : vague ≠ .unknown) :
    ∃ others, vague = .union others ∧ List.Forall₂ Ty.Degrades members others := by
  cases h with
  | lost => exact absurd rfl known
  | kept => exact ⟨members, rfl, List.forall₂_same.mpr fun member _ => .kept member⟩
  | union each => exact ⟨_, rfl, each⟩

end Parts

/-! ## Alternatives of a vaguer target -/

/-- What is no union does not become one. -/
theorem Ty.Degrades.isUnion {type vague : Ty} (h : type.Degrades vague)
    (single : type.isUnion = false) : vague.isUnion = false := by
  cases h with
  | union => cases single
  | kept => exact single
  | _ => rfl

/-- What is still known of a type was known of it before. -/
theorem Ty.Degrades.ne_unknown {type vague : Ty} (h : type.Degrades vague)
    (known : vague ≠ .unknown) : type ≠ .unknown := by
  intro unknown
  subst unknown
  cases h with
  | lost => exact known rfl
  | kept => exact known rfl

/-- Every alternative of a target has a vaguer one in the vaguer target: if a union around it was
lost, that is the unconstrained type. -/
theorem Ty.Alternative.of_degrades {type target vague : Ty} (alternative : type.Alternative target)
    (h : target.Degrades vague) : ∃ other, other.Alternative vague ∧ type.Degrades other := by
  induction alternative generalizing vague with
  | itself single => exact ⟨vague, .itself (h.isUnion single), h⟩
  | member mem _ ih =>
      by_cases unknown : vague = .unknown
      · subst unknown
        exact ⟨.unknown, .itself rfl, .lost _⟩
      · obtain ⟨others, rfl, each⟩ := h.of_union unknown
        obtain ⟨other, otherMem, degraded⟩ := exists_right_of_forall₂ each mem
        obtain ⟨found, within, vaguer⟩ := ih degraded
        exact ⟨found, .member otherMem within, vaguer⟩

/-- What fits goes on to fit when parts of either type are lost. -/
def Ty.Sturdy (value : Ty) : Prop :=
  ∀ {vague target other : Ty}, value.Degrades vague → target.Degrades other →
    value.assignable target = true → vague.assignable other = true

/-- For a value that is no union it is enough to look at targets that are none, with neither of the
two lost as a whole. -/
theorem Ty.sturdy_of_single {value : Ty} (single : value.isUnion = false)
    (each : ∀ {vague target other : Ty}, vague ≠ .unknown → target.isUnion = false →
      other ≠ .unknown → value.Degrades vague → target.Degrades other →
        value.assignable target = true → vague.assignable other = true) : value.Sturdy := by
  intro vague target other ofValue ofTarget fits
  by_cases lost : vague = .unknown
  · rw [lost, Ty.assignable]
  · have known := ofValue.ne_unknown lost
    obtain ⟨type, alternative, met⟩ := (assignable_iff_exists single known).mp fits
    obtain ⟨found, within, vaguer⟩ := alternative.of_degrades ofTarget
    apply (assignable_iff_exists (ofValue.isUnion single) lost).mpr
    by_cases unknown : found = .unknown
    · subst unknown
      exact ⟨.unknown, within, Ty.assignable_unknown vague⟩
    · exact ⟨found, within, each lost alternative.isUnion unknown ofValue vaguer met⟩

/-! ## Values that are no unions -/

section Singles

variable {item value target : Ty} {fields : List Field}

/-- What a list of items fits. -/
theorem assignable_of_array (single : target.isUnion = false)
    (fits : (Ty.array item).assignable target = true) :
    target = .unknown ∨ target = .anyObject ∨
      (target = .renderable ∧ item.assignable .renderable = true) ∨
      ∃ expected, target = .array expected ∧ item.assignable expected = true := by
  cases target with
  | unknown => exact .inl rfl
  | anyObject => exact .inr (.inl rfl)
  | renderable =>
      rw [assignable_renderable] at fits
      exact .inr (.inr (.inl ⟨rfl, (assignable_renderable item).trans fits⟩))
  | array expected => exact .inr (.inr (.inr ⟨expected, rfl, fits⟩))
  | union members => cases single
  | _ => cases fits

/-- What a map fits. -/
theorem assignable_of_map (single : target.isUnion = false)
    (fits : (Ty.map value).assignable target = true) :
    target = .unknown ∨ target = .anyObject ∨
      ∃ expected, target = .map expected ∧ value.assignable expected = true := by
  cases target with
  | unknown => exact .inl rfl
  | anyObject => exact .inr (.inl rfl)
  | map expected => exact .inr (.inr ⟨expected, rfl, fits⟩)
  | union members => cases single
  | _ => cases fits

/-- What a record fits. -/
theorem assignable_of_record (single : target.isUnion = false)
    (fits : (Ty.record fields).assignable target = true) :
    target = .unknown ∨ target = .anyObject ∨
      (∃ expected, target = .map expected ∧
        ∀ field ∈ fields, field.type.assignable expected = true) ∨
      ∃ expected, target = .record expected ∧
        ∀ field ∈ expected, fieldMeets field.name field.type field.optional fields = true := by
  cases target with
  | unknown => exact .inl rfl
  | anyObject => exact .inr (.inl rfl)
  | map expected => exact .inr (.inr (.inl ⟨expected, rfl, record_assignable_map.mp fits⟩))
  | record expected =>
      rw [record_assignable_record, List.all_eq_true] at fits
      exact .inr (.inr (.inr ⟨expected, rfl, fits⟩))
  | union members => cases single
  | _ => cases fits

end Singles

/-! ## Fitting after a loss -/

/-- Values without parts see of a target only what kind of type it is. -/
theorem meets_eq_of_degrades {value target other : Ty} (single : target.isUnion = false)
    (ofTarget : target.Degrades other) (known : other ≠ .unknown) :
    value.meets other = value.meets target := by
  cases ofTarget with
  | lost => exact absurd rfl known
  | kept => rfl
  | union => cases single
  | array => cases value <;> rfl
  | map => cases value <;> rfl
  | record => cases value <;> rfl
  | function => cases value <;> rfl

/-- What a value without parts meets, it still meets when parts of its type are lost, which can
only stand inside a function type. -/
theorem meets_of_vaguer {value vague : Ty} (plain : value.isPlain = true)
    (ofValue : value.Degrades vague) (known : vague ≠ .unknown) :
    vague.isPlain = true ∧ ∀ target, vague.meets target = value.meets target := by
  cases ofValue with
  | lost => exact absurd rfl known
  | kept => exact ⟨plain, fun _ => rfl⟩
  | function => exact ⟨rfl, fun target => by cases target <;> rfl⟩
  | _ => cases plain

/-- A value without parts is compared with a target that is no union at one look. -/
theorem assignable_of_plain {value target : Ty} (plain : value.isPlain = true)
    (single : target.isUnion = false) : value.assignable target = value.meets target := by
  rw [← anyAlternative_of_single (p := value.meets) single]
  cases value with
  | unknown => rw [anyAlternative_of_single single]; rfl
  | array => cases plain
  | map => cases plain
  | record => cases plain
  | union => cases plain
  | _ => rfl

theorem Ty.Degrades.of_anyObject {vague : Ty} (h : Ty.anyObject.Degrades vague)
    (known : vague ≠ .unknown) : vague = .anyObject := by
  cases h with
  | lost => exact absurd rfl known
  | kept => rfl

/-- Without parts nothing is lost, so a plain value is sturdy. -/
theorem Ty.sturdy_plain {value : Ty} (plain : value.isPlain = true) : value.Sturdy := by
  apply Ty.sturdy_of_single (by cases value <;> first | rfl | cases plain)
  intro vague target other known single sought ofValue ofTarget fits
  obtain ⟨vaguePlain, meets⟩ := meets_of_vaguer plain ofValue known
  rw [assignable_of_plain plain single] at fits
  rw [assignable_of_plain vaguePlain (ofTarget.isUnion single), meets,
    meets_eq_of_degrades single ofTarget sought]
  exact fits

/-- Arrays are sturdy if their items are: a target that is an array gives up at most its items'
type. -/
theorem Ty.Sturdy.array {item : Ty} (ofItem : item.Sturdy) : (Ty.array item).Sturdy := by
  apply Ty.sturdy_of_single rfl
  intro vague target other known single sought ofValue ofTarget fits
  obtain ⟨vagueItem, rfl, vaguer⟩ := ofValue.of_array known
  rcases assignable_of_array single fits with rfl | rfl | ⟨rfl, child⟩ | ⟨expected, rfl, each⟩
  · exact absurd rfl (ofTarget.ne_unknown sought)
  · rw [ofTarget.of_anyObject sought]
    rfl
  · have kept := ofItem vaguer ofTarget child
    cases ofTarget with
    | lost => exact absurd rfl sought
    | kept =>
        rw [assignable_renderable] at kept ⊢
        exact kept
  · obtain ⟨vagueExpected, rfl, ofExpected⟩ := ofTarget.of_array sought
    have kept := ofItem vaguer ofExpected each
    exact kept

/-- The same for maps and the type of their values. -/
theorem Ty.Sturdy.map {value : Ty} (ofValues : value.Sturdy) : (Ty.map value).Sturdy := by
  apply Ty.sturdy_of_single rfl
  intro vague target other known single sought ofValue ofTarget fits
  obtain ⟨vagueValue, rfl, vaguer⟩ := ofValue.of_map known
  rcases assignable_of_map single fits with rfl | rfl | ⟨expected, rfl, each⟩
  · exact absurd rfl (ofTarget.ne_unknown sought)
  · rw [ofTarget.of_anyObject sought]
    rfl
  · obtain ⟨vagueExpected, rfl, ofExpected⟩ := ofTarget.of_map sought
    have kept := ofValues vaguer ofExpected each
    exact kept

/-- A field that met what a record asks of its name goes on to do so. -/
theorem fieldMeets_of_degrades {fields vagueFields : List Field} {expected vague : Field}
    (types : ∀ field ∈ fields, field.type.Sturdy)
    (each : List.Forall₂ Field.Degrades fields vagueFields) (ofExpected : expected.Degrades vague)
    (meets : fieldMeets expected.name expected.type expected.optional fields = true) :
    fieldMeets vague.name vague.type vague.optional vagueFields = true := by
  rw [fieldMeets_eq] at meets ⊢
  rw [ofExpected.name_eq, ofExpected.optional_eq]
  have corresponds := findField_of_degrades each expected.name
  generalize findField expected.name vagueFields = found at corresponds ⊢
  cases given : findField expected.name fields with
  | none =>
      rw [given] at meets corresponds
      cases corresponds with
      | none => exact meets
  | some field =>
      rw [given] at meets corresponds
      cases corresponds with
      | some ofField =>
          exact types field (of_findField given).1 ofField.type ofExpected.type meets

/-- A record is sturdy if its fields are, since what was expected of a field loses no name and no
mark. -/
theorem Ty.Sturdy.record {fields : List Field} (types : ∀ field ∈ fields, field.type.Sturdy) :
    (Ty.record fields).Sturdy := by
  apply Ty.sturdy_of_single rfl
  intro vague target other known single sought ofValue ofTarget fits
  obtain ⟨vagueFields, rfl, ofFields⟩ := ofValue.of_record known
  rcases assignable_of_record single fits with rfl | rfl | ⟨expected, rfl, all⟩ | ⟨expected, rfl, all⟩
  · exact absurd rfl (ofTarget.ne_unknown sought)
  · rw [ofTarget.of_anyObject sought]
    rfl
  · obtain ⟨vagueExpected, rfl, ofExpected⟩ := ofTarget.of_map sought
    rw [record_assignable_map]
    intro vagueField mem
    obtain ⟨field, within, ofField⟩ := exists_left_of_forall₂ ofFields mem
    exact types field within ofField.type ofExpected (all field within)
  · obtain ⟨vagueExpected, rfl, ofExpected⟩ := ofTarget.of_record sought
    rw [record_assignable_record, List.all_eq_true]
    intro vagueField mem
    obtain ⟨field, within, ofField⟩ := exists_left_of_forall₂ ofExpected mem
    exact fieldMeets_of_degrades types ofFields ofField (all field within)

/-- A union is sturdy if its members are. -/
theorem Ty.Sturdy.union {members : List Ty} (types : ∀ member ∈ members, member.Sturdy) :
    (Ty.union members).Sturdy := by
  intro vague target other ofValue ofTarget fits
  by_cases lost : vague = .unknown
  · rw [lost, Ty.assignable]
  · obtain ⟨vagueMembers, rfl, each⟩ := ofValue.of_union lost
    rw [union_assignable_iff] at fits ⊢
    rcases fits with rfl | all
    · left
      by_contra known
      exact ofTarget.ne_unknown known rfl
    · right
      intro vagueMember mem
      obtain ⟨member, within, ofMember⟩ := exists_left_of_forall₂ each mem
      exact types member within ofMember ofTarget (all member within)

/-- Every value is sturdy, by induction on the parts that are looked at. -/
theorem Ty.sturdy (value : Ty) : value.Sturdy := by
  induction value using Ty.partsInduction with
  | plain value plain => exact Ty.sturdy_plain plain
  | array item ih => exact ih.array
  | map value ih => exact ih.map
  | record fields ih => exact Ty.Sturdy.record ih
  | union members ih => exact Ty.Sturdy.union ih

/-- Losing type information creates no error: what fits still fits when any parts of its type and of
the type it is to fit, at any depth, are replaced by the unconstrained type. -/
theorem assignable_of_degrades (value vague target other : Ty) (ofValue : value.Degrades vague)
    (ofTarget : target.Degrades other) (fits : value.assignable target = true) :
    vague.assignable other = true :=
  value.sturdy ofValue ofTarget fits

/-- Rows of texts or nothing, with a way to draw one, where children or the fields of a table are
expected: one alternative of the rows, what is handed to the drawing and one of the expected
alternatives are no longer known. -/
theorem assignable_of_degrades_rows :
    let draw (of : Ty) : Field := .mk "draw" (.function [.mk "row" of false false] .renderable) true
    let value : Ty := .record [.mk "rows" (.array (.union [.string, .null])) false, draw .string]
    let vague : Ty := .record [.mk "rows" (.array (.union [.unknown, .null])) false, draw .unknown]
    let target : Ty :=
      .union [.map .number, .record [.mk "rows" (.array .renderable) false, draw .number]]
    let other : Ty :=
      .union [.map .unknown, .record [.mk "rows" (.array .renderable) false, draw .number]]
    (value.Degrades vague ∧ target.Degrades other ∧ value.assignable target = true) ∧
      vague.assignable other = true := by
  intro draw value vague target other
  have alternatives : List.Forall₂ Ty.Degrades [.string, .null] [.unknown, .null] :=
    .cons (.lost _) (.cons (.kept _) .nil)
  have drawn : (draw .string).Degrades (draw .unknown) :=
    .mk (.function (.cons (.mk (.lost _) "row" false false) .nil) (.kept _)) "draw" true
  have ofValue : value.Degrades vague :=
    .record (.cons (.mk (.array (.union alternatives)) "rows" false) (.cons drawn .nil))
  have ofTarget : target.Degrades other :=
    .union (.cons (.map (.lost _)) (.cons (.kept _) .nil))
  have fits : value.assignable target = true := by decide
  exact ⟨⟨ofValue, ofTarget, fits⟩, assignable_of_degrades _ _ _ _ ofValue ofTarget fits⟩

end ClassFactory
