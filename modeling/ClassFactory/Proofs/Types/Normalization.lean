/-
Module: ClassFactory.Proofs.Types.Normalization
Purpose: Bringing a union into normal form keeps what it means. A join accepts what the plain union of
  its types accepts, it fits where all of them fit, and types may be joined in groups or all at once.
  The last rests on equality of types being transitive: a member left out in one group is equal to one
  that is kept, and so is left out of the whole as well.
Main exports: Ty.same_trans, foldl_addMember_foldl, Ty.Flat, assignable_join_eq, join_join,
  join_keeps_meaning
-/
import ClassFactory.Proofs.Types.Joins
import Mathlib.Data.List.Induction

namespace ClassFactory

/-! ## Equality in a row -/

mutual
/-- Types that are equal to equal types are equal, whatever the order of their fields. -/
theorem Ty.same_trans : (one : Ty) → ∀ ⦃other last : Ty⦄, one.same other = true →
    other.same last = true → one.same last = true
  | .array item => by
    intro other last first second
    cases other with
    | array other =>
        cases last with
        | array last => exact Ty.same_trans item first second
        | _ => cases second
    | _ => cases first
  | .map value => by
    intro other last first second
    cases other with
    | map other =>
        cases last with
        | map last => exact Ty.same_trans value first second
        | _ => cases second
    | _ => cases first
  | .record fields => by
    intro other last first second
    cases other with
    | record others =>
        cases last with
        | record lasts =>
            rw [Ty.same, Bool.and_eq_true, decide_eq_true_eq] at first second ⊢
            exact ⟨first.1.trans second.1, sameFields_trans fields first.2 second.2⟩
        | _ => cases second
    | _ => cases first
  | .union members => by
    intro other last first second
    cases other with
    | union others =>
        cases last with
        | union lasts => exact sameAll_trans members first second
        | _ => cases second
    | _ => cases first
  | .function params returns => by
    intro other last first second
    cases other with
    | function others result =>
        cases last with
        | function lasts final =>
            rw [Ty.same, Bool.and_eq_true] at first second ⊢
            exact ⟨sameParams_trans params first.1 second.1,
              Ty.same_trans returns first.2 second.2⟩
        | _ => cases second
    | _ => cases first
  | .unknown | .primitive _ | .literal _ | .null | .undefined | .anyFunction | .anyObject | .named _
  | .constructor _ | .element _ | .renderable => by
    intro other last first second
    rw [eq_of_same first (by simp) (by simp) (by simp) (by simp) (by simp)]
    exact second

theorem sameAll_trans : (ones : List Ty) → ∀ ⦃others lasts : List Ty⦄,
    sameAll ones others = true → sameAll others lasts = true → sameAll ones lasts = true
  | [] => by
    intro others lasts first second
    cases others with
    | nil => exact second
    | cons => cases first
  | one :: rest => by
    intro others lasts first second
    cases others with
    | nil => cases first
    | cons other later =>
        cases lasts with
        | nil => cases second
        | cons last others =>
            rw [sameAll, Bool.and_eq_true] at first second ⊢
            exact ⟨Ty.same_trans one first.1 second.1, sameAll_trans rest first.2 second.2⟩

theorem sameField_trans : (field : Field) → ∀ ⦃others lasts : List Field⦄,
    sameField field others = true → sameFields others lasts = true → sameField field lasts = true
  | .mk name type optional => by
    intro others lasts first second
    rw [sameField] at first ⊢
    split at first
    next other found =>
      obtain ⟨mem, named⟩ := of_findField found
      obtain ⟨last, there, ofType, alike⟩ := of_sameFields second mem
      rw [Bool.and_eq_true, decide_eq_true_eq] at first
      rw [← named, there]
      simp only [Bool.and_eq_true, decide_eq_true_eq]
      exact ⟨Ty.same_trans type first.1 ofType, first.2.trans alike⟩
    next => cases first

theorem sameFields_trans : (fields : List Field) → ∀ ⦃others lasts : List Field⦄,
    sameFields fields others = true → sameFields others lasts = true →
      sameFields fields lasts = true
  | [] => fun _ _ _ _ => rfl
  | field :: rest => by
    intro others lasts first second
    rw [sameFields, Bool.and_eq_true] at first ⊢
    exact ⟨sameField_trans field first.1 second, sameFields_trans rest first.2 second⟩

theorem sameParam_trans : (param : Param) → ∀ ⦃other last : Param⦄,
    sameParam param other = true → sameParam other last = true → sameParam param last = true
  | .mk name type optional rest => by
    rintro ⟨_, other, _, _⟩ ⟨_, last, _, _⟩ first second
    simp only [sameParam, Bool.and_eq_true, decide_eq_true_eq] at first second ⊢
    obtain ⟨⟨⟨rfl, ofType⟩, rfl⟩, rfl⟩ := first
    exact ⟨⟨⟨second.1.1.1, Ty.same_trans type ofType second.1.1.2⟩, second.1.2⟩, second.2⟩

theorem sameParams_trans : (params : List Param) → ∀ ⦃others lasts : List Param⦄,
    sameParams params others = true → sameParams others lasts = true →
      sameParams params lasts = true
  | [] => by
    intro others lasts first second
    cases others with
    | nil => exact second
    | cons => cases first
  | param :: rest => by
    intro others lasts first second
    cases others with
    | nil => cases first
    | cons other later =>
        cases lasts with
        | nil => cases second
        | cons last others =>
            rw [sameParams, Bool.and_eq_true] at first second ⊢
            exact ⟨sameParam_trans param first.1 second.1, sameParams_trans rest first.2 second.2⟩
end

/-! ## Adding members twice -/

section Members

variable {type piece : Ty} {types members kept pieces : List Ty}

/-- Nothing is added where an equal member is there already. -/
theorem addMember_of_present (present : kept.any (fun member => member.same type) = true) :
    Ty.addMember kept type = kept :=
  if_pos present

/-- Where no member is equal, the type is added behind all others. -/
theorem addMember_of_absent (absent : ¬ kept.any (fun member => member.same type) = true) :
    Ty.addMember kept type = kept ++ [type] :=
  if_neg absent

/-- Every type that is added is kept, or an equal one is. -/
theorem addMembers_covers (kept : List Ty) (mem : piece ∈ pieces) :
    ∃ member ∈ pieces.foldl Ty.addMember kept, member = piece ∨ member.same piece = true := by
  induction pieces using List.reverseRecOn with
  | nil => cases mem
  | append_singleton pieces last ih =>
      rw [List.foldl_append, List.foldl_cons, List.foldl_nil]
      by_cases present :
          (pieces.foldl Ty.addMember kept).any (fun member => member.same last) = true
      · rw [addMember_of_present present]
        rcases List.mem_append.mp mem with earlier | here
        · exact ih earlier
        · obtain ⟨member, within, same⟩ := List.any_eq_true.mp present
          rw [List.mem_singleton.mp here]
          exact ⟨member, within, .inr same⟩
      · rw [addMember_of_absent present]
        rcases List.mem_append.mp mem with earlier | here
        · obtain ⟨member, within, covers⟩ := ih earlier
          exact ⟨member, List.mem_append_left _ within, covers⟩
        · exact ⟨piece, List.mem_append_right _ here, .inl rfl⟩

/-- What is left out among themselves is left out anyway. -/
theorem foldl_addMember_foldl (pieces kept : List Ty) :
    (pieces.foldl Ty.addMember []).foldl Ty.addMember kept = pieces.foldl Ty.addMember kept := by
  induction pieces using List.reverseRecOn with
  | nil => rfl
  | append_singleton pieces last ih =>
      simp only [List.foldl_append, List.foldl_cons, List.foldl_nil]
      by_cases present : (pieces.foldl Ty.addMember []).any (fun member => member.same last) = true
      · have there : (pieces.foldl Ty.addMember kept).any (fun member => member.same last) = true := by
          obtain ⟨member, within, same⟩ := List.any_eq_true.mp present
          obtain ⟨other, among, covers⟩ := addMembers_covers kept within
          rw [ih] at among
          rw [List.any_eq_true]
          refine ⟨other, among, ?_⟩
          rcases covers with rfl | covers
          · exact same
          · exact other.same_trans covers same
        rw [addMember_of_present present, addMember_of_present there, ih]
      · rw [addMember_of_absent present, List.foldl_append, ih, List.foldl_cons, List.foldl_nil]

/-! ## Joining in groups -/

/-- The parts of the type that is made of members are the members. -/
theorem Ty.parts_ofMembers (some : members ≠ [])
    (single : ∀ member ∈ members, member.isUnion = false) :
    (Ty.ofMembers members).parts = members := by
  rcases members with _ | ⟨first, _ | ⟨second, rest⟩⟩
  · exact absurd rfl some
  · exact Ty.parts_of_single (single first List.mem_cons_self)
  · rfl

/-- The type that is made of known members is known. -/
theorem Ty.ofMembers_ne_unknown (some : members ≠ []) (known : .unknown ∉ members) :
    Ty.ofMembers members ≠ .unknown := by
  rcases members with _ | ⟨first, _ | ⟨second, rest⟩⟩
  · exact absurd rfl some
  · rintro rfl
    exact known List.mem_cons_self
  · simp [Ty.ofMembers]

/-- No union, or one with members of which none is a union or unconstrained. -/
def Ty.Flat (type : Ty) : Prop :=
  ∀ members, type = .union members →
    members ≠ [] ∧ ∀ member ∈ members, member ≠ .unknown ∧ member.isUnion = false

theorem Ty.parts_ne_nil (inhabited : type ≠ .union []) : type.parts ≠ [] := by
  cases type with
  | union members =>
      rintro rfl
      exact inhabited rfl
  | _ => exact List.cons_ne_nil _ _

/-- Types that have parts have parts together. -/
theorem flatMap_parts_ne_nil (some : types ≠ []) (inhabited : .union [] ∉ types) :
    types.flatMap Ty.parts ≠ [] := by
  obtain ⟨type, mem⟩ := List.exists_mem_of_ne_nil types some
  have own : type ≠ .union [] := by
    rintro rfl
    exact inhabited mem
  obtain ⟨part, within⟩ := List.exists_mem_of_ne_nil _ (Ty.parts_ne_nil own)
  exact List.ne_nil_of_mem (List.mem_flatMap.mpr ⟨type, mem, within⟩)

/-- The parts of a flat type that is known are known and no unions. -/
theorem Ty.Flat.parts (flat : type.Flat) (known : type ≠ .unknown) :
    ∀ part ∈ type.parts, part ≠ .unknown ∧ part.isUnion = false := by
  cases type with
  | union members => exact (flat members rfl).2
  | unknown => exact absurd rfl known
  | _ => simp [Ty.parts, Ty.isUnion]

/-- A join of flat types has the members that are kept of their parts. -/
theorem parts_join (some : types ≠ []) (known : .unknown ∉ types)
    (flat : ∀ type ∈ types, type.Flat) :
    Ty.join types ≠ .unknown ∧
      (Ty.join types).parts = (types.flatMap Ty.parts).foldl Ty.addMember [] := by
  have inhabited : .union [] ∉ types := fun mem => (flat _ mem [] rfl).1 rfl
  have each : ∀ part ∈ (types.flatMap Ty.parts).foldl Ty.addMember [],
      part ≠ .unknown ∧ part.isUnion = false := by
    intro part mem
    rcases mem_addMembers mem with none | listed
    · cases none
    · obtain ⟨type, within, ofType⟩ := List.mem_flatMap.mp listed
      exact (flat type within).parts (ne_of_mem_of_not_mem within known) part ofType
  have members : (types.flatMap Ty.parts).foldl Ty.addMember [] ≠ [] := by
    obtain ⟨part, listed⟩ := List.exists_mem_of_ne_nil _ (flatMap_parts_ne_nil some inhabited)
    obtain ⟨member, within, -⟩ := addMembers_covers [] listed
    exact List.ne_nil_of_mem within
  rw [join_eq known]
  constructor
  · exact Ty.ofMembers_ne_unknown members fun mem => (each _ mem).1 rfl
  · exact Ty.parts_ofMembers members fun part mem => (each part mem).2

/-- Flat types may be joined in two groups or all at once. -/
theorem join_join {ones others : List Ty} (someOnes : ones ≠ []) (someOthers : others ≠ [])
    (flat : ∀ type ∈ ones ++ others, type.Flat) :
    Ty.join [Ty.join ones, Ty.join others] = Ty.join (ones ++ others) := by
  rw [List.forall_mem_append] at flat
  by_cases known : .unknown ∈ ones ++ others
  · have unknown : .unknown ∈ [Ty.join ones, Ty.join others] := by
      rcases List.mem_append.mp known with mem | mem
      · rw [join_of_unknown mem]
        exact List.mem_cons_self
      · rw [join_of_unknown mem]
        exact List.mem_cons_of_mem _ List.mem_cons_self
    rw [join_of_unknown known, join_of_unknown unknown]
  · have apart := known
    rw [List.mem_append, not_or] at apart
    obtain ⟨ofOnes, partsOnes⟩ := parts_join someOnes apart.1 flat.1
    obtain ⟨ofOthers, partsOthers⟩ := parts_join someOthers apart.2 flat.2
    have both : .unknown ∉ [Ty.join ones, Ty.join others] := by
      simpa using ⟨ofOnes.symm, ofOthers.symm⟩
    rw [join_eq known, join_eq both]
    simp only [List.flatMap_cons, List.flatMap_nil, List.append_nil, List.flatMap_append,
      List.foldl_append, partsOnes, partsOthers, foldl_addMember_foldl]

/-! ## The meaning of a join -/

/-- A join accepts what the plain union of its types accepts. -/
theorem assignable_join_eq (some : types ≠ []) (keyed : ∀ type ∈ types, type.WellKeyed)
    (known : .unknown ∉ types) (inhabited : .union [] ∉ types) (value : Ty) :
    value.assignable (Ty.join types) = value.assignable (.union types) := by
  rw [Bool.eq_iff_iff]
  induction value using Ty.unionInduction with
  | single value single =>
      by_cases free : value = .unknown
      · simp [free, Ty.assignable]
      · rw [assignable_join_iff single free keyed known (flatMap_parts_ne_nil some inhabited),
          assignable_union_iff single free]
  | union inner ih =>
      rw [union_assignable_iff, union_assignable_iff]
      constructor
      · intro fits
        refine .inr fun one mem => (ih one mem).mp ?_
        rcases fits with free | fits
        · rw [free]
          exact Ty.assignable_unknown one
        · exact fits one mem
      · intro fits
        exact .inr fun one mem => (ih one mem).mpr (fits.resolve_left (by simp) one mem)

/-- Normal form keeps the meaning of a union, as a target and as a value, and is the same however its
types are grouped. -/
theorem join_keeps_meaning {ones others : List Ty} (some : types ≠ [])
    (keyed : ∀ type ∈ types, type.WellKeyed) (known : .unknown ∉ types)
    (inhabited : .union [] ∉ types) (someOnes : ones ≠ []) (someOthers : others ≠ [])
    (flat : ∀ type ∈ ones ++ others, type.Flat) :
    (∀ value : Ty, value.assignable (Ty.join types) = value.assignable (.union types)) ∧
    (∀ target, (Ty.join types).assignable target = true ↔
      ∀ type ∈ types, type.assignable target = true) ∧
    Ty.join [Ty.join ones, Ty.join others] = Ty.join (ones ++ others) :=
  ⟨assignable_join_eq some keyed known inhabited, fun _ => join_assignable_iff keyed known,
    join_join someOnes someOthers flat⟩

end Members

/-- A point or nothing, and the point with its fields in the other order. -/
def points : List Ty :=
  [.union [.record [.mk "x" .number false, .mk "y" .number true], .null],
    .record [.mk "y" .number true, .mk "x" .number false]]

example : Ty.join points =
    .union [.record [.mk "x" .number false, .mk "y" .number true], .null] := rfl

theorem points_wellKeyed : ∀ type ∈ points, type.WellKeyed := by
  have point : (Ty.record [.mk "x" .number false, .mk "y" .number true]).WellKeyed :=
    .record (by simp [Field.type, Ty.WellKeyed.primitive]) (by decide)
  have turned : (Ty.record [.mk "y" .number true, .mk "x" .number false]).WellKeyed :=
    .record (by simp [Field.type, Ty.WellKeyed.primitive]) (by decide)
  simp only [points, List.mem_cons, List.not_mem_nil, or_false, forall_eq_or_imp, forall_eq]
  exact ⟨.union (by simpa using ⟨point, .null⟩), turned⟩

theorem points_flat : ∀ type ∈ points ++ [.null, .union [.undefined, .null]], type.Flat := by
  simp only [points, List.cons_append, List.nil_append, List.mem_cons, List.not_mem_nil, or_false,
    forall_eq_or_imp, forall_eq, Ty.Flat]
  simp [Ty.isUnion]

/-- The point that is written twice is one member of the join, and `null`, which both groups have, is
one of the whole. -/
theorem join_keeps_meaning_points :
    (points ≠ [] ∧ (∀ type ∈ points, type.WellKeyed) ∧ .unknown ∉ points ∧ .union [] ∉ points ∧
      ∀ type ∈ points ++ [.null, .union [.undefined, .null]], type.Flat) ∧
    (∀ value : Ty, value.assignable (Ty.join points) = value.assignable (.union points)) ∧
    (∀ target, (Ty.join points).assignable target = true ↔
      ∀ type ∈ points, type.assignable target = true) ∧
    Ty.join [Ty.join points, Ty.join [.null, .union [.undefined, .null]]] =
      Ty.join (points ++ [.null, .union [.undefined, .null]]) := by
  have some : points ≠ [] := by simp [points]
  have known : .unknown ∉ points := by simp [points]
  have inhabited : .union [] ∉ points := by simp [points]
  exact ⟨⟨some, points_wellKeyed, known, inhabited, points_flat⟩,
    join_keeps_meaning some points_wellKeyed known inhabited some (by simp) points_flat⟩

end ClassFactory
