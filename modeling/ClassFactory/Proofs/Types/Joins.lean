/-
Module: ClassFactory.Proofs.Types.Joins
Purpose: What a join of types is good for. Building it flattens unions and drops repeated members, and
  neither is ever seen: a value of the join fits where a value of each type fits, and what fits one of
  the types fits the join.
Main exports: Ty.parts, Ty.Gathers, join_eq, join_gathers, join_assignable_iff,
  assignable_join_iff, orUndefined_assignable_iff, Ty.join_of_parts, Ty.WellKeyed.join
-/
import ClassFactory.Proofs.Types.Equivalence
import ClassFactory.Types.Union

namespace ClassFactory

variable {value type target : Ty} {types members kept pieces : List Ty}

/-! ## Parts -/

/-- What a type adds to a union: its members if it is one, otherwise itself. -/
def Ty.parts : Ty → List Ty
  | .union members => members
  | type => [type]

theorem Ty.parts_of_single (single : type.isUnion = false) : type.parts = [type] := by
  cases type with
  | union members => cases single
  | _ => rfl

/-- A value fits if each of its parts does, or if nothing is asked of it. -/
theorem assignable_iff_parts :
    type.assignable target = true ↔
      target = .unknown ∨ ∀ part ∈ type.parts, part.assignable target = true := by
  by_cases single : type.isUnion = false
  · rw [Ty.parts_of_single single, List.forall_mem_singleton]
    constructor
    · exact .inr
    · intro fits
      rcases fits with rfl | fits
      · exact Ty.assignable_unknown type
      · exact fits
  · cases type with
    | union members => exact union_assignable_iff
    | _ => exact absurd rfl single

/-- A known value that is no union fits a type just if it fits one of its parts. -/
theorem assignable_parts_iff (single : value.isUnion = false) (known : value ≠ .unknown) :
    value.assignable type = true ↔ ∃ part ∈ type.parts, value.assignable part = true := by
  cases type with
  | union members => exact assignable_union_iff single known
  | _ => simp [Ty.parts]

/-- The parts of a type whose records name no field twice are such types. -/
theorem Ty.WellKeyed.parts (keyed : type.WellKeyed) : ∀ part ∈ type.parts, part.WellKeyed := by
  cases keyed with
  | union types => exact types
  | _ =>
      intro part mem
      rw [List.mem_singleton.mp mem]
      constructor <;> assumption

/-! ## Collecting members -/

/-- The members that are kept are some of the parts, and stand for all of them. -/
structure Ty.Gathers (pieces kept : List Ty) : Prop where
  subset : ∀ type ∈ kept, type ∈ pieces
  covers : ∀ type ∈ pieces, ∃ member ∈ kept, member.Equivalent type

namespace Ty.Gathers

/-- No members stand for no parts. -/
theorem nil : Ty.Gathers [] [] := ⟨by simp, by simp⟩

/-- A target takes all members just if it takes all parts. -/
theorem forall_iff (gathers : Ty.Gathers pieces kept) (target : Ty) :
    (∀ member ∈ kept, member.assignable target = true) ↔
      ∀ part ∈ pieces, part.assignable target = true := by
  constructor
  · intro all part mem
    obtain ⟨member, within, same⟩ := gathers.covers part mem
    rw [← same.value]
    exact all member within
  · intro all member mem
    exact all member (gathers.subset member mem)

/-- A value fits one of the members just if it fits one of the parts. -/
theorem exists_iff (gathers : Ty.Gathers pieces kept) (value : Ty) :
    (∃ member ∈ kept, value.assignable member = true) ↔
      ∃ part ∈ pieces, value.assignable part = true := by
  constructor
  · intro some
    obtain ⟨member, mem, fits⟩ := some
    exact ⟨member, gathers.subset member mem, fits⟩
  · intro some
    obtain ⟨part, mem, fits⟩ := some
    obtain ⟨member, within, same⟩ := gathers.covers part mem
    exact ⟨member, within, (same.target value).trans fits⟩

theorem ne_nil (gathers : Ty.Gathers pieces kept) (some : pieces ≠ []) : kept ≠ [] := by
  obtain ⟨part, mem⟩ := List.exists_mem_of_ne_nil pieces some
  obtain ⟨member, within, -⟩ := gathers.covers part mem
  exact List.ne_nil_of_mem within

/-- A member is added unless an equal one is there, which then stands for it. -/
theorem addMember (gathers : Ty.Gathers pieces kept) (keyed : ∀ part ∈ pieces, part.WellKeyed)
    (ofType : type.WellKeyed) : Ty.Gathers (pieces ++ [type]) (Ty.addMember kept type) := by
  unfold Ty.addMember
  split
  next present =>
    obtain ⟨member, mem, same⟩ := List.any_eq_true.mp present
    have equivalent := (keyed member (gathers.subset member mem)).equivalent ofType same
    constructor
    · intro other listed
      exact List.mem_append_left _ (gathers.subset other listed)
    · intro part listed
      rcases List.mem_append.mp listed with before | here
      · exact gathers.covers part before
      · rw [List.mem_singleton.mp here]
        exact ⟨member, mem, equivalent⟩
  next =>
    constructor
    · intro other listed
      exact List.mem_append.mpr ((List.mem_append.mp listed).imp_left (gathers.subset other))
    · intro part listed
      rcases List.mem_append.mp listed with before | here
      · obtain ⟨member, mem, same⟩ := gathers.covers part before
        exact ⟨member, List.mem_append_left _ mem, same⟩
      · rw [List.mem_singleton.mp here]
        exact ⟨type, List.mem_append_right _ List.mem_cons_self, .refl type⟩

/-- Adding members one after another, each unless an equal one is there. -/
theorem addMembers (gathers : Ty.Gathers pieces kept) (keyed : ∀ part ∈ pieces, part.WellKeyed)
    (ofMembers : ∀ member ∈ members, member.WellKeyed) :
    Ty.Gathers (pieces ++ members) (members.foldl Ty.addMember kept) := by
  induction members generalizing pieces kept with
  | nil => simpa using gathers
  | cons member rest ih =>
      rw [List.forall_mem_cons] at ofMembers
      rw [List.append_cons, List.foldl_cons]
      apply ih (gathers.addMember keyed ofMembers.1) _ ofMembers.2
      intro part listed
      rcases List.mem_append.mp listed with before | here
      · exact keyed part before
      · rw [List.mem_singleton.mp here]
        exact ofMembers.1

end Ty.Gathers

theorem collectMembers_cons (known : type ≠ .unknown) :
    Ty.collectMembers kept (type :: types) =
      Ty.collectMembers (type.parts.foldl Ty.addMember kept) types := by
  cases type with
  | unknown => exact absurd rfl known
  | _ => rfl

/-- The parts of all types are added one after another. -/
theorem collectMembers_eq (known : .unknown ∉ types) : Ty.collectMembers kept types =
    some ((types.flatMap Ty.parts).foldl Ty.addMember kept) := by
  induction types generalizing kept with
  | nil => rfl
  | cons type rest ih =>
      rw [List.mem_cons, not_or] at known
      rw [collectMembers_cons (Ne.symm known.1), ih known.2, List.flatMap_cons, List.foldl_append]

/-- A join of known types has as members the parts of all of them, collected in order. -/
theorem join_eq (known : .unknown ∉ types) :
    Ty.join types = Ty.ofMembers ((types.flatMap Ty.parts).foldl Ty.addMember []) := by
  rw [Ty.join, collectMembers_eq known]

/-- A join with the unconstrained type is unconstrained. -/
theorem join_of_unknown (mem : .unknown ∈ types) : Ty.join types = .unknown := by
  have stops : ∀ kept, Ty.collectMembers kept types = none := by
    induction types with
    | nil => cases mem
    | cons type rest ih =>
        intro kept
        by_cases unknown : type = .unknown
        · rw [unknown]
          rfl
        · rw [collectMembers_cons unknown]
          exact ih ((List.mem_cons.mp mem).resolve_left (Ne.symm unknown)) _
  rw [Ty.join, stops]

/-- A join is made of members gathered from the parts of its types. -/
theorem join_gathers (keyed : ∀ type ∈ types, type.WellKeyed) (known : .unknown ∉ types) :
    ∃ members, Ty.join types = Ty.ofMembers members ∧
      Ty.Gathers (types.flatMap Ty.parts) members := by
  have ofParts : ∀ part ∈ types.flatMap Ty.parts, part.WellKeyed := by
    intro part listed
    obtain ⟨type, mem, within⟩ := List.mem_flatMap.mp listed
    exact (keyed type mem).parts part within
  exact ⟨_, join_eq known, by simpa using Ty.Gathers.nil.addMembers (by simp) ofParts⟩

/-! ## Comparing joins -/

/-- The type that is made of members fits a target just if each member does. -/
theorem ofMembers_assignable_iff :
    (Ty.ofMembers members).assignable target = true ↔
      target = .unknown ∨ ∀ member ∈ members, member.assignable target = true := by
  rcases members with _ | ⟨first, _ | ⟨second, rest⟩⟩
  · simp [Ty.ofMembers, Ty.assignable]
  · rw [Ty.ofMembers, List.forall_mem_singleton]
    constructor
    · exact .inr
    · intro fits
      rcases fits with rfl | fits
      · exact Ty.assignable_unknown first
      · exact fits
  · exact union_assignable_iff

/-- A known value that is no union fits the type that is made of members just if it fits one of
them. -/
theorem assignable_ofMembers_iff (single : value.isUnion = false) (known : value ≠ .unknown)
    (some : members ≠ []) : value.assignable (Ty.ofMembers members) = true ↔
      ∃ member ∈ members, value.assignable member = true := by
  rcases members with _ | ⟨first, _ | ⟨second, rest⟩⟩
  · exact absurd rfl some
  · simp [Ty.ofMembers]
  · exact assignable_union_iff single known

/-- A value of a join fits just where a value of each of its types does. -/
theorem join_assignable_iff (keyed : ∀ type ∈ types, type.WellKeyed) (known : .unknown ∉ types) :
    (Ty.join types).assignable target = true ↔
      ∀ type ∈ types, type.assignable target = true := by
  obtain ⟨members, joined, gathers⟩ := join_gathers keyed known
  by_cases free : target = .unknown
  · simp [free]
  · rw [joined, ofMembers_assignable_iff, or_iff_right free, gathers.forall_iff]
    simp only [List.mem_flatMap]
    constructor
    · intro all type mem
      rw [assignable_iff_parts]
      exact .inr fun part within => all part ⟨type, mem, within⟩
    · intro all part listed
      obtain ⟨type, mem, within⟩ := listed
      exact (assignable_iff_parts.mp (all type mem)).resolve_left free part within

/-- A known value that is no union fits a join just if it fits one of its types. -/
theorem assignable_join_iff (single : value.isUnion = false) (given : value ≠ .unknown)
    (keyed : ∀ type ∈ types, type.WellKeyed) (known : .unknown ∉ types)
    (some : types.flatMap Ty.parts ≠ []) : value.assignable (Ty.join types) = true ↔
      ∃ type ∈ types, value.assignable type = true := by
  obtain ⟨members, joined, gathers⟩ := join_gathers keyed known
  rw [joined, assignable_ofMembers_iff single given (gathers.ne_nil some), gathers.exists_iff]
  simp only [List.mem_flatMap]
  constructor
  · intro fits
    obtain ⟨part, ⟨type, mem, within⟩, fits⟩ := fits
    exact ⟨type, mem, (assignable_parts_iff single given).mpr ⟨part, within, fits⟩⟩
  · intro fits
    obtain ⟨type, mem, fits⟩ := fits
    obtain ⟨part, within, fits⟩ := (assignable_parts_iff single given).mp fits
    exact ⟨part, ⟨type, mem, within⟩, fits⟩

/-- A value that may be absent fits where both the value and `undefined` do. -/
theorem orUndefined_assignable_iff (keyed : type.WellKeyed) (known : type ≠ .unknown) :
    type.orUndefined.assignable target = true ↔
      type.assignable target = true ∧ Ty.undefined.assignable target = true := by
  have each : ∀ one ∈ [type, .undefined], one.WellKeyed := by
    simpa using ⟨keyed, .undefined⟩
  rw [Ty.orUndefined, join_assignable_iff each (by simpa using Ne.symm known)]
  simp

/-! ## What every part of a join is -/

/-- A member of the collection was there before or is one of those added. -/
theorem mem_addMembers {member : Ty} (mem : member ∈ members.foldl Ty.addMember kept) :
    member ∈ kept ∨ member ∈ members := by
  induction members generalizing kept with
  | nil => exact .inl mem
  | cons first rest ih =>
      rcases ih mem with here | later
      · unfold Ty.addMember at here
        split at here
        next => exact .inl here
        next => simpa [or_assoc] using Or.inl (b := member ∈ rest) (List.mem_append.mp here)
      · exact .inr (List.mem_cons_of_mem _ later)

/-- A join has a property that unions keep if all parts of its types have it. -/
theorem Ty.join_of_parts {holds : Ty → Prop} (unknown : holds .unknown)
    (union : ∀ {members : List Ty}, (∀ member ∈ members, holds member) → holds (.union members))
    (parts : ∀ type ∈ types, ∀ part ∈ type.parts, holds part) : holds (Ty.join types) := by
  by_cases known : .unknown ∈ types
  · rw [join_of_unknown known]
    exact unknown
  · have each : ∀ member ∈ (types.flatMap Ty.parts).foldl Ty.addMember [], holds member := by
      intro member mem
      rcases mem_addMembers mem with none | listed
      · cases none
      · obtain ⟨type, within, part⟩ := List.mem_flatMap.mp listed
        exact parts type within member part
    rw [join_eq known]
    generalize (types.flatMap Ty.parts).foldl Ty.addMember [] = members at each
    rcases members with _ | ⟨first, _ | ⟨second, rest⟩⟩
    · exact unknown
    · exact each first List.mem_cons_self
    · exact union each

/-! ## Joins of types whose records name no field twice -/

/-- A join names no field twice where none of the types does. -/
theorem Ty.WellKeyed.join (keyed : ∀ type ∈ types, type.WellKeyed) :
    (Ty.join types).WellKeyed :=
  Ty.join_of_parts .unknown .union fun type listed => (keyed type listed).parts

/-- Taking away `null` and `undefined` leaves the names of fields distinct. -/
theorem Ty.WellKeyed.nonNullish (keyed : type.WellKeyed) : type.nonNullish.WellKeyed := by
  cases keyed with
  | union types => exact .join fun member mem => types member (List.mem_of_mem_filter mem)
  | _ => constructor <;> assumption

end ClassFactory
