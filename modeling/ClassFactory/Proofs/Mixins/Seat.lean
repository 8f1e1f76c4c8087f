/-
Module: ClassFactory.Proofs.Mixins.Seat
Purpose: The seat of a name in an assembly: the definition that is in place with the mixins that are
  noted as ambiguous, for ordinary members and statics alike, and what the elementary writes do to
  it.
Main exports: Holder, Holder.Rightful, Defines, Seat, Seat.standing, Assembly.seat, Surface.seat,
  seat_apply, seat_carryAll
-/
import ClassFactory.Proofs.Mixins.Assembled
import ClassFactory.Proofs.Mixins.Standing

namespace ClassFactory

/-! ## Holders -/

/-- What counts of a definition when mixins contend for its name. -/
structure Holder where
  definition : DefinitionId
  origin : Nat
  isDeclared : Bool
deriving DecidableEq

/-- The mixin that is ahead with a definition; a mere declaration is never ahead. -/
def Holder.leader? (holder : Holder) : Option Nat :=
  if holder.isDeclared then none else some holder.origin

/-- A definition as it contends for its name. -/
def MemberDefinition.holder (definition : MemberDefinition) : Holder :=
  ⟨definition.definition, definition.origin, definition.isDeclared⟩

/-- A static as it contends for its name. Statics are never mere declarations. -/
def StaticMember.holder (entry : StaticMember) : Holder :=
  ⟨entry.definition, entry.origin, false⟩

/-- The definition of an ordinary member, or of a static, in a surface. -/
def Surface.holder? (surface : Surface) (name : String) : Bool → Option Holder
  | false => (surface.primary? name).map MemberDefinition.holder
  | true => (surface.statics.get? name).map StaticMember.holder

/-- The definition of a member, or of a static, in a specification. -/
def FactorySpec.holder? (spec : FactorySpec) (name : String) : Bool → Option Holder
  | false => (spec.member? name).map fun member => (MemberDefinition.ofMember member).holder
  | true => (spec.statics.get? name).map fun entry => (StaticMember.ofStatic entry).holder

/-- The call of that number defines the member, or the static, itself. A declaration defines
nothing. -/
def Defines (registry : Registry) (name : String) (isStatic : Bool) (id : Nat) : Prop :=
  ∃ call, registry.get? id = some call ∧
    match isStatic with
    | false => ∃ member, call.spec.member? name = some member ∧ member.kind.isDeclared = false
    | true => ∃ entry, call.spec.statics.get? name = some entry

/-- The holder is what its origin has under the name. -/
def Holder.Rightful (registry : Registry) (name : String) (isStatic : Bool) (holder : Holder) :
    Prop :=
  ∃ call, registry.get? holder.origin = some call ∧ call.spec.holder? name isStatic = some holder

section Rightful

variable {registry : Registry} {name : String} {isStatic : Bool} {one other : Holder}

/-- A call defines a name just if its specification holds it with a definition. -/
theorem defines_iff {id : Nat} :
    Defines registry name isStatic id ↔
      ∃ call, registry.get? id = some call ∧
        ∃ holder, call.spec.holder? name isStatic = some holder ∧ holder.isDeclared = false := by
  cases isStatic <;>
    simp [Defines, FactorySpec.holder?, MemberDefinition.holder, MemberDefinition.ofMember,
      MemberDefinition.isDeclared, StaticMember.holder]

/-- What a specification holds is by its own call. -/
theorem FactorySpec.WellFormed.holder?_owner {owner : Nat} {spec : FactorySpec}
    (sound : spec.WellFormed owner) (found : spec.holder? name isStatic = some one) :
    one.definition.owner = owner ∧ one.origin = owner := by
  cases isStatic with
  | false =>
      obtain ⟨member, memberFound, rfl⟩ := Option.map_eq_some_iff.mp found
      have fits := (sound.members.of_get? memberFound).2
      exact ⟨fits, fits⟩
  | true =>
      obtain ⟨entry, entryFound, rfl⟩ := Option.map_eq_some_iff.mp found
      have fits := (sound.statics.of_get? entryFound).2
      exact ⟨fits, fits⟩

/-- A rightful holder is the owner of its definition. -/
theorem Holder.Rightful.owner (h : registry.WellFormed)
    (rightful : one.Rightful registry name isStatic) : one.definition.owner = one.origin := by
  obtain ⟨call, found, holds⟩ := rightful
  have spec := h.specs call (Registry.mem_of_get? found)
  obtain ⟨owner, origin⟩ := spec.holder?_owner holds
  rw [owner, origin]

/-- Under one name the origin tells definitions apart. -/
theorem Holder.Rightful.eq_of_origin (first : one.Rightful registry name isStatic)
    (second : other.Rightful registry name isStatic) (same : one.origin = other.origin) :
    one = other := by
  obtain ⟨call, found, holds⟩ := first
  obtain ⟨again, foundAgain, holdsAgain⟩ := second
  rw [same] at found
  obtain rfl := Option.some.inj (found.symm.trans foundAgain)
  exact Option.some.inj (holds.symm.trans holdsAgain)

/-- Under one name the definition tells holders apart. -/
theorem Holder.Rightful.eq_of_definition (h : registry.WellFormed)
    (first : one.Rightful registry name isStatic) (second : other.Rightful registry name isStatic)
    (same : one.definition = other.definition) : one = other :=
  first.eq_of_origin second (by rw [← first.owner h, ← second.owner h, same])

/-- The origin of a rightful holder that is no declaration defines the name. -/
theorem Holder.Rightful.defines (rightful : one.Rightful registry name isStatic)
    (concrete : one.isDeclared = false) : Defines registry name isStatic one.origin := by
  obtain ⟨call, found, holds⟩ := rightful
  exact defines_iff.mpr ⟨call, found, one, holds, concrete⟩

end Rightful

/-! ## Seats -/

/-- The definition under a name with the mixins that are noted as siblings. -/
structure Seat where
  holder : Option Holder
  rivals : Set Nat

namespace Seat

/-- How the contest for the seat stands. -/
def standing (seat : Seat) : Standing :=
  { leader := seat.holder.bind Holder.leader?, rivals := seat.rivals }

/-- Whoever holds the seat does so by its own specification. -/
def Rightful (registry : Registry) (name : String) (isStatic : Bool) (seat : Seat) : Prop :=
  ∀ holder, seat.holder = some holder → holder.Rightful registry name isStatic

end Seat

/-- The origins of those ambiguities that are of the name. -/
def rivalsIn (ambiguities : List Ambiguity) (name : String) (isStatic : Bool) : Set Nat :=
  { id | ∃ ambiguity ∈ ambiguities, Assembly.concerns name isStatic ambiguity = true ∧
    id ∈ ambiguity.origins.map Prod.fst }

/-- The seat of a name in a finished surface: the rivals are those of its open ambiguities. -/
def Surface.seat (surface : Surface) (name : String) (isStatic : Bool) : Seat :=
  ⟨surface.holder? name isStatic, rivalsIn surface.ambiguities name isStatic⟩

namespace Assembly

/-- The seat of a name in an assembly: the rivals are those noted so far. -/
def seat (assembly : Assembly) (name : String) (isStatic : Bool) : Seat :=
  ⟨assembly.surface.holder? name isStatic,
    { id | id ∈ (assembly.contested name isStatic).map Prod.fst }⟩

variable {assembly : Assembly} {name : String} {isStatic : Bool}

/-! ### Elementary writes -/

/-- A write leaves the seats of other names alone. -/
theorem seat_apply {write : Write} {other : String} {otherStatic : Bool}
    (concerns : write.Concerns name isStatic)
    (apart : ¬ (name = other ∧ isStatic = otherStatic)) (assembly : Assembly) :
    (write.apply assembly).seat other otherStatic = assembly.seat other otherStatic := by
  have rivals : (write.apply assembly).contested other otherStatic =
      assembly.contested other otherStatic := by
    simp only [contested, Write.ambiguity?_apply concerns apart]
  have holder : (write.apply assembly).surface.holder? other otherStatic =
      assembly.surface.holder? other otherStatic := by
    cases otherStatic with
    | false =>
        simp only [Surface.holder?, Surface.primary?, Write.member?_apply concerns apart]
    | true => simp only [Surface.holder?, Write.static?_apply concerns apart]
  simp only [seat, rivals, holder]

/-- The seat of a name shows nothing of other names. -/
theorem seat_shows : Shows (fun a : Assembly => a.seat name isStatic) name isStatic :=
  fun _ _ _ concerns apart assembly => seat_apply concerns apart assembly

/-- Putting a definition in place takes the seat and leaves the rivals. -/
theorem seat_set (assembly : Assembly) (name : String) (definition : MemberDefinition) :
    (assembly.set name definition).seat name false =
      ⟨some definition.holder, (assembly.seat name false).rivals⟩ := by
  simp only [seat, Surface.holder?, primary?_set_self, Option.map_some]
  rfl

/-- Putting a static in place takes the seat and leaves the rivals. -/
theorem seat_setStatic (assembly : Assembly) (entry : StaticMember) :
    (assembly.setStatic entry).seat entry.name true =
      ⟨some entry.holder, (assembly.seat entry.name true).rivals⟩ := by
  have written : (assembly.setStatic entry).surface.statics.get? entry.name = some entry :=
    Keyed.get?_insert_self _ _ _
  simp only [seat, Surface.holder?, written, Option.map_some]
  rfl

/-- Noting an origin adds a rival. -/
theorem seat_note (assembly : Assembly) (name : String) (isStatic : Bool) (origin : Nat)
    (site : Site) :
    (assembly.note name isStatic origin site).seat name isStatic =
      ⟨(assembly.seat name isStatic).holder,
        insert origin (assembly.seat name isStatic).rivals⟩ := by
  simp only [seat, note_surface, Seat.mk.injEq, true_and]
  ext id
  simp only [contested_note_self, Set.mem_ofPred_eq, Set.mem_insert_iff]

/-- Settling a name leaves it without rivals. -/
theorem seat_settle (assembly : Assembly) (name : String) (isStatic : Bool) :
    (assembly.settle name isStatic).seat name isStatic =
      ⟨(assembly.seat name isStatic).holder, ∅⟩ := by
  simp only [seat, contested, ambiguity?_settle_self, Option.map_none, Option.getD_none,
    List.map_nil, List.not_mem_nil, Set.ofPred_false]
  rfl

/-- Carrying an ambiguity over adds its origins to the rivals. -/
theorem seat_carry_self (assembly : Assembly) (ambiguity : Ambiguity) :
    (assembly.carry ambiguity).seat ambiguity.name ambiguity.isStatic =
      ⟨(assembly.seat ambiguity.name ambiguity.isStatic).holder,
        (assembly.seat ambiguity.name ambiguity.isStatic).rivals ∪
          { id | id ∈ ambiguity.origins.map Prod.fst }⟩ := by
  unfold carry
  generalize ambiguity.origins = origins
  induction origins generalizing assembly with
  | nil => simp
  | cons origin rest ih =>
      rw [List.foldl_cons, ih, seat_note]
      simp only [Seat.mk.injEq, true_and, List.map_cons]
      ext id
      simp [or_left_comm, or_assoc]

/-- Ambiguities of other names carry no rivals over. -/
theorem seat_carry_other {ambiguity : Ambiguity}
    (apart : ¬ concerns name isStatic ambiguity = true) (assembly : Assembly) :
    (assembly.carry ambiguity).seat name isStatic = assembly.seat name isStatic :=
  seat_shows.unseen (carry_writes assembly ambiguity) fun same => apart (concerns_iff.mpr same)

/-- Carrying ambiguities over notes the origins of those that are of the name. -/
theorem seat_carryAll (ambiguities : List Ambiguity) (assembly : Assembly) :
    (ambiguities.foldl carry assembly).seat name isStatic =
      ⟨(assembly.seat name isStatic).holder,
        (assembly.seat name isStatic).rivals ∪ rivalsIn ambiguities name isStatic⟩ := by
  induction ambiguities generalizing assembly with
  | nil => simp [rivalsIn]
  | cons ambiguity rest ih =>
      rw [List.foldl_cons, ih]
      by_cases concerned : concerns name isStatic ambiguity = true
      · obtain ⟨rfl, rfl⟩ := concerns_iff.mp concerned
        rw [seat_carry_self]
        simp only [Seat.mk.injEq, true_and]
        ext id
        simp [rivalsIn, concerned, or_assoc]
      · rw [seat_carry_other concerned]
        simp only [Seat.mk.injEq, true_and]
        ext id
        simp [rivalsIn, concerned]

/-! ### Merging a definition -/

/-- A newcomer settles a name that is ambiguous if it is, or includes, every rival. -/
theorem settles_iff {includes : Includes} {mixin : Nat} :
    assembly.settles includes name mixin = true ↔
      assembly.ambiguity? name false ≠ none ∧
        ∀ id ∈ (assembly.seat name false).rivals, id = mixin ∨ includes mixin id = true := by
  unfold settles seat contested
  cases assembly.ambiguity? name false with
  | none => simp
  | some ambiguity => simp

/-- A newcomer that covers all rivals leaves none, whether or not there were any. -/
theorem seat_settled {includes : Includes} {mixin : Nat}
    (all : ∀ id ∈ (assembly.seat name false).rivals, id = mixin ∨ includes mixin id = true) :
    (if assembly.settles includes name mixin then assembly.settle name false
      else assembly).seat name false = ⟨(assembly.seat name false).holder, ∅⟩ := by
  split
  · exact seat_settle assembly name false
  · rename_i unsettled
    have absent : assembly.ambiguity? name false = none := by
      by_contra some
      exact unsettled (settles_iff.mpr ⟨some, all⟩)
    simp only [seat, contested, absent, Option.map_none, Option.getD_none, List.map_nil,
      List.not_mem_nil, Set.ofPred_false]

/-- A newcomer that does not cover all rivals leaves the seat as it is. -/
theorem seat_unsettled {includes : Includes} {mixin : Nat}
    (some : ¬ ∀ id ∈ (assembly.seat name false).rivals, id = mixin ∨ includes mixin id = true) :
    (if assembly.settles includes name mixin then assembly.settle name false
      else assembly).seat name false = assembly.seat name false := by
  rw [if_neg fun settled => some (settles_iff.mp settled).2]

end Assembly

end ClassFactory
