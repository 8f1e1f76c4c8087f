/-
Module: ClassFactory.Proofs.Mixins.Contest
Purpose: Merging as a contest for each name. Adding a mixin to an assembly is a step of the contest
  for the seat of every name but those of hooks, and an own definition ends the contest.
Main exports: Informed, Seat.Takes, Contenders, merge_takes, mergeStatic_takes, seat_addMixin,
  Seat.Settled, seat_own
-/
import ClassFactory.Proofs.Mixins.Seat

namespace ClassFactory

/-- For the mixins of a set it is known what they include. -/
def Informed (edges : Nat → List (Nat × Site)) (includes : Includes) (scope : Set Nat) : Prop :=
  ∀ outer ∈ scope, ∀ inner, includes outer inner = true ↔ Reaches edges outer inner

/-- A definition is merged: if it is a mere declaration the contest stays as it is, otherwise its
mixin joins. -/
structure Seat.Takes (registry : Registry) (edges : Nat → List (Nat × Site)) (name : String)
    (isStatic : Bool) (incoming : Holder) (before after : Seat) : Prop where
  rightful : after.Rightful registry name isStatic
  declared : incoming.leader? = none → after.standing = before.standing
  joins : ∀ origin, incoming.leader? = some origin →
    Joins edges (!isStatic) origin before.standing after.standing

/-- A signature that is inherited does not touch who holds the name. -/
theorem holder_inherit (definition declared : MemberDefinition) :
    (definition.inherit declared).holder = definition.holder := by
  have kept : (definition.kind.fillSignature declared.signature?).isDeclared =
      definition.kind.isDeclared := by
    unfold MemberKind.fillSignature
    split <;> simp_all [MemberKind.isDeclared]
  simp [MemberDefinition.inherit, MemberDefinition.holder, MemberDefinition.isDeclared, kept]

section Takes

variable {registry : Registry} {edges : Nat → List (Nat × Site)} {includes : Includes}
  {scope : Set Nat} {name : String} {isStatic : Bool}

/-- Within the scope the inclusions that a resolver looks up are those of the registry. -/
theorem covers_iff_includes (informed : Informed edges includes scope) {outer inner : Nat}
    (known : outer ∈ scope) :
    Covers edges outer inner ↔ inner = outer ∨ includes outer inner = true := by
  rw [informed outer known, Covers, Relation.reflTransGen_iff_eq_or_transGen]

/-- A concrete definition is ahead with its origin. -/
theorem standing_of_concrete {holder : Holder} (concrete : holder.isDeclared = false)
    (rivals : Set Nat) : Seat.standing ⟨some holder, rivals⟩ = ⟨some holder.origin, rivals⟩ := by
  simp [Seat.standing, Holder.leader?, concrete]

/-- A declaration leaves nobody ahead. -/
theorem standing_of_declared {holder : Holder} (declared : holder.isDeclared = true)
    (rivals : Set Nat) : Seat.standing ⟨some holder, rivals⟩ = ⟨none, rivals⟩ := by
  simp [Seat.standing, Holder.leader?, declared]

namespace Seat.Takes

variable {incoming : Holder} {before after : Seat}

/-- A definition that is no mere declaration takes part in the contest. -/
theorem of_joins (rightful : after.Rightful registry name isStatic)
    (concrete : incoming.isDeclared = false)
    (joins : Joins edges (!isStatic) incoming.origin before.standing after.standing) :
    Takes registry edges name isStatic incoming before after where
  rightful := rightful
  declared := fun declared => by simp [Holder.leader?, concrete] at declared
  joins := fun origin leads => by
    obtain rfl : incoming.origin = origin := by simpa [Holder.leader?, concrete] using leads
    exact joins

/-- A mere declaration must leave the contest as it is. -/
theorem of_declared (rightful : after.Rightful registry name isStatic)
    (declared : incoming.isDeclared = true) (same : after.standing = before.standing) :
    Takes registry edges name isStatic incoming before after where
  rightful := rightful
  declared := fun _ => same
  joins := fun origin leads => by simp [Holder.leader?, declared] at leads

/-- A definition that finds nothing but a declaration takes the seat. -/
theorem first {rivals : Set Nat} {held : Option Holder}
    (rightful : incoming.Rightful registry name isStatic)
    (free : held.bind Holder.leader? = none) :
    Takes registry edges name isStatic incoming ⟨held, rivals⟩ ⟨some incoming, rivals⟩ := by
  have isRightful : Rightful registry name isStatic ⟨some incoming, rivals⟩ :=
    fun _ same => Option.some.inj same ▸ rightful
  have start : standing ⟨held, rivals⟩ = ⟨none, rivals⟩ := by simp [standing, free]
  cases declared : incoming.isDeclared with
  | false =>
      refine of_joins isRightful declared ?_
      rw [start, standing_of_concrete declared]
      exact .first rivals
  | true => exact of_declared isRightful declared (by rw [start, standing_of_declared declared])

/-- A definition that is there already changes nothing. -/
theorem again {rivals : Set Nat} (rightful : incoming.Rightful registry name isStatic) :
    Takes registry edges name isStatic incoming ⟨some incoming, rivals⟩
      ⟨some incoming, rivals⟩ := by
  have isRightful : Rightful registry name isStatic ⟨some incoming, rivals⟩ :=
    fun _ same => Option.some.inj same ▸ rightful
  cases declared : incoming.isDeclared with
  | false =>
      refine of_joins isRightful declared ?_
      rw [standing_of_concrete declared]
      exact .yields rivals .refl
  | true => exact of_declared isRightful declared rfl

end Seat.Takes

/-! ## Merging -/

/-- Two definitions, both no mere declarations, contend for a seat. -/
structure Contenders (registry : Registry) (name : String) (isStatic : Bool) (scope : Set Nat)
    (existing incoming : Holder) : Prop where
  rightful : existing.Rightful registry name isStatic
  incomingRightful : incoming.Rightful registry name isStatic
  holds : existing.isDeclared = false
  concrete : incoming.isDeclared = false
  differ : existing.origin ≠ incoming.origin
  existingKnown : existing.origin ∈ scope
  incomingKnown : incoming.origin ∈ scope

namespace Contenders

variable {existing incoming : Holder} {rivals : Set Nat}

/-- A definition that covers the newcomer keeps the seat, and the rivals stay. -/
theorem keeps (c : Contenders registry name isStatic scope existing incoming)
    (informed : Informed edges includes scope)
    (under : includes existing.origin incoming.origin = true) :
    Seat.Takes registry edges name isStatic incoming ⟨some existing, rivals⟩
      ⟨some existing, rivals⟩ := by
  refine .of_joins (fun _ same => Option.some.inj same ▸ c.rightful) c.concrete ?_
  rw [standing_of_concrete c.holds]
  exact .yields rivals ((informed _ c.existingKnown _).mp under).to_reflTransGen

/-- A newcomer that covers the holder and all rivals takes the seat and settles the contest. -/
theorem settles (c : Contenders registry name false scope existing incoming)
    (informed : Informed edges includes scope)
    (above : includes incoming.origin existing.origin = true)
    (all : ∀ id ∈ rivals, id = incoming.origin ∨ includes incoming.origin id = true) :
    Seat.Takes registry edges name false incoming ⟨some existing, rivals⟩
      ⟨some incoming, ∅⟩ := by
  refine .of_joins (fun _ same => Option.some.inj same ▸ c.incomingRightful) c.concrete ?_
  rw [standing_of_concrete c.holds, standing_of_concrete c.concrete]
  refine .settles rfl ((informed _ c.incomingKnown _).mp above) fun id mem => ?_
  exact (covers_iff_includes informed c.incomingKnown).mpr (all id mem)

/-- A newcomer that covers the holder but not all rivals takes the seat, and the rivals stay. -/
theorem wins (c : Contenders registry name isStatic scope existing incoming)
    (informed : Informed edges includes scope)
    (above : includes incoming.origin existing.origin = true)
    (some : isStatic = false →
      ¬ ∀ id ∈ rivals, id = incoming.origin ∨ includes incoming.origin id = true) :
    Seat.Takes registry edges name isStatic incoming ⟨.some existing, rivals⟩
      ⟨.some incoming, rivals⟩ := by
  refine .of_joins (fun _ same => Option.some.inj same ▸ c.incomingRightful) c.concrete ?_
  rw [standing_of_concrete c.holds, standing_of_concrete c.concrete]
  refine .wins ((informed _ c.incomingKnown _).mp above) fun clears => ?_
  have contested := some (by simpa using clears)
  simp only [not_forall, exists_prop] at contested
  obtain ⟨id, mem, apart⟩ := contested
  exact ⟨id, mem, mt (covers_iff_includes informed c.incomingKnown).mp apart⟩

/-- Of two definitions of which neither covers the other both are rivals, and the newcomer has the
seat. -/
theorem siblings (c : Contenders registry name isStatic scope existing incoming)
    (informed : Informed edges includes scope)
    (above : ¬ includes incoming.origin existing.origin = true)
    (under : ¬ includes existing.origin incoming.origin = true) :
    Seat.Takes registry edges name isStatic incoming ⟨some existing, rivals⟩
      ⟨some incoming, insert incoming.origin (insert existing.origin rivals)⟩ := by
  refine .of_joins (fun _ same => Option.some.inj same ▸ c.incomingRightful) c.concrete ?_
  rw [standing_of_concrete c.holds, standing_of_concrete c.concrete, Set.insert_comm]
  refine .siblings rivals ?_ ?_
  · rw [covers_iff_includes informed c.existingKnown]
    exact not_or.mpr ⟨Ne.symm c.differ, under⟩
  · rw [covers_iff_includes informed c.incomingKnown]
    exact not_or.mpr ⟨c.differ, above⟩

end Contenders

/-- What the code does with two definitions of a name is one of the ways to take the seat. -/
theorem contend_takes (informed : Informed edges includes scope) {assembly : Assembly}
    {existing incoming : MemberDefinition}
    (c : Contenders registry name false scope existing.holder incoming.holder)
    (held : (assembly.seat name false).holder = some existing.holder) :
    Seat.Takes registry edges name false incoming.holder (assembly.seat name false)
      ((assembly.contend includes name existing incoming).seat name false) := by
  have before : assembly.seat name false =
      ⟨some existing.holder, (assembly.seat name false).rivals⟩ := by rw [← held]
  unfold Assembly.contend
  by_cases above : includes incoming.origin existing.origin = true
  · simp only [above, if_true, Assembly.seat_set]
    by_cases all : ∀ id ∈ (assembly.seat name false).rivals,
        id = incoming.origin ∨ includes incoming.origin id = true
    · rw [Assembly.seat_settled all, before]
      exact c.settles informed above all
    · rw [Assembly.seat_unsettled all, before]
      exact c.wins informed above fun _ => all
  · simp only [above, if_false, Bool.false_eq_true]
    by_cases under : includes existing.origin incoming.origin = true
    · simp only [under, if_true]
      rw [before]
      exact c.keeps informed under
    · simp only [under, if_false, Bool.false_eq_true]
      rw [Assembly.seat_set, Assembly.seat_note, Assembly.seat_note, before]
      exact c.siblings informed above under

/-- Merging a definition of an ordinary member makes a step of the contest out of it. -/
theorem merge_takes (h : registry.WellFormed) (informed : Informed edges includes scope)
    {assembly : Assembly} {incoming : MemberDefinition}
    (rightful : (assembly.seat name false).Rightful registry name false)
    (leaders : ∀ leader, (assembly.seat name false).standing.leader = some leader →
      leader ∈ scope)
    (incomingRightful : incoming.holder.Rightful registry name false)
    (incomingKnown : incoming.isDeclared = false → incoming.origin ∈ scope) :
    Seat.Takes registry edges name false incoming.holder (assembly.seat name false)
      ((assembly.merge includes name incoming).seat name false) := by
  unfold Assembly.merge
  cases found : assembly.surface.primary? name with
  | none =>
      have held : (assembly.seat name false).holder = none := by
        simp [Assembly.seat, Surface.holder?, found]
      have before : assembly.seat name false = ⟨none, (assembly.seat name false).rivals⟩ := by
        rw [← held]
      dsimp only
      rw [Assembly.seat_set, before]
      exact .first incomingRightful rfl
  | some existing =>
      have held : (assembly.seat name false).holder = some existing.holder := by
        simp [Assembly.seat, Surface.holder?, found]
      have before : assembly.seat name false =
          ⟨some existing.holder, (assembly.seat name false).rivals⟩ := by rw [← held]
      have existingRightful := rightful existing.holder held
      dsimp only
      by_cases same : existing.definition = incoming.definition
      · have sameHolder : existing.holder = incoming.holder :=
          existingRightful.eq_of_definition h incomingRightful same
        rw [if_pos same, before, sameHolder]
        exact .again incomingRightful
      · rw [if_neg same]
        by_cases declared : incoming.isDeclared = true
        · -- a declaration only lends its signature
          have unchanged : Seat.Takes registry edges name false incoming.holder
              (assembly.seat name false) (assembly.seat name false) :=
            .of_declared rightful declared rfl
          rw [if_pos declared]
          split
          · exact unchanged
          · rwa [Assembly.seat_set, holder_inherit, ← before]
        · rw [if_neg declared]
          by_cases existingDeclared : existing.isDeclared = true
          · rw [if_pos existingDeclared, Assembly.seat_set, holder_inherit, before]
            refine .first incomingRightful ?_
            simp [Holder.leader?, MemberDefinition.holder, existingDeclared]
          · rw [if_neg existingDeclared]
            have holds : existing.holder.isDeclared = false :=
              Bool.eq_false_iff.mpr existingDeclared
            have concrete : incoming.holder.isDeclared = false := Bool.eq_false_iff.mpr declared
            have leads : (assembly.seat name false).standing.leader = some existing.origin := by
              rw [before, standing_of_concrete holds]
              rfl
            have differ : existing.origin ≠ incoming.origin := fun sameOrigin =>
              same (congrArg Holder.definition
                (existingRightful.eq_of_origin incomingRightful sameOrigin))
            exact contend_takes informed ⟨existingRightful, incomingRightful, holds, concrete,
              differ, leaders _ leads, incomingKnown concrete⟩ held

/-- Merging a static makes a step of the contest out of it. -/
theorem mergeStatic_takes (h : registry.WellFormed) (informed : Informed edges includes scope)
    {assembly : Assembly} {incoming : StaticMember}
    (rightful : (assembly.seat incoming.name true).Rightful registry incoming.name true)
    (leaders : ∀ leader, (assembly.seat incoming.name true).standing.leader = some leader →
      leader ∈ scope)
    (incomingRightful : incoming.holder.Rightful registry incoming.name true)
    (incomingKnown : incoming.origin ∈ scope) :
    Seat.Takes registry edges incoming.name true incoming.holder
      (assembly.seat incoming.name true)
      ((assembly.mergeStatic includes incoming).seat incoming.name true) := by
  unfold Assembly.mergeStatic
  cases found : assembly.surface.statics.get? incoming.name with
  | none =>
      have held : (assembly.seat incoming.name true).holder = none := by
        simp [Assembly.seat, Surface.holder?, found]
      have before : assembly.seat incoming.name true =
          ⟨none, (assembly.seat incoming.name true).rivals⟩ := by rw [← held]
      dsimp only
      rw [Assembly.seat_setStatic, before]
      exact .first incomingRightful rfl
  | some existing =>
      have held : (assembly.seat incoming.name true).holder = some existing.holder := by
        simp [Assembly.seat, Surface.holder?, found]
      have before : assembly.seat incoming.name true =
          ⟨some existing.holder, (assembly.seat incoming.name true).rivals⟩ := by rw [← held]
      have existingRightful := rightful existing.holder held
      dsimp only
      by_cases same : existing.definition = incoming.definition
      · have sameHolder : existing.holder = incoming.holder :=
          existingRightful.eq_of_definition h incomingRightful same
        simp only [same, decide_true, Bool.true_or, if_true]
        rw [before, sameHolder]
        exact .again incomingRightful
      · have leads : (assembly.seat incoming.name true).standing.leader =
            some existing.origin := by
          rw [before, standing_of_concrete rfl]
          rfl
        have differ : existing.origin ≠ incoming.origin := fun sameOrigin =>
          same (congrArg Holder.definition
            (existingRightful.eq_of_origin incomingRightful sameOrigin))
        have c : Contenders registry incoming.name true scope existing.holder incoming.holder :=
          ⟨existingRightful, incomingRightful, rfl, rfl, differ, leaders _ leads, incomingKnown⟩
        simp only [same, decide_false, Bool.false_or]
        by_cases under : includes existing.origin incoming.origin = true
        · rw [if_pos under, before]
          exact c.keeps informed under
        · rw [if_neg under]
          by_cases above : includes incoming.origin existing.origin = true
          · rw [if_pos above, Assembly.seat_setStatic, before]
            exact c.wins informed above (by simp)
          · rw [if_neg above, Assembly.seat_setStatic, Assembly.seat_note, Assembly.seat_note,
              before]
            exact c.siblings informed above under

/-- What merging the definition of a mixin, if it has one, does to a seat with all rivals noted. -/
def Received (registry : Registry) (edges : Nat → List (Nat × Site)) (name : String)
    (isStatic : Bool) (before : Seat) : Option Holder → Seat → Prop
  | some incoming, after => Seat.Takes registry edges name isStatic incoming before after
  | none, after => after = before

/-- What a mixin brings in, its definition with its rivals, is added to the contest. -/
theorem Received.adds {before after : Seat} {rivals : Set Nat} {incoming : Option Holder}
    (rightful : before.Rightful registry name isStatic)
    (received : Received registry edges name isStatic ⟨before.holder, before.rivals ∪ rivals⟩
      incoming after) :
    after.Rightful registry name isStatic ∧
      Adds edges (!isStatic) (Seat.standing ⟨incoming, rivals⟩) before.standing after.standing := by
  cases incoming with
  | none =>
      obtain rfl : after = _ := received
      exact ⟨rightful, .nothing rivals⟩
  | some holder =>
      have takes : Seat.Takes registry edges name isStatic holder _ after := received
      refine ⟨takes.rightful, ?_⟩
      cases leads : holder.leader? with
      | none =>
          rw [takes.declared leads]
          simpa [Seat.standing, leads] using Adds.nothing rivals
      | some origin =>
          have joined : Adds edges (!isStatic) ⟨some origin, rivals⟩ before.standing
              after.standing := .joins (takes.joins origin leads)
          simpa [Seat.standing, leads] using joined

section Included

variable {assembly : Assembly} {included : Surface}

/-- A surface with a concrete definition has its origin ahead. -/
theorem leader_of_concrete {holder : Holder} (held : included.holder? name isStatic = some holder)
    (concrete : holder.isDeclared = false) :
    (included.seat name isStatic).standing.leader = some holder.origin := by
  simp [Surface.seat, Seat.standing, held, Holder.leader?, concrete]

/-- Merging the members of a mixin adds its contest for the name to the one that there was. -/
theorem seat_mergeMembers (h : registry.WellFormed) (informed : Informed edges includes scope)
    (ordinary : Hook.ofName? name = none) (fitting : included.Fitting)
    (rightful : (assembly.seat name false).Rightful registry name false)
    (leaders : ∀ leader, (assembly.seat name false).standing.leader = some leader →
      leader ∈ scope)
    (includedRightful : (included.seat name false).Rightful registry name false)
    (includedLeaders : ∀ leader, (included.seat name false).standing.leader = some leader →
      leader ∈ scope) :
    Received registry edges name false (assembly.seat name false) (included.holder? name false)
      ((assembly.mergeMembers includes included.members).seat name false) := by
  have own : ∀ (state : Assembly) (member : SurfaceMember),
      (name, member) ∈ included.members.entries →
      state.seat name false = assembly.seat name false →
      Received registry edges name false (assembly.seat name false)
        (member.primary?.map MemberDefinition.holder)
        ((state.mergeMember includes name member).seat name false) := by
    intro state member mem same
    have isOrdinary : member.hook = none := (fitting.members.values _ mem).trans ordinary
    have found : included.members.get? name = some member :=
      (Keyed.get?_eq_some_iff fitting.members).mpr mem
    unfold Assembly.mergeMember
    rw [isOrdinary]
    dsimp only
    cases primary : member.primary? with
    | none => exact same
    | some definition =>
        have held : included.holder? name false = some definition.holder := by
          simp [Surface.holder?, Surface.primary?, Surface.member?, found, primary]
        have known : definition.isDeclared = false → definition.origin ∈ scope := fun concrete =>
          includedLeaders _ (leader_of_concrete held concrete)
        have takes := merge_takes h informed (same ▸ rightful) (same ▸ leaders)
          (includedRightful _ held) known
        rw [same] at takes
        exact takes
  exact Assembly.seat_shows.mergeMembers fitting
    (fun member after => Received registry edges name false (assembly.seat name false)
      ((member.bind SurfaceMember.primary?).map MemberDefinition.holder) after)
    own rfl

/-- Merging the statics of a mixin adds its contest for the name to the one that there was. -/
theorem seat_mergeStatics (h : registry.WellFormed) (informed : Informed edges includes scope)
    (fitting : included.Fitting)
    (rightful : (assembly.seat name true).Rightful registry name true)
    (leaders : ∀ leader, (assembly.seat name true).standing.leader = some leader →
      leader ∈ scope)
    (includedRightful : (included.seat name true).Rightful registry name true)
    (includedLeaders : ∀ leader, (included.seat name true).standing.leader = some leader →
      leader ∈ scope) :
    Received registry edges name true (assembly.seat name true) (included.holder? name true)
      ((assembly.mergeStatics includes included.statics).seat name true) := by
  have own : ∀ (state : Assembly) (entry : StaticMember),
      (name, entry) ∈ included.statics.entries →
      state.seat name true = assembly.seat name true →
      Seat.Takes registry edges name true entry.holder (assembly.seat name true)
        ((state.mergeStatic includes entry).seat name true) := by
    intro state entry mem same
    obtain rfl : entry.name = name := fitting.statics.values _ mem
    have found : included.statics.get? entry.name = some entry :=
      (Keyed.get?_eq_some_iff fitting.statics).mpr mem
    have held : included.holder? entry.name true = some entry.holder := by
      simp [Surface.holder?, found]
    have takes := mergeStatic_takes h informed (same ▸ rightful) (same ▸ leaders)
      (includedRightful _ held) (includedLeaders _ (leader_of_concrete held rfl))
    rw [same] at takes
    exact takes
  exact Assembly.seat_shows.mergeStatics fitting
    (fun entry after => Received registry edges name true (assembly.seat name true)
      (entry.map StaticMember.holder) after)
    own rfl

/-- Adding a mixin is a step of the contest for every name but those of hooks. -/
theorem seat_addMixin (h : registry.WellFormed) (informed : Informed edges includes scope)
    (ordinary : isStatic = false → Hook.ofName? name = none) (fitting : included.Fitting)
    (target : Nat) (rightful : (assembly.seat name isStatic).Rightful registry name isStatic)
    (leaders : ∀ leader, (assembly.seat name isStatic).standing.leader = some leader →
      leader ∈ scope)
    (includedRightful : (included.seat name isStatic).Rightful registry name isStatic)
    (includedLeaders : ∀ leader, (included.seat name isStatic).standing.leader = some leader →
      leader ∈ scope) :
    ((assembly.addMixin includes target included).seat name isStatic).Rightful registry name
        isStatic ∧
      Adds edges (!isStatic) (included.seat name isStatic).standing
        (assembly.seat name isStatic).standing
        ((assembly.addMixin includes target included).seat name isStatic).standing := by
  have carried : (included.ambiguities.foldl Assembly.carry
      (assembly.including target included)).seat name isStatic =
        ⟨(assembly.seat name isStatic).holder, (assembly.seat name isStatic).rivals ∪
          rivalsIn included.ambiguities name isStatic⟩ := by
    rw [Assembly.seat_carryAll]
    rfl
  rw [Assembly.addMixin_eq]
  cases isStatic with
  | false =>
      have statics : ∀ state : Assembly,
          (state.mergeStatics includes included.statics).seat name false =
            state.seat name false := Assembly.seat_shows.mergeStatics_unseen includes _
      rw [statics]
      refine Received.adds rightful ?_
      rw [← carried]
      refine seat_mergeMembers h informed (ordinary rfl) fitting ?_ ?_ includedRightful
        includedLeaders
      · rw [carried]
        exact rightful
      · rw [carried]
        exact leaders
  | true =>
      have members : ∀ state : Assembly,
          (state.mergeMembers includes included.members).seat name true =
            state.seat name true := Assembly.seat_shows.mergeMembers_unseen fitting includes
      refine Received.adds rightful ?_
      rw [← carried, ← members]
      refine seat_mergeStatics h informed fitting ?_ ?_ includedRightful includedLeaders
      · rw [members, carried]
        exact rightful
      · rw [members, carried]
        exact leaders

end Included

end Takes

/-! ## Own definitions -/

/-- The seat after the own definitions of a call: an own definition has it unrivalled. -/
structure Seat.Settled (registry : Registry) (name : String) (isStatic : Bool) (id : Nat)
    (defines : Prop) (before after : Seat) : Prop where
  rightful : after.Rightful registry name isStatic
  own : defines → after.standing = ⟨some id, ∅⟩
  other : ¬ defines → after.standing = before.standing

section Own

variable {registry : Registry} {name : String} {isStatic : Bool} {assembly : Assembly}
  {call : FactoryCall}

/-- A call's own definition settles the contest, and a declaration of its own leaves it. -/
theorem overrideWith_settled {member : SpecMember}
    (ownRightful : (MemberDefinition.ofMember member).holder.Rightful registry name false)
    (rightful : (assembly.seat name false).Rightful registry name false)
    (noRivals : (assembly.seat name false).standing.leader = none →
      (assembly.seat name false).rivals = ∅) :
    Seat.Settled registry name false member.definition.owner (member.kind.isDeclared = false)
      (assembly.seat name false)
      ((assembly.overrideWith name (MemberDefinition.ofMember member)).seat name false) := by
  have takesOver : ∀ rivals,
      Seat.Rightful registry name false ⟨some (MemberDefinition.ofMember member).holder, rivals⟩ :=
    fun rivals _ same => Option.some.inj same ▸ ownRightful
  have declares : (MemberDefinition.ofMember member).isDeclared = member.kind.isDeclared := rfl
  unfold Assembly.overrideWith
  cases found : assembly.surface.primary? name with
  | none =>
      have before : assembly.seat name false = ⟨none, (assembly.seat name false).rivals⟩ := by
        simp [Assembly.seat, Surface.holder?, found]
      have empty := noRivals (by rw [before]; rfl)
      dsimp only
      rw [Assembly.seat_set]
      refine ⟨takesOver _, fun concrete => ?_, fun undefined => ?_⟩
      · rw [standing_of_concrete concrete, empty]
        rfl
      · have declared : member.kind.isDeclared = true := by simpa using undefined
        rw [before, standing_of_declared declared]
        rfl
  | some existing =>
      have before : assembly.seat name false =
          ⟨some existing.holder, (assembly.seat name false).rivals⟩ := by
        simp [Assembly.seat, Surface.holder?, found]
      dsimp only
      by_cases declared : member.kind.isDeclared = true
      · rw [if_pos (declares.trans declared), Assembly.seat_set]
        by_cases existingDeclared : existing.isDeclared = true
        · rw [if_pos existingDeclared]
          refine ⟨takesOver _, fun concrete => ?_, fun _ => ?_⟩
          · simp [declared] at concrete
          · rw [before, standing_of_declared declared, standing_of_declared existingDeclared]
        · rw [if_neg existingDeclared, holder_inherit, ← before]
          exact ⟨rightful, fun concrete => by simp [declared] at concrete, fun _ => rfl⟩
      · have concrete : member.kind.isDeclared = false := Bool.eq_false_iff.mpr declared
        have sameHolder : (if existing.isDeclared then
            (MemberDefinition.ofMember member).inherit existing
          else MemberDefinition.ofMember member).holder =
            (MemberDefinition.ofMember member).holder := by
          split
          · exact holder_inherit _ _
          · rfl
        rw [if_neg (declares ▸ declared), Assembly.seat_set, Assembly.seat_settle, sameHolder]
        refine ⟨takesOver _, fun _ => ?_, fun undefined => absurd concrete undefined⟩
        rw [standing_of_concrete concrete]
        rfl

/-- The own members of a call settle the contest for a name that they define. -/
theorem seat_ownMembers (h : registry.WellFormed) (mem : call ∈ registry.calls)
    (ordinary : Hook.ofName? name = none)
    (rightful : (assembly.seat name false).Rightful registry name false)
    (noRivals : (assembly.seat name false).standing.leader = none →
      (assembly.seat name false).rivals = ∅) :
    Seat.Settled registry name false call.id (Defines registry name false call.id)
      (assembly.seat name false) ((assembly.ownMembers call.spec.members).seat name false) := by
  have sound := h.specs call mem
  have own : ∀ (state : Assembly) (member : SpecMember),
      (name, member) ∈ call.spec.members.entries →
      state.seat name false = assembly.seat name false →
      Seat.Settled registry name false call.id
        (∃ found, some member = some found ∧ found.kind.isDeclared = false)
        (assembly.seat name false) ((state.ownMember member).seat name false) := by
    intro state member memberMem same
    obtain ⟨named, owner⟩ := sound.members.values _ memberMem
    have found : call.spec.member? name = some member :=
      (Keyed.get?_eq_some_iff sound.members).mpr memberMem
    have ownRightful : (MemberDefinition.ofMember member).holder.Rightful registry name false := by
      refine ⟨call, ?_, by simp [FactorySpec.holder?, found]⟩
      rw [show (MemberDefinition.ofMember member).holder.origin = call.id from owner]
      exact h.get?_id mem
    have settled := overrideWith_settled ownRightful (same ▸ rightful) (same ▸ noRivals)
    have notHook : member.hook? = none := by rw [SpecMember.hook?, named, ordinary]
    unfold Assembly.ownMember
    rw [notHook]
    dsimp only
    rw [named, ← same, ← owner]
    simpa using settled
  have defines : Defines registry name false call.id ↔
      ∃ member, call.spec.member? name = some member ∧ member.kind.isDeclared = false := by
    simp [Defines, h.get?_id mem]
  rw [defines]
  exact Assembly.seat_shows.ownMembers sound.members And.left
    (fun member? after => Seat.Settled registry name false call.id
      (∃ member, member? = some member ∧ member.kind.isDeclared = false)
      (assembly.seat name false) after)
    own ⟨rightful, by simp, fun _ => rfl⟩

/-- The own statics of a call settle the contest for a name that they define. -/
theorem seat_ownStatics (h : registry.WellFormed) (mem : call ∈ registry.calls)
    (rightful : (assembly.seat name true).Rightful registry name true) :
    Seat.Settled registry name true call.id (Defines registry name true call.id)
      (assembly.seat name true) ((assembly.ownStatics call.spec.statics).seat name true) := by
  have sound := h.specs call mem
  have own : ∀ (state : Assembly) (entry : StaticDef),
      (name, entry) ∈ call.spec.statics.entries →
      state.seat name true = assembly.seat name true →
      Seat.Settled registry name true call.id (∃ found, some entry = some found)
        (assembly.seat name true) ((state.ownStatic entry).seat name true) := by
    intro state entry entryMem _
    obtain ⟨named, owner⟩ := sound.statics.values _ entryMem
    have found : call.spec.statics.get? name = some entry :=
      (Keyed.get?_eq_some_iff sound.statics).mpr entryMem
    have after : (state.ownStatic entry).seat name true =
        ⟨some (StaticMember.ofStatic entry).holder, ∅⟩ := by
      unfold Assembly.ownStatic
      rw [← show (StaticMember.ofStatic entry).name = name from named, Assembly.seat_setStatic]
      exact congrArg (Seat.mk _) (congrArg Seat.rivals (Assembly.seat_settle state _ true))
    rw [after]
    refine ⟨?_, fun _ => ?_, fun undefined => absurd ⟨entry, rfl⟩ undefined⟩
    · intro holder same
      obtain rfl := Option.some.inj same
      refine ⟨call, ?_, by simp [FactorySpec.holder?, found]⟩
      rw [show (StaticMember.ofStatic entry).holder.origin = call.id from owner]
      exact h.get?_id mem
    · rw [standing_of_concrete rfl]
      exact congrArg (fun id => (⟨some id, ∅⟩ : Standing)) owner
  have defines : Defines registry name true call.id ↔
      ∃ entry, call.spec.statics.get? name = some entry := by
    simp [Defines, h.get?_id mem]
  rw [defines]
  exact Assembly.seat_shows.ownStatics sound.statics And.left
    (fun entry? after => Seat.Settled registry name true call.id (∃ entry, entry? = some entry)
      (assembly.seat name true) after)
    own ⟨rightful, by simp, fun _ => rfl⟩

/-- The own definitions of a call settle every name but those of hooks. -/
theorem seat_own (h : registry.WellFormed) (mem : call ∈ registry.calls)
    (ordinary : isStatic = false → Hook.ofName? name = none)
    (rightful : (assembly.seat name isStatic).Rightful registry name isStatic)
    (noRivals : (assembly.seat name isStatic).standing.leader = none →
      (assembly.seat name isStatic).rivals = ∅) :
    Seat.Settled registry name isStatic call.id (Defines registry name isStatic call.id)
      (assembly.seat name isStatic) ((assembly.own call.spec).seat name isStatic) := by
  rw [Assembly.own_eq]
  cases isStatic with
  | false =>
      have statics : ∀ state : Assembly,
          (state.ownStatics call.spec.statics).seat name false = state.seat name false :=
        Assembly.seat_shows.ownStatics_unseen _
      rw [statics]
      exact seat_ownMembers h mem (ordinary rfl) rightful noRivals
  | true =>
      have members : (assembly.ownMembers call.spec.members).seat name true =
          assembly.seat name true := Assembly.seat_shows.ownMembers_unseen _ assembly
      rw [← members] at rightful ⊢
      exact seat_ownStatics h mem rightful

end Own

end ClassFactory
