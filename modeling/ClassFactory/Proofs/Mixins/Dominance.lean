/-
Module: ClassFactory.Proofs.Mixins.Dominance
Purpose: No component that resolves was given one of two sibling definitions silently. Along the
  order in which calls are resolved, whoever supplies a name is covered by the definition in place
  or by a mixin noted as ambiguous, and a component resolves only with nothing left ambiguous.
Main exports: supplied, included, Surface.Upheld, Mergeable.contest, surface_upheld,
  definition_dominates
-/
import ClassFactory.Proofs.Mixins.Contest
import ClassFactory.Proofs.Mixins.Plain

namespace ClassFactory

/-- The mixins that define a name among those that a call covers. -/
def supplied (registry : Registry) (options : Options) (name : String) (isStatic : Bool)
    (id : Nat) : Set Nat :=
  { mixin | Covers (edges registry options) id mixin ∧ Defines registry name isStatic mixin }

/-- The mixins that define a name among those that a call includes, directly or through others. -/
def included (registry : Registry) (options : Options) (name : String) (isStatic : Bool)
    (id : Nat) : Set Nat :=
  { mixin | Reaches (edges registry options) id mixin ∧ Defines registry name isStatic mixin }

/-- What holds of the seat of a name in the surface of a call. -/
structure Surface.Upheld (registry : Registry) (options : Options) (name : String)
    (isStatic : Bool) (id : Nat) (surface : Surface) : Prop where
  fitting : surface.Fitting
  rightful : (surface.seat name isStatic).Rightful registry name isStatic
  dominated : Dominated (edges registry options) (supplied registry options name isStatic id)
    (surface.seat name isStatic).standing

section Dominance

variable {registry : Registry} {options : Options} {name : String} {isStatic : Bool}
  {call : FactoryCall}

/-- The mixins contending for a name are those that the pending ambiguities of it list. -/
theorem Assembly.mem_contested_iff {assembly : Assembly}
    (distinct : Ambiguity.Distinct assembly.pending) {id : Nat} :
    id ∈ (assembly.contested name isStatic).map Prod.fst ↔
      id ∈ rivalsIn assembly.pending name isStatic := by
  unfold contested ambiguity?
  constructor
  · cases found : assembly.pending.find? (concerns name isStatic) with
    | none => simp
    | some ambiguity =>
        intro mem
        exact ⟨ambiguity, List.mem_of_find?_eq_some found, List.find?_some found, mem⟩
  · rintro ⟨ambiguity, mem, concerned, isOrigin⟩
    cases found : assembly.pending.find? (concerns name isStatic) with
    | none => exact absurd concerned (List.find?_eq_none.mp found ambiguity mem)
    | some other =>
        have same : other = ambiguity := by
          obtain ⟨sameName, sameKind⟩ := concerns_iff.mp concerned
          obtain ⟨otherName, otherKind⟩ := concerns_iff.mp (List.find?_some found)
          exact List.inj_on_of_nodup_map distinct.names (List.mem_of_find?_eq_some found) mem
            (by rw [sameName, sameKind, otherName, otherKind])
        rw [same]
        exact isOrigin

/-- A surface has the seats of the assembly, if a component left nothing ambiguous. -/
theorem seat_exposed {assembly : Assembly} (sound : assembly.Sound)
    (settled : call.isComponent = true → assembly.pending = []) :
    (exposed call assembly).seat name isStatic = assembly.seat name isStatic := by
  have rivals : rivalsIn (exposed call assembly).ambiguities name isStatic =
      { id | id ∈ (assembly.contested name isStatic).map Prod.fst } := by
    ext id
    rw [Set.mem_ofPred_eq, Assembly.mem_contested_iff sound.pending]
    unfold exposed
    split
    · rename_i component
      simp [sound.none, settled component]
    · rfl
  have holder : (exposed call assembly).holder? name isStatic =
      assembly.surface.holder? name isStatic :=
    exposed_view (fun surface => surface.holder? name isStatic)
      (fun _ _ => by cases isStatic <;> rfl) call assembly
  rw [Surface.seat, rivals, holder]
  rfl

/-- An assembly of a component about which nothing is reported has nothing pending. -/
theorem pending_eq_nil_of_sound (component : call.isComponent = true) {assembly : Assembly}
    (sound : assemblyProblems registry call assembly = []) : assembly.pending = [] := by
  simp only [assemblyProblems, component, if_true, List.append_eq_nil_iff,
    List.map_eq_nil_iff] at sound
  exact sound.2.1

/-! ## The contest of a call -/

/-- Of what a call includes, all inclusions are known when the call has its turn. -/
theorem Mergeable.informed (m : Mergeable registry options call) (h : registry.WellFormed) :
    Informed (edges registry options) (resolutionsBefore registry options call.id).includes
      { outer | Reaches (edges registry options) call.id outer } :=
  fun _ reaches _ => m.includes_before_iff h reaches

/-- What a call includes is what its entries supply. -/
theorem Mergeable.included_eq (m : Mergeable registry options call) (h : registry.WellFormed) :
    included registry options name isStatic call.id =
      together (fun entry : Nat × Surface => supplied registry options name isStatic entry.1)
        (inclusions registry options call).merged := by
  ext mixin
  constructor
  · rintro ⟨reaches, defines⟩
    obtain ⟨inner, leads, covers⟩ := Relation.TransGen.head'_iff.mp reaches
    obtain ⟨surface, mem⟩ := (m.leads_iff_merged h).mp leads
    exact ⟨(inner, surface), mem, covers, defines⟩
  · rintro ⟨entry, mem, covers, defines⟩
    exact ⟨.head' ((m.leads_iff_merged h).mpr ⟨entry.2, mem⟩) covers, defines⟩

theorem supplied_of_defines {id : Nat} (defines : Defines registry name isStatic id) :
    supplied registry options name isStatic id =
      insert id (included registry options name isStatic id) := by
  ext mixin
  constructor
  · rintro ⟨covers, definesMixin⟩
    exact (Relation.reflTransGen_iff_eq_or_transGen.mp covers).imp_right
      fun reaches => ⟨reaches, definesMixin⟩
  · rintro (rfl | ⟨reaches, definesMixin⟩)
    · exact ⟨.refl, defines⟩
    · exact ⟨reaches.to_reflTransGen, definesMixin⟩

/-- A call that does not define a name supplies what its mixins do. -/
theorem supplied_of_not_defines {id : Nat} (undefined : ¬ Defines registry name isStatic id) :
    supplied registry options name isStatic id =
      included registry options name isStatic id := by
  ext mixin
  constructor
  · rintro ⟨covers, defines⟩
    rcases Relation.reflTransGen_iff_eq_or_transGen.mp covers with rfl | reaches
    · exact absurd defines undefined
    · exact ⟨reaches, defines⟩
  · rintro ⟨reaches, defines⟩
    exact ⟨reaches.to_reflTransGen, defines⟩

/-- Whatever an entry supplies is included in the call. -/
theorem Mergeable.reaches_of_supplied (m : Mergeable registry options call)
    (h : registry.WellFormed) {entry : Nat × Surface}
    (mem : entry ∈ (inclusions registry options call).merged) {mixin : Nat}
    (supplies : mixin ∈ supplied registry options name isStatic entry.1) :
    Reaches (edges registry options) call.id mixin :=
  Relation.TransGen.head' ((m.leads_iff_merged h).mpr ⟨entry.2, mem⟩) supplies.1

/-- Merging one mixin after another is a run of the contest. -/
theorem seat_merged (h : registry.WellFormed) {includes : Includes} {scope : Set Nat}
    (informed : Informed (edges registry options) includes scope)
    (ordinary : isStatic = false → Hook.ofName? name = none) {entries : List (Nat × Surface)}
    (each : ∀ entry ∈ entries, entry.2.Upheld registry options name isStatic entry.1)
    (known : ∀ entry ∈ entries, supplied registry options name isStatic entry.1 ⊆ scope)
    {start : Assembly} (rightful : (start.seat name isStatic).Rightful registry name isStatic)
    {seen : Set Nat} (seenKnown : seen ⊆ scope)
    (dominated : Dominated (edges registry options) seen (start.seat name isStatic).standing) :
    ((entries.foldl (fun a entry => a.addMixin includes entry.1 entry.2) start).seat name
        isStatic).Rightful registry name isStatic ∧
      Merges (edges registry options) (!isStatic) (start.seat name isStatic).standing
        (entries.map fun entry => (entry.2.seat name isStatic).standing)
        ((entries.foldl (fun a entry => a.addMixin includes entry.1 entry.2) start).seat name
          isStatic).standing := by
  induction entries generalizing start seen with
  | nil => exact ⟨rightful, .done _⟩
  | cons entry rest ih =>
      have upheld := each entry List.mem_cons_self
      have suppliedKnown := known entry List.mem_cons_self
      obtain ⟨nextRightful, adds⟩ := seat_addMixin h informed ordinary upheld.fitting entry.1
        rightful (fun leader leads => seenKnown (dominated.leading leader leads)) upheld.rightful
        (fun leader leads => suppliedKnown (upheld.dominated.leading leader leads))
      obtain ⟨afterRightful, others⟩ := ih
        (fun later mem => each later (List.mem_cons_of_mem _ mem))
        (fun later mem => known later (List.mem_cons_of_mem _ mem)) nextRightful
        (Set.union_subset seenKnown suppliedKnown) (dominated.adds upheld.dominated adds)
      exact ⟨afterRightful, .next adds others⟩

theorem seat_empty (pureRender : Bool) :
    (Assembly.empty pureRender).seat name isStatic = ⟨none, ∅⟩ := by
  cases isStatic <;>
    simp [Assembly.seat, Assembly.empty, Assembly.contested, Assembly.ambiguity?,
      Surface.holder?, Surface.primary?, Surface.member?, Surface.empty, Keyed.get?, Keyed.empty,
      Keyed.lookup]

/-- The seat of a name when a call is merged: a run of the contest, then the own definitions. -/
theorem Mergeable.contest (m : Mergeable registry options call) (h : registry.WellFormed)
    (ordinary : isStatic = false → Hook.ofName? name = none)
    (each : ∀ entry ∈ (inclusions registry options call).merged,
      entry.2.Upheld registry options name isStatic entry.1) :
    ∃ before : Seat,
      Merges (edges registry options) (!isStatic) .start
        ((inclusions registry options call).merged.map fun entry =>
          (entry.2.seat name isStatic).standing) before.standing ∧
      Dominated (edges registry options) (included registry options name isStatic call.id)
        before.standing ∧
      Seat.Settled registry name isStatic call.id (Defines registry name isStatic call.id) before
        ((assembled registry options call).seat name isStatic) := by
  have startRightful : ((Assembly.empty (inclusions registry options call).pureRender).seat name
      isStatic).Rightful registry name isStatic := by
    rw [seat_empty]
    simp [Seat.Rightful]
  have startStanding : ((Assembly.empty (inclusions registry options call).pureRender).seat name
      isStatic).standing = .start := by
    rw [seat_empty]
    rfl
  obtain ⟨rightful, merges⟩ := seat_merged h (m.informed h) ordinary each
    (fun entry mem _ supplies => m.reaches_of_supplied h mem supplies) startRightful
    (Set.empty_subset _) (by rw [startStanding]; exact .start)
  rw [startStanding] at merges
  have dominated := Merges.dominated
    (fun entry : Nat × Surface => supplied registry options name isStatic entry.1)
    (fun entry => (entry.2.seat name isStatic).standing) .start
    (fun entry mem => (each entry mem).dominated) merges
  rw [Set.empty_union, ← m.included_eq h] at dominated
  exact ⟨_, merges, dominated, seat_own h m.mem ordinary rightful dominated.noRivals⟩

/-- Whoever supplies a name to a call that is merged is covered by the definition in place or by a
mixin that is noted as ambiguous. -/
theorem Mergeable.dominated (m : Mergeable registry options call) (h : registry.WellFormed)
    (ordinary : isStatic = false → Hook.ofName? name = none)
    (each : ∀ entry ∈ (inclusions registry options call).merged,
      entry.2.Upheld registry options name isStatic entry.1) :
    Dominated (edges registry options) (supplied registry options name isStatic call.id)
      ((assembled registry options call).seat name isStatic).standing := by
  obtain ⟨before, -, dominated, settled⟩ := m.contest h ordinary each
  by_cases defines : Defines registry name isStatic call.id
  · rw [settled.own defines, supplied_of_defines defines]
    exact .override fun mixin includes => includes.1.to_reflTransGen
  · rw [settled.other defines, supplied_of_not_defines defines]
    exact dominated

/-- Every surface upholds its seats. -/
theorem surface_upheld (h : registry.WellFormed)
    (ordinary : isStatic = false → Hook.ofName? name = none) {id : Nat} {surface : Surface}
    (found : (resolve registry options).surface? id = some surface) :
    surface.Upheld registry options name isStatic id := by
  refine surface_induction (fun id surface => surface.Upheld registry options name isStatic id) h
    (fun call mergeable sound each => ?_) found
  have assembledSound : (assembled registry options call).Sound := assembled_sound h call
  have sameSeat : (exposed call (assembled registry options call)).seat name isStatic =
      (assembled registry options call).seat name isStatic :=
    seat_exposed assembledSound fun component => pending_eq_nil_of_sound component sound
  obtain ⟨_, -, -, settled⟩ := mergeable.contest h ordinary each
  refine ⟨(assembledSound.exposed call).fitting, ?_, ?_⟩
  · rw [sameSeat]
    exact settled.rightful
  · rw [sameSeat]
    exact mergeable.dominated h ordinary each

/-- What is merged into a call has the seat of a name upheld, mixin by mixin. -/
theorem merged_upheld (h : registry.WellFormed)
    (ordinary : isStatic = false → Hook.ofName? name = none) :
    ∀ entry ∈ (inclusions registry options call).merged,
      entry.2.Upheld registry options name isStatic entry.1 :=
  fun _ mem => surface_upheld h ordinary (surface?_of_mem_merged mem)

/-- The mixin whose definition is in place in a component covers all that the component includes and
that define the name. -/
theorem leader_covers (h : registry.WellFormed)
    (ordinary : isStatic = false → Hook.ofName? name = none) {id : Nat} {surface : Surface}
    (found : (resolve registry options).surface? id = some surface)
    (component : ∃ call, registry.get? id = some call ∧ call.isComponent = true)
    {leader : Nat} (leads : (surface.seat name isStatic).standing.leader = some leader) :
    ∀ mixin ∈ surface.includes, Defines registry name isStatic mixin →
      Covers (edges registry options) leader mixin := by
  intro mixin includes defines
  have upheld : surface.Upheld registry options name isStatic id := surface_upheld h ordinary found
  have reaches := (mem_includes_iff h found).mp includes
  refine upheld.dominated.leader_covers leads ?_ ⟨reaches.to_reflTransGen, defines⟩
  obtain ⟨call, rfl, mergeable, -, rfl⟩ := exists_mergeable h found
  obtain ⟨again, foundAgain, isComponent⟩ := component
  obtain rfl := Option.some.inj ((h.get?_id mergeable.mem).symm.trans foundAgain)
  have none : (exposed call (assembled registry options call)).ambiguities = [] := by
    unfold exposed
    rw [if_pos isComponent]
    exact (assembled_sound h call).none
  simp [Surface.seat, Seat.standing, rivalsIn, none]

/-- A leader that covers a mixin is that mixin, or its surface lists the mixin. -/
theorem eq_or_includes_of_covers (h : registry.WellFormed) {id leader mixin : Nat}
    {surface : Surface} (found : (resolve registry options).surface? id = some surface)
    (leading : Covers (edges registry options) id leader)
    (covers : Covers (edges registry options) leader mixin) :
    mixin = leader ∨ (resolve registry options).resolutions.includes leader mixin = true := by
  have resolved : ∃ owner, (resolve registry options).surface? leader = some owner := by
    rcases Relation.reflTransGen_iff_eq_or_transGen.mp leading with rfl | reaches
    · exact ⟨surface, found⟩
    · obtain ⟨call, rfl, mergeable, -⟩ := exists_mergeable h found
      exact mergeable.exists_surface_of_reaches h reaches
  obtain ⟨owner, ownerFound⟩ := resolved
  refine (Relation.reflTransGen_iff_eq_or_transGen.mp covers).imp_right fun reaches => ?_
  have listed := (mem_includes_iff h ownerFound).mpr reaches
  have ownerKnown : (resolve registry options).resolutions.surface? leader = some owner :=
    ownerFound
  simpa [Resolutions.includes, ownerKnown] using listed

end Dominance

/-- In a component that resolved, the definition in place is the component's own or that of a mixin
which includes every other mixin with a definition of the name; and so for statics. A name that two
siblings define is never settled silently. -/
theorem definition_dominates {registry : Registry} {options : Options} (h : registry.WellFormed)
    {id : Nat} {surface : Surface}
    (found : (resolve registry options).surface? id = some surface)
    (component : ∃ call, registry.get? id = some call ∧ call.isComponent = true) :
    (∀ name definition, Hook.ofName? name = none → surface.primary? name = some definition →
      definition.isDeclared = false →
      definition.origin = id ∨
        ∀ mixin ∈ surface.includes, Defines registry name false mixin →
          mixin = definition.origin ∨
            (resolve registry options).resolutions.includes definition.origin mixin = true) ∧
    (∀ name entry, surface.statics.get? name = some entry →
      entry.origin = id ∨
        ∀ mixin ∈ surface.includes, Defines registry name true mixin →
          mixin = entry.origin ∨
            (resolve registry options).resolutions.includes entry.origin mixin = true) := by
  constructor
  · intro name definition ordinary isPrimary concrete
    have leads : (surface.seat name false).standing.leader = some definition.origin := by
      simp [Surface.seat, Seat.standing, Surface.holder?, isPrimary, MemberDefinition.holder,
        Holder.leader?, concrete]
    have upheld : surface.Upheld registry options name false id :=
      surface_upheld h (fun _ => ordinary) found
    refine .inr fun mixin includes defines => ?_
    exact eq_or_includes_of_covers h found (upheld.dominated.leading _ leads).1
      (leader_covers h (fun _ => ordinary) found component leads mixin includes defines)
  · intro name entry isStatic
    have leads : (surface.seat name true).standing.leader = some entry.origin := by
      simp [Surface.seat, Seat.standing, Surface.holder?, isStatic, StaticMember.holder,
        Holder.leader?]
    have upheld : surface.Upheld registry options name true id :=
      surface_upheld h (by simp) found
    refine .inr fun mixin includes defines => ?_
    exact eq_or_includes_of_covers h found (upheld.dominated.leading _ leads).1
      (leader_covers h (by simp) found component leads mixin includes defines)

/-- A component with two mixins of which the second includes the first, both with a definition of
one name. -/
def overridingRegistry : Registry :=
  plainRegistry [⟨.mixin, "Base", [], ["toggle"]⟩, ⟨.mixin, "Over", ["Base"], ["toggle"]⟩,
    ⟨.component, "User", ["Base", "Over"], ["render"]⟩]

/-- The definition of the mixin that includes the other is in place. -/
theorem definition_dominates_overriding :
    ∃ surface definition, (resolve overridingRegistry .standard).surface? 2 = some surface ∧
      surface.primary? "toggle" = some definition ∧ definition.origin = 1 ∧
      (definition.origin = 2 ∨
        ∀ mixin ∈ surface.includes, Defines overridingRegistry "toggle" false mixin →
          mixin = definition.origin ∨ (resolve overridingRegistry .standard).resolutions.includes
            definition.origin mixin = true) := by
  have sound : overridingRegistry.WellFormed := plainRegistry_wellFormed _
  have component : ∃ call, overridingRegistry.get? 2 = some call ∧ call.isComponent = true :=
    ⟨_, rfl, rfl⟩
  have primary : (((resolve overridingRegistry .standard).surface? 2).bind fun surface =>
      (surface.primary? "toggle").map MemberDefinition.holder) = some ⟨⟨1, 0⟩, 1, false⟩ := by
    decide
  obtain ⟨surface, found, held⟩ := Option.bind_eq_some_iff.mp primary
  obtain ⟨definition, isPrimary, holder⟩ := Option.map_eq_some_iff.mp held
  have concrete : definition.isDeclared = false := congrArg Holder.isDeclared holder
  exact ⟨surface, definition, found, isPrimary, congrArg Holder.origin holder,
    (definition_dominates sound found component).1 "toggle" definition (by decide) isPrimary
      concrete⟩

end ClassFactory
