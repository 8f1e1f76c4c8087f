/-
Module: ClassFactory.Proofs.Mixins.Crown
Purpose: Who leads in the surface of a call. For ordinary members and for statics alike, a mixin that
  defines a name and covers all the others that do has its definition in place, whatever the order of
  the entries, and what comes of the rivals is that of a contest between the entries.
Main exports: Mergeable.acyclic, Mergeable.merges, surface_crowned, merged_prepared,
  Mergeable.suppliers_acyclic
-/
import ClassFactory.Proofs.Mixins.Dominance
import ClassFactory.Proofs.Mixins.Rivalry

namespace ClassFactory

section Crown

variable {registry : Registry} {options : Options} {name : String} {isStatic : Bool}
  {call : FactoryCall}

/-- Nothing that a merged call covers lies on a cycle. -/
theorem Mergeable.acyclic (m : Mergeable registry options call) (h : registry.WellFormed)
    {id : Nat} (covers : Covers (edges registry options) call.id id) :
    ¬ Reaches (edges registry options) id id := by
  rcases Relation.reflTransGen_iff_eq_or_transGen.mp covers with rfl | reaches
  · exact m.not_reaches_self h
  · obtain ⟨surface, found⟩ := m.exists_surface_of_reaches h reaches
    obtain ⟨mixin, rfl, mergeable, -⟩ := exists_mergeable h found
    exact mergeable.not_reaches_self h

/-- None of the mixins that supply a name to a call includes itself. -/
theorem Mergeable.suppliers_acyclic (m : Mergeable registry options call)
    (h : registry.WellFormed) :
    ∀ id ∈ together
      (fun entry : Nat × Surface => supplied registry options name isStatic entry.1)
      (inclusions registry options call).merged, ¬ Reaches (edges registry options) id id := by
  rw [← m.included_eq h]
  exact fun id mem => m.acyclic h mem.1.to_reflTransGen

/-- For a name that the call does not define, the seat after merging is the outcome of the contest
between its entries. -/
theorem Mergeable.merges (m : Mergeable registry options call) (h : registry.WellFormed)
    (ordinary : isStatic = false → Hook.ofName? name = none)
    (undefined : ¬ Defines registry name isStatic call.id) :
    Merges (edges registry options) (!isStatic) .start
      ((inclusions registry options call).merged.map fun entry =>
        (entry.2.seat name isStatic).standing)
      ((assembled registry options call).seat name isStatic).standing := by
  obtain ⟨before, merges, -, settled⟩ := m.contest h ordinary (merged_upheld h ordinary)
  rwa [settled.other undefined]

/-- A name that the call defines is its own, and nobody rivals it. -/
theorem Mergeable.standing_of_defines (m : Mergeable registry options call)
    (h : registry.WellFormed) (ordinary : isStatic = false → Hook.ofName? name = none)
    (defines : Defines registry name isStatic call.id) :
    ((assembled registry options call).seat name isStatic).standing = ⟨some call.id, ∅⟩ := by
  obtain ⟨_, -, -, settled⟩ := m.contest h ordinary (merged_upheld h ordinary)
  exact settled.own defines

/-- Where each mixin crowns the best supplier, what is merged is prepared for the contest. -/
theorem merged_prepared_of_crowned (h : registry.WellFormed)
    (ordinary : isStatic = false → Hook.ofName? name = none)
    (each : ∀ entry ∈ (inclusions registry options call).merged,
      Crowned (edges registry options) (supplied registry options name isStatic entry.1)
        (entry.2.seat name isStatic).standing) :
    ∀ entry ∈ (inclusions registry options call).merged,
      Prepared (fun entry : Nat × Surface => supplied registry options name isStatic entry.1)
        (fun entry => (entry.2.seat name isStatic).standing) (edges registry options) entry :=
  fun entry mem => ⟨(merged_upheld h ordinary entry mem).dominated, each entry mem⟩

/-- A merged call crowns the best supplier of a name if all its mixins do. -/
theorem Mergeable.crowned (m : Mergeable registry options call) (h : registry.WellFormed)
    (ordinary : isStatic = false → Hook.ofName? name = none)
    (each : ∀ entry ∈ (inclusions registry options call).merged,
      Crowned (edges registry options) (supplied registry options name isStatic entry.1)
        (entry.2.seat name isStatic).standing) :
    Crowned (edges registry options) (supplied registry options name isStatic call.id)
      ((assembled registry options call).seat name isStatic).standing := by
  by_cases defines : Defines registry name isStatic call.id
  · rw [m.standing_of_defines h ordinary defines]
    intro top tops
    have own : call.id ∈ supplied registry options name isStatic call.id := ⟨.refl, defines⟩
    exact congrArg some (eq_of_covers (m.acyclic h .refl) tops.mem.1 (tops.covers _ own))
  · have crowned := (m.merges h ordinary defines).crowned
      (by rw [Set.empty_union]; exact m.suppliers_acyclic h) .start .start
      (merged_prepared_of_crowned h ordinary each)
    rwa [Set.empty_union, ← m.included_eq h, ← supplied_of_not_defines defines] at crowned

/-- In every surface the mixin that covers all others which define a name leads. -/
theorem surface_crowned (h : registry.WellFormed)
    (ordinary : isStatic = false → Hook.ofName? name = none) {id : Nat} {surface : Surface}
    (found : (resolve registry options).surface? id = some surface) :
    Crowned (edges registry options) (supplied registry options name isStatic id)
      (surface.seat name isStatic).standing := by
  refine surface_induction (fun id surface =>
    Crowned (edges registry options) (supplied registry options name isStatic id)
      (surface.seat name isStatic).standing) h (fun call mergeable sound each => ?_) found
  rw [seat_exposed (assembled_sound h call) fun component =>
    pending_eq_nil_of_sound component sound]
  exact mergeable.crowned h ordinary each

/-- Every entry comes to the contest with one of its own that was led by whoever covers all. -/
theorem merged_prepared (h : registry.WellFormed)
    (ordinary : isStatic = false → Hook.ofName? name = none) :
    ∀ entry ∈ (inclusions registry options call).merged,
      Prepared (fun entry : Nat × Surface => supplied registry options name isStatic entry.1)
        (fun entry => (entry.2.seat name isStatic).standing) (edges registry options) entry :=
  merged_prepared_of_crowned h ordinary fun _ mem =>
    surface_crowned h ordinary (surface?_of_mem_merged mem)

end Crown

end ClassFactory
