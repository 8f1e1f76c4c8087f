/-
Module: ClassFactory.Proofs.Mixins.StaticAmbiguity
Purpose: For which statics of a component the resolver reports siblings. Once two siblings have met
  under a name, no mixin that comes after them settles it: a static is reported wherever some of the
  first entries, taken together, supply the name without a mixin that covers all who define it.
Main exports: StaticUnsettled, keepsRivals_iff, surface_rivals_iff_staticUnsettled,
  static_ambiguity_reported_iff
-/
import ClassFactory.Proofs.Mixins.Crown
import ClassFactory.Proofs.Mixins.Plain
import ClassFactory.Proofs.Mixins.Siblings

namespace ClassFactory

/-- The static of a name stays ambiguous when a call that does not define it is merged. -/
inductive StaticUnsettled (registry : Registry) (options : Options) (name : String) :
    Nat → Prop where
  /-- Among the mixins that the first few entries bring in, nobody who defines the static covers all
  the others that do. -/
  | met {id : Nat} {earlier rest : List Nat} (undefined : ¬ Defines registry name true id)
      (entries : (edges registry options id).map Prod.fst = earlier ++ rest)
      (some : (together (supplied registry options name true) earlier).Nonempty)
      (nobody : ¬ ∃ top, Tops (edges registry options)
        (together (supplied registry options name true) earlier) top) :
      StaticUnsettled registry options name id
  /-- An entry leaves the static ambiguous itself. -/
  | carried {id entry : Nat} (undefined : ¬ Defines registry name true id)
      (leads : Leads (edges registry options) id entry)
      (unsettled : StaticUnsettled registry options name entry) :
      StaticUnsettled registry options name id

section Rivals

variable {registry : Registry} {options : Options} {name : String} {call : FactoryCall}

/-- A call that stays unsettled does not define the static itself. -/
theorem StaticUnsettled.undefined {id : Nat}
    (unsettled : StaticUnsettled registry options name id) : ¬ Defines registry name true id := by
  cases unsettled with
  | met undefined => exact undefined
  | carried undefined => exact undefined

/-- What suppliers bring in together does not depend on how they are listed. -/
theorem together_map {ι κ : Type} (suppliers : κ → Set Nat) (key : ι → κ) (items : List ι) :
    together suppliers (items.map key) = together (fun item => suppliers (key item)) items := by
  ext id
  simp [together]

/-- What the contest of a call keeps is what its entries keep, entry by entry. -/
theorem keepsRivals_iff {id : Nat} {merged : List (Nat × Surface)}
    (undefined : ¬ Defines registry name true id)
    (ids : merged.map Prod.fst = (edges registry options id).map Prod.fst)
    (each : ∀ entry ∈ merged, (entry.2.seat name true).standing.rivals.Nonempty ↔
      StaticUnsettled registry options name entry.1) :
    KeepsRivals (fun entry : Nat × Surface => supplied registry options name true entry.1)
        (fun entry => (entry.2.seat name true).standing) (edges registry options) merged ↔
      StaticUnsettled registry options name id := by
  constructor
  · intro keeps
    cases keeps with
    | brought mem rivals =>
        have listed := ids ▸ List.mem_map_of_mem mem
        obtain ⟨⟨_, site⟩, leads, rfl⟩ := List.mem_map.mp listed
        exact .carried undefined ⟨site, leads⟩ ((each _ mem).mp rivals)
    | apart split some nobody =>
        subst split
        rw [← together_map (supplied registry options name true) Prod.fst] at some nobody
        exact .met undefined (ids.symm.trans (List.map_append)) some nobody
  · intro unsettled
    cases unsettled with
    | met _ entries some nobody =>
        rw [← ids] at entries
        obtain ⟨before, after, split, rfl, rfl⟩ := List.map_eq_append_iff.mp entries
        rw [together_map] at some nobody
        exact .apart split some nobody
    | carried _ leads unsettled =>
        obtain ⟨site, mem⟩ := leads
        have listed := ids ▸ List.mem_map_of_mem mem
        obtain ⟨entry, entryMem, rfl⟩ := List.mem_map.mp listed
        exact .brought entryMem ((each entry entryMem).mpr unsettled)

/-- When a call is merged, rivals for a static are left just if it stays ambiguous. -/
theorem Mergeable.rivals_iff_staticUnsettled (m : Mergeable registry options call)
    (h : registry.WellFormed)
    (each : ∀ entry ∈ (inclusions registry options call).merged,
      (entry.2.seat name true).standing.rivals.Nonempty ↔
        StaticUnsettled registry options name entry.1) :
    ((assembled registry options call).seat name true).standing.rivals.Nonempty ↔
      StaticUnsettled registry options name call.id := by
  by_cases defines : Defines registry name true call.id
  · rw [m.standing_of_defines h (by simp) defines]
    constructor
    · intro rivals
      exact absurd rivals Set.not_nonempty_empty
    · intro unsettled
      exact absurd defines unsettled.undefined
  · rw [(m.merges h (by simp) defines).keeps_rivals_iff (m.suppliers_acyclic h)
      (merged_prepared h (by simp))]
    exact keepsRivals_iff defines (m.merged_ids h) each

/-- A surface has rivals for a static just if the static stays ambiguous. -/
theorem surface_rivals_iff_staticUnsettled (h : registry.WellFormed) {id : Nat}
    {surface : Surface} (found : (resolve registry options).surface? id = some surface) :
    (surface.seat name true).standing.rivals.Nonempty ↔
      StaticUnsettled registry options name id := by
  refine surface_induction (fun id surface =>
    (surface.seat name true).standing.rivals.Nonempty ↔
      StaticUnsettled registry options name id) h (fun call mergeable sound each => ?_) found
  rw [seat_exposed (assembled_sound h call) fun component =>
    pending_eq_nil_of_sound component sound]
  exact mergeable.rivals_iff_staticUnsettled h each

end Rivals

/-- For a component whose mixins all resolved, siblings are reported for a static just if the static
stays ambiguous, provided that every entry is looked at; and they are reported once at most. The
resolution reports the findings of each call in its one turn. -/
theorem static_ambiguity_reported_iff {registry : Registry} {options : Options}
    (h : registry.WellFormed) {call : FactoryCall} (mem : call ∈ registry.calls)
    (component : call.isComponent = true)
    (resolved : ∀ inner, Leads (edges registry options) call.id inner →
      ∃ surface, (resolve registry options).surface? inner = some surface) (name : String) :
    ((∃ problem ∈ findings registry options call,
        ReportsSiblings registry call name true problem) ↔
      hasBadEntry registry options call = false ∧
        .leftOut ∉ dependencies registry options call ∧
        StaticUnsettled registry options name call.id) ∧
    ((findings registry options call).Pairwise fun one other =>
      ¬ (ReportsSiblings registry call name true one ∧
        ReportsSiblings registry call name true other)) ∧
    ReportsByCall registry options := by
  have each : ∀ entry ∈ (inclusions registry options call).merged,
      (entry.2.seat name true).standing.rivals.Nonempty ↔
        StaticUnsettled registry options name entry.1 :=
    fun _ mem => surface_rivals_iff_staticUnsettled h (surface?_of_mem_merged mem)
  exact siblings_reported_iff h mem component resolved
    fun merged => merged.rivals_iff_staticUnsettled h each

/-- Two sibling mixins with a static of one name, one that includes both and defines it again, and a
component that includes the last one after the others. -/
def metRegistry : Registry :=
  staticRegistry [⟨⟨.mixin, "Left", [], []⟩, ["shared"]⟩, ⟨⟨.mixin, "Right", [], []⟩, ["shared"]⟩,
    ⟨⟨.mixin, "Over", ["Left", "Right"], []⟩, ["shared"]⟩,
    ⟨⟨.component, "User", ["Left", "Right", "Over"], ["render"]⟩, []⟩]

/-- The static is reported for the component though one of its mixins covers all that define it. -/
theorem static_ambiguity_reported_iff_met :
    ∃ call, metRegistry.get? 3 = some call ∧
      (∃ problem ∈ findings metRegistry .standard call,
        ReportsSiblings metRegistry call "shared" true problem) ∧
      StaticUnsettled metRegistry .standard "shared" 3 ∧
      Tops (edges metRegistry .standard)
        (included metRegistry .standard "shared" true 3) 2 := by
  have sound : metRegistry.WellFormed := staticRegistry_wellFormed _
  obtain ⟨call, found, isComponent, siblings⟩ : ∃ call, metRegistry.get? 3 = some call ∧
      call.isComponent = true ∧ ambiguityProblem metRegistry call
        ⟨"shared", true, [(0, default), (1, default)]⟩ ∈ findings metRegistry .standard call :=
    ⟨_, rfl, rfl, by decide⟩
  have number : call.id = 3 := sound.id_of_get? found
  have entries : ∀ entry ∈ edges metRegistry .standard 3,
      ((resolve metRegistry .standard).surface? entry.1).isSome = true := by decide
  have resolved : ∀ inner, Leads (edges metRegistry .standard) call.id inner →
      ∃ surface, (resolve metRegistry .standard).surface? inner = some surface :=
    fun inner ⟨site, entry⟩ => Option.isSome_iff_exists.mp (entries (inner, site) (number ▸ entry))
  have reported : ∃ problem ∈ findings metRegistry .standard call,
      ReportsSiblings metRegistry call "shared" true problem := ⟨_, siblings, _, rfl⟩
  have unsettled : StaticUnsettled metRegistry .standard "shared" 3 :=
    number ▸ ((static_ambiguity_reported_iff sound (Registry.mem_of_get? found) isComponent
      resolved "shared").1.mp reported).2.2
  have overrides : Leads (edges metRegistry .standard) 3 2 := ⟨default, by decide⟩
  have left : Leads (edges metRegistry .standard) 2 0 := ⟨default, by decide⟩
  have right : Leads (edges metRegistry .standard) 2 1 := ⟨default, by decide⟩
  have below : ∀ id ≤ 3, ∀ entry ∈ edges metRegistry .standard id, entry.1 < 3 := by decide
  have few : ∀ {mixin : Nat}, Reaches (edges metRegistry .standard) 3 mixin → mixin < 3 := by
    intro mixin reaches
    induction reaches with
    | single entry => exact below 3 le_rfl _ entry.choose_spec
    | tail _ entry ih => exact below _ ih.le _ entry.choose_spec
  refine ⟨call, found, reported, unsettled, ⟨.single overrides, _, rfl, _, rfl⟩, ?_⟩
  rintro mixin ⟨reaches, -⟩
  have small : mixin < 3 := few reaches
  obtain rfl | rfl | rfl : mixin = 0 ∨ mixin = 1 ∨ mixin = 2 := by omega
  · exact .single left
  · exact .single right
  · exact .refl

end ClassFactory
