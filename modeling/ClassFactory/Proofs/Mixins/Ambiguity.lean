/-
Module: ClassFactory.Proofs.Mixins.Ambiguity
Purpose: For which names of a component the resolver reports siblings. It does so where no mixin
  covers all the others that define the name, and besides where the mixin that does came at the
  wrong time: siblings that another entry brings along are forgotten only if it comes after them.
Main exports: Unsettled, leavesRivals_iff, surface_rivals_iff_unsettled, ambiguity_reported_iff
-/
import ClassFactory.Proofs.Mixins.Crown
import ClassFactory.Proofs.Mixins.Siblings

namespace ClassFactory

/-- A name stays ambiguous when a call that does not define it is merged. -/
inductive Unsettled (registry : Registry) (options : Options) (name : String) : Nat → Prop where
  /-- No mixin that defines the name covers all the others that do. -/
  | siblings {id : Nat} (undefined : ¬ Defines registry name false id)
      (some : (included registry options name false id).Nonempty)
      (nobody : ¬ ∃ top, Tops (edges registry options)
        (included registry options name false id) top) :
      Unsettled registry options name id
  /-- One does, but an entry after the one that brings it in leaves the name ambiguous itself. -/
  | late {id top first later : Nat} {earlier rest : List Nat}
      (undefined : ¬ Defines registry name false id)
      (tops : Tops (edges registry options) (included registry options name false id) top)
      (entries : (edges registry options id).map Prod.fst = earlier ++ first :: rest)
      (comes : Covers (edges registry options) first top)
      (fresh : ∀ entry ∈ earlier, ¬ Covers (edges registry options) entry top)
      (mem : later ∈ rest) (unsettled : Unsettled registry options name later) :
      Unsettled registry options name id
  /-- One does, but the entry that brings it in leaves the name ambiguous itself, and no entry
  before that one supplies a definition. -/
  | only {id top first : Nat} {earlier rest : List Nat}
      (undefined : ¬ Defines registry name false id)
      (tops : Tops (edges registry options) (included registry options name false id) top)
      (entries : (edges registry options id).map Prod.fst = earlier ++ first :: rest)
      (comes : Covers (edges registry options) first top)
      (nobody : ∀ entry ∈ earlier, supplied registry options name false entry = ∅)
      (unsettled : Unsettled registry options name first) :
      Unsettled registry options name id

/-! ## Rivals that are left -/

section Rivals

variable {registry : Registry} {options : Options} {name : String} {call : FactoryCall}

/-- What the contest of a call leaves is what its entries leave, entry by entry. -/
theorem leavesRivals_iff {id : Nat} {merged : List (Nat × Surface)}
    (undefined : ¬ Defines registry name false id)
    (ids : merged.map Prod.fst = (edges registry options id).map Prod.fst)
    (suppliers : included registry options name false id =
      together (fun entry : Nat × Surface => supplied registry options name false entry.1) merged)
    (each : ∀ entry ∈ merged, (entry.2.seat name false).standing.rivals.Nonempty ↔
      Unsettled registry options name entry.1) :
    LeavesRivals (fun entry : Nat × Surface => supplied registry options name false entry.1)
        (fun entry => (entry.2.seat name false).standing) (edges registry options) merged ↔
      Unsettled registry options name id := by
  constructor
  · intro leaves
    cases leaves with
    | siblings some nobody =>
        rw [← suppliers] at some nobody
        exact .siblings undefined some nobody
    | late tops split comes fresh mem rivals =>
        subst split
        rw [← suppliers] at tops
        refine .late undefined tops (ids.symm.trans (List.map_append)) comes.1 ?_
          (List.mem_map_of_mem mem) ((each _ (by simp [mem])).mp rivals)
        intro entry listed covers
        obtain ⟨item, itemMem, rfl⟩ := List.mem_map.mp listed
        exact fresh item itemMem ⟨covers, tops.mem.2⟩
    | only tops split comes nobody rivals =>
        subst split
        rw [← suppliers] at tops
        refine .only undefined tops (ids.symm.trans (List.map_append)) comes.1 ?_
          ((each _ (by simp)).mp rivals)
        intro entry listed
        obtain ⟨item, itemMem, rfl⟩ := List.mem_map.mp listed
        exact nobody item itemMem
  · intro unsettled
    cases unsettled with
    | siblings _ some nobody =>
        rw [suppliers] at some nobody
        exact .siblings some nobody
    | late _ tops entries comes fresh mem unsettled =>
        rw [← ids] at entries
        obtain ⟨before, after, rfl, rfl, split⟩ := List.map_eq_append_iff.mp entries
        obtain ⟨first, rest, rfl, rfl, rfl⟩ := List.map_eq_cons_iff.mp split
        obtain ⟨later, laterMem, rfl⟩ := List.mem_map.mp mem
        have topDefines := tops.mem.2
        rw [suppliers] at tops
        refine .late tops rfl ⟨comes, topDefines⟩ ?_ laterMem
          ((each later (by simp [laterMem])).mpr unsettled)
        exact fun item itemMem supplies => fresh _ (List.mem_map_of_mem itemMem) supplies.1
    | only _ tops entries comes nobody unsettled =>
        rw [← ids] at entries
        obtain ⟨before, after, rfl, rfl, split⟩ := List.map_eq_append_iff.mp entries
        obtain ⟨first, rest, rfl, rfl, rfl⟩ := List.map_eq_cons_iff.mp split
        have topDefines := tops.mem.2
        rw [suppliers] at tops
        exact .only tops rfl ⟨comes, topDefines⟩
          (fun item itemMem => nobody _ (List.mem_map_of_mem itemMem))
          ((each first (by simp)).mpr unsettled)

/-- A call that stays unsettled does not define the member itself. -/
theorem Unsettled.undefined {id : Nat} (unsettled : Unsettled registry options name id) :
    ¬ Defines registry name false id := by
  cases unsettled with
  | siblings undefined => exact undefined
  | late undefined => exact undefined
  | only undefined => exact undefined

/-- When a call is merged, rivals are left just if the name stays ambiguous. -/
theorem Mergeable.rivals_iff_unsettled (m : Mergeable registry options call)
    (h : registry.WellFormed) (ordinary : Hook.ofName? name = none)
    (each : ∀ entry ∈ (inclusions registry options call).merged,
      (entry.2.seat name false).standing.rivals.Nonempty ↔
        Unsettled registry options name entry.1) :
    ((assembled registry options call).seat name false).standing.rivals.Nonempty ↔
      Unsettled registry options name call.id := by
  by_cases defines : Defines registry name false call.id
  · rw [m.standing_of_defines h (fun _ => ordinary) defines]
    constructor
    · intro rivals
      exact absurd rivals Set.not_nonempty_empty
    · intro unsettled
      exact absurd defines unsettled.undefined
  · rw [(m.merges h (fun _ => ordinary) defines).rivals_nonempty_iff (m.suppliers_acyclic h)
      (merged_prepared h fun _ => ordinary)]
    exact leavesRivals_iff defines (m.merged_ids h) (m.included_eq h) each

/-- A surface has rivals under a name just if the name stays ambiguous. -/
theorem surface_rivals_iff_unsettled (h : registry.WellFormed)
    (ordinary : Hook.ofName? name = none) {id : Nat} {surface : Surface}
    (found : (resolve registry options).surface? id = some surface) :
    (surface.seat name false).standing.rivals.Nonempty ↔
      Unsettled registry options name id := by
  refine surface_induction (fun id surface =>
    (surface.seat name false).standing.rivals.Nonempty ↔ Unsettled registry options name id) h
    (fun call mergeable sound each => ?_) found
  rw [seat_exposed (assembled_sound h call) fun component =>
    pending_eq_nil_of_sound component sound]
  exact mergeable.rivals_iff_unsettled h ordinary each

end Rivals

/-! ## What is reported -/

/-- For a component whose mixins all resolved, siblings are reported under a name just if the name
stays ambiguous, provided that every entry is looked at; and they are reported once at most. The
resolution reports the findings of each call in its one turn. -/
theorem ambiguity_reported_iff {registry : Registry} {options : Options} (h : registry.WellFormed)
    {call : FactoryCall} (mem : call ∈ registry.calls) (component : call.isComponent = true)
    (resolved : ∀ inner, Leads (edges registry options) call.id inner →
      ∃ surface, (resolve registry options).surface? inner = some surface)
    {name : String} (ordinary : Hook.ofName? name = none) :
    ((∃ problem ∈ findings registry options call,
        ReportsSiblings registry call name false problem) ↔
      hasBadEntry registry options call = false ∧
        .leftOut ∉ dependencies registry options call ∧
        Unsettled registry options name call.id) ∧
    ((findings registry options call).Pairwise fun one other =>
      ¬ (ReportsSiblings registry call name false one ∧
        ReportsSiblings registry call name false other)) ∧
    ReportsByCall registry options := by
  have each : ∀ entry ∈ (inclusions registry options call).merged,
      (entry.2.seat name false).standing.rivals.Nonempty ↔
        Unsettled registry options name entry.1 :=
    fun _ mem => surface_rivals_iff_unsettled h ordinary (surface?_of_mem_merged mem)
  exact siblings_reported_iff h mem component resolved
    fun merged => merged.rivals_iff_unsettled h ordinary each

/-- Two sibling mixins, a mixin that leaves a name of theirs ambiguous, one that settles it, and a
component that includes the settling one first. -/
def lateRegistry : Registry :=
  plainRegistry [⟨.mixin, "Left", [], ["toggle"]⟩, ⟨.mixin, "Right", [], ["toggle"]⟩,
    ⟨.mixin, "Both", ["Left", "Right"], []⟩,
    ⟨.mixin, "Over", ["Left", "Right"], ["toggle"]⟩,
    ⟨.component, "User", ["Over", "Both"], ["render"]⟩]

/-- The name is reported for the component, and stays ambiguous, though the mixin that its first
entry names covers all that define it. -/
theorem ambiguity_reported_iff_late :
    ∃ call, lateRegistry.get? 4 = some call ∧
      (∃ problem ∈ findings lateRegistry .standard call,
        ReportsSiblings lateRegistry call "toggle" false problem) ∧
      Unsettled lateRegistry .standard "toggle" 4 ∧
      Tops (edges lateRegistry .standard)
        (included lateRegistry .standard "toggle" false 4) 3 := by
  have sound : lateRegistry.WellFormed := plainRegistry_wellFormed _
  obtain ⟨call, found, isComponent, siblings⟩ : ∃ call, lateRegistry.get? 4 = some call ∧
      call.isComponent = true ∧ ambiguityProblem lateRegistry call
        ⟨"toggle", false, [(0, default), (1, default)]⟩ ∈ findings lateRegistry .standard call :=
    ⟨_, rfl, rfl, by decide⟩
  have number : call.id = 4 := sound.id_of_get? found
  have entries : ∀ entry ∈ edges lateRegistry .standard 4,
      ((resolve lateRegistry .standard).surface? entry.1).isSome = true := by decide
  have resolved : ∀ inner, Leads (edges lateRegistry .standard) call.id inner →
      ∃ surface, (resolve lateRegistry .standard).surface? inner = some surface :=
    fun inner ⟨site, entry⟩ => Option.isSome_iff_exists.mp (entries (inner, site) (number ▸ entry))
  have reported : ∃ problem ∈ findings lateRegistry .standard call,
      ReportsSiblings lateRegistry call "toggle" false problem := ⟨_, siblings, _, rfl⟩
  have ordinary : Hook.ofName? "toggle" = none := by decide
  have unsettled : Unsettled lateRegistry .standard "toggle" 4 :=
    number ▸ ((ambiguity_reported_iff sound (Registry.mem_of_get? found) isComponent resolved
      ordinary).1.mp reported).2.2
  have first : Leads (edges lateRegistry .standard) 4 3 := ⟨default, by decide⟩
  have left : Leads (edges lateRegistry .standard) 3 0 := ⟨default, by decide⟩
  have right : Leads (edges lateRegistry .standard) 3 1 := ⟨default, by decide⟩
  have below : ∀ id ≤ 4, ∀ entry ∈ edges lateRegistry .standard id, entry.1 < 4 := by decide
  have few : ∀ {mixin : Nat}, Reaches (edges lateRegistry .standard) 4 mixin → mixin < 4 := by
    intro mixin reaches
    induction reaches with
    | single entry => exact below 4 le_rfl _ entry.choose_spec
    | tail _ entry ih => exact below _ ih.le _ entry.choose_spec
  refine ⟨call, found, reported, unsettled, ⟨.single first, _, rfl, _, rfl, rfl⟩, ?_⟩
  rintro mixin ⟨reaches, both, isBoth, member, defined, -⟩
  have small : mixin < 4 := few reaches
  obtain rfl | rfl | rfl | rfl : mixin = 0 ∨ mixin = 1 ∨ mixin = 2 ∨ mixin = 3 := by omega
  · exact .single left
  · exact .single right
  · have undefined : (lateRegistry.get? 2).bind (fun call => call.spec.member? "toggle") =
        none := by decide
    simp [isBoth, defined] at undefined
  · exact .refl

end ClassFactory
