/-
Module: ClassFactory.Proofs.Mixins.Rings
Purpose: What the reports of cycles say. They are made just if the inclusions between mixins run in a
  circle, and each of them spells out a ring: mixins that differ, with the entries by which each one
  names the next and the last one the first.
Main exports: RingPlace, Ring, ClosesCycle.exists_ring, exists_cycle_iff, cycles_spelled_out
-/
import ClassFactory.Proofs.Mixins.Findings
import ClassFactory.Proofs.Mixins.Plain
import Mathlib.Data.List.Chain

namespace ClassFactory

/-- A place on a ring: a mixin with the entry of it that leads on. -/
structure RingPlace where
  mixin : FactoryCall
  entry : MixinRef

/-- The entry of the first place names the mixin of the second. -/
def RingPlace.LeadsTo (registry : Registry) (options : Options) (place next : RingPlace) : Prop :=
  classify registry options place.entry = .mixin next.mixin.id place.entry.site

/-- Mixins that differ, each with an entry that names the next one; that of the last one names the
first. -/
structure Ring (registry : Registry) (options : Options) (first : RingPlace)
    (rest : List RingPlace) : Prop where
  mixins : ∀ place ∈ first :: rest, place.mixin ∈ registry.mixins
  entries : ∀ place ∈ first :: rest, place.entry ∈ place.mixin.spec.mixins
  distinct : ((first :: rest).map fun place => place.mixin.name).Nodup
  closes : (first :: rest ++ [first]).IsChain (RingPlace.LeadsTo registry options)

section Rings

variable {registry : Registry} {options : Options}

/-! ## Rings -/

/-- The step from a call to a mixin is made by an entry of the call, at the place of that entry. -/
theorem exists_entry_of_edge {id target : Nat} {site : Site}
    (edge : (target, site) ∈ edges registry options id) :
    ∃ call entry, registry.get? id = some call ∧ entry ∈ call.spec.mixins ∧
      classify registry options entry = .mixin target site ∧ entry.site = site := by
  obtain ⟨call, found, dependency⟩ := mem_edges_iff.mp edge
  obtain ⟨entry, mem, classified⟩ := List.mem_map.mp dependency
  refine ⟨call, entry, found, mem, classified, ?_⟩
  unfold classify at classified
  repeat' split at classified
  all_goals cases classified
  rfl

/-- A path of steps is one of calls with entries, of which the last leads to the target. -/
theorem LeadsTo.exists_places (h : registry.WellFormed) {path : InclusionPath} {target : Nat}
    (way : LeadsTo (edges registry options) path target) :
    ∃ places : List RingPlace,
      (places.map fun place => (place.mixin.id, place.entry.site)) = path ∧
      (∀ place ∈ places, place.mixin ∈ registry.calls ∧ place.entry ∈ place.mixin.spec.mixins) ∧
      ∀ last : RingPlace, last.mixin.id = target →
        (places ++ [last]).IsChain (RingPlace.LeadsTo registry options) := by
  induction way with
  | start => exact ⟨[], rfl, by simp, by simp⟩
  | @step path id next site before edge ih =>
      obtain ⟨places, same, known, chain⟩ := ih
      obtain ⟨call, entry, found, entryMem, names, rfl⟩ := exists_entry_of_edge edge
      have number : call.id = id := h.id_of_get? found
      refine ⟨places ++ [⟨call, entry⟩], by simp [same, number], ?_, ?_⟩
      · intro place mem
        rcases List.mem_append.mp mem with earlier | here
        · exact known place earlier
        · obtain rfl := List.mem_singleton.mp here
          exact ⟨Registry.mem_of_get? found, entryMem⟩
      · intro last isNext
        have leads : RingPlace.LeadsTo registry options ⟨call, entry⟩ last := by
          rw [RingPlace.LeadsTo, isNext]
          exact names
        rw [List.append_assoc, List.singleton_append, List.isChain_split]
        exact ⟨chain ⟨call, entry⟩ number, List.isChain_pair.mpr leads⟩

/-- In a well-formed registry calls that differ in their numbers differ in their names. -/
theorem names_nodup_of_ids (h : registry.WellFormed) (calls : List FactoryCall)
    (known : ∀ call ∈ calls, call ∈ registry.calls)
    (distinct : (calls.map FactoryCall.id).Nodup) : (calls.map FactoryCall.name).Nodup := by
  refine List.Nodup.map_on ?_ (List.Nodup.of_map _ distinct)
  intro one oneMem other otherMem same
  exact List.inj_on_of_nodup_map h.named (known one oneMem) (known other otherMem) same

/-- What closes a cycle is a ring. -/
theorem ClosesCycle.exists_ring (h : registry.WellFormed) {cycle : InclusionPath}
    (closed : ClosesCycle (edges registry options) cycle) :
    ∃ first rest, Ring registry options first rest ∧
      cycle = (first :: rest).map fun place => (place.mixin.id, place.entry.site) := by
  obtain ⟨start, head, way⟩ := closed.closes
  obtain ⟨places, rfl, known, chain⟩ := way.exists_places h
  cases places with
  | nil => cases head
  | cons first rest =>
      obtain rfl : (first.mixin.id, first.entry.site) = start := by simpa using head
      have distinct : (((first :: rest).map RingPlace.mixin).map FactoryCall.id).Nodup := by
        have ids := closed.distinct
        rwa [List.map_map] at ids ⊢
      refine ⟨first, rest, ⟨?_, fun place mem => (known place mem).2, ?_, chain first rfl⟩, rfl⟩
      · intro place mem
        have passes : place.mixin.id ∈ ((first :: rest).map fun place =>
            (place.mixin.id, place.entry.site)).map Prod.fst :=
          List.mem_map_of_mem (List.mem_map_of_mem mem)
        -- on a cycle some entry leads to each call
        obtain ⟨_, -, leads⟩ := Relation.TransGen.tail'_iff.mp (closed.reaches passes passes)
        obtain ⟨call, callMem, isMixin, same⟩ := exists_mixin_of_leads leads
        have found := h.get?_id callMem
        rw [same, h.get?_id (known place mem).1] at found
        obtain rfl := Option.some.inj found
        exact List.mem_filter.mpr ⟨callMem, isMixin⟩
      · have names := names_nodup_of_ids h ((first :: rest).map RingPlace.mixin)
          (fun call mem => by
            obtain ⟨place, placeMem, rfl⟩ := List.mem_map.mp mem
            exact (known place placeMem).1) distinct
        rwa [List.map_map] at names

/-! ## Reports -/

/-- The walk over the mixins comes upon a cycle if there is one. -/
theorem cycles_ne_nil_of_reaches (h : registry.WellFormed) {id : Nat}
    (round : Reaches (edges registry options) id id) :
    (mixinWalk registry options).cycles ≠ [] := by
  intro none
  have noneCyclic := (mixinWalk_sound registry options).1.complete none
  have step : ∀ outer inner, True → Leads (edges registry options) outer inner →
      True ∧ Earlier registry options inner outer := by
    intro outer inner _ leads
    obtain ⟨call, mem, rfl⟩ := exists_call_of_leads h.indexed leads
    exact ⟨trivial, earlier_of_leads h.indexed mem (by simp [noneCyclic]) leads⟩
  exact not_earlier_self h.indexed id (good_and_earlier_of_reaches h.indexed _ step trivial round).2

/-- The walk reports a cycle just if some mixin includes itself in the end. -/
theorem exists_cycle_iff (options : Options) (h : registry.WellFormed) :
    (∃ cycle, cycle ∈ (mixinWalk registry options).cycles) ↔
      ∃ call ∈ registry.mixins, Reaches (edges registry options) call.id call.id := by
  constructor
  · rintro ⟨cycle, mem⟩
    obtain ⟨first, rest, ring, rfl⟩ :=
      ((mixinWalk_sound registry options).1.reported cycle mem).exists_ring h
    have passes : first.mixin.id ∈ ((first :: rest).map fun place =>
        (place.mixin.id, place.entry.site)).map Prod.fst := by simp
    exact ⟨first.mixin, ring.mixins first List.mem_cons_self,
      ((mixinWalk_sound registry options).1.reported _ mem).reaches passes passes⟩
  · rintro ⟨call, -, round⟩
    exact List.exists_mem_of_ne_nil _ (cycles_ne_nil_of_reaches h round)

/-- The finding that spells out a ring: its names from the first mixin round to that mixin again, at
the entry that closes it, with the entries before that one as related places. -/
def ringProblem (first : RingPlace) (rest : List RingPlace) : Diagnostic :=
  { code := .cyclicMixin
    severity := .error
    message := "cyclic mixin inclusion: " ++
      Text.joinWith " -> " ((first :: rest ++ [first]).map fun place => place.mixin.name)
    site := ((first :: rest).getLast (List.cons_ne_nil first rest)).entry.site
    related := (first :: rest).dropLast.map fun place =>
      ⟨quoted place.mixin.name ++ " includes the next mixin here", place.entry.site⟩ }

/-- A cycle is reported as the ring that it is. -/
theorem Ring.cycleProblem_eq {first : RingPlace} {rest : List RingPlace}
    (ring : Ring registry options first rest) (h : registry.WellFormed) :
    cycleProblem registry ((first :: rest).map fun place => (place.mixin.id, place.entry.site)) =
      ringProblem first rest := by
  have name : ∀ place ∈ first :: rest,
      registry.nameOf place.mixin.id = place.mixin.name := by
    intro place mem
    rw [Registry.nameOf, h.get?_id (List.mem_of_mem_filter (ring.mixins place mem))]
    rfl
  have names : (((first :: rest).map fun place => (place.mixin.id, place.entry.site)).map
      fun step => registry.nameOf step.1) = (first :: rest).map fun place => place.mixin.name := by
    rw [List.map_map]
    exact List.map_congr_left name
  rw [ClassFactory.cycleProblem_eq, names, ringProblem, Diagnostic.mk.injEq]
  refine ⟨rfl, rfl, ?_, ?_, ?_⟩
  · simp
  · rw [List.getLast?_map, List.getLast?_eq_some_getLast (List.cons_ne_nil first rest)]
    rfl
  · rw [← List.map_dropLast, List.map_map]
    refine List.map_congr_left fun place mem => ?_
    simp only [Function.comp_apply, name place (List.dropLast_subset _ mem)]

end Rings

/-- A cycle is reported just if the inclusions between mixins run in a circle, and whatever is
reported as a cycle is a ring of mixins, spelled out with the entries that make it one. -/
theorem cycles_spelled_out {registry : Registry} (options : Options) (h : registry.WellFormed) :
    ((∃ problem ∈ (resolve registry options).diagnostics, problem.code = .cyclicMixin) ↔
      ∃ call ∈ registry.mixins, Reaches (edges registry options) call.id call.id) ∧
    ∀ problem ∈ (resolve registry options).diagnostics, problem.code = .cyclicMixin →
      ∃ first rest, Ring registry options first rest ∧ problem = ringProblem first rest := by
  constructor
  · rw [← exists_cycle_iff options h]
    constructor
    · rintro ⟨problem, reported⟩
      obtain ⟨cycle, mem, -⟩ := (mem_cyclic_findings_iff options h).mp reported
      exact ⟨cycle, mem⟩
    · rintro ⟨cycle, mem⟩
      exact ⟨_, (mem_cyclic_findings_iff options h).mpr ⟨cycle, mem, rfl⟩⟩
  · intro problem mem code
    obtain ⟨cycle, found, rfl⟩ := (mem_cyclic_findings_iff options h).mp ⟨mem, code⟩
    obtain ⟨first, rest, ring, rfl⟩ :=
      ((mixinWalk_sound registry options).1.reported cycle found).exists_ring h
    exact ⟨first, rest, ring, ring.cycleProblem_eq h⟩

/-- Three mixins that include each other in turn, and a component that includes one of them. -/
def triangleRegistry : Registry :=
  plainRegistry [⟨.component, "User", ["Second"], ["render"]⟩, ⟨.mixin, "First", ["Second"], []⟩,
    ⟨.mixin, "Second", ["Third"], []⟩, ⟨.mixin, "Third", ["First"], []⟩]

/-- A ring of all three mixins is spelled out. -/
theorem cycles_spelled_out_triangle :
    triangleRegistry.WellFormed ∧
      ∃ problem ∈ (resolve triangleRegistry .standard).diagnostics, problem.code = .cyclicMixin ∧
        ∃ first rest, Ring triangleRegistry .standard first rest ∧
          problem = ringProblem first rest ∧ rest.length = 2 := by
  have sound : triangleRegistry.WellFormed := plainRegistry_wellFormed _
  have first : Leads (edges triangleRegistry .standard) 1 2 := ⟨default, by decide⟩
  have second : Leads (edges triangleRegistry .standard) 2 3 := ⟨default, by decide⟩
  have third : Leads (edges triangleRegistry .standard) 3 1 := ⟨default, by decide⟩
  obtain ⟨reported, spelled⟩ := cycles_spelled_out .standard sound
  have round : ∃ call ∈ triangleRegistry.mixins,
      Reaches (edges triangleRegistry .standard) call.id call.id :=
    ⟨_, List.mem_cons_self, .tail (.tail (.single first) second) third⟩
  obtain ⟨problem, mem, code⟩ := reported.mpr round
  obtain ⟨start, rest, ring, same⟩ := spelled problem mem code
  refine ⟨sound, problem, mem, code, start, rest, ring, same, ?_⟩
  have two : ∀ problem ∈ (resolve triangleRegistry .standard).diagnostics,
      problem.code = .cyclicMixin → problem.related.length = 2 := by decide
  simpa [same, ringProblem] using two problem mem code

end ClassFactory
