/-
Module: ClassFactory.Proofs.Mixins.Assembled
Purpose: What holds of every assembly and of every surface that a call exposes: how its maps are
  filled, that names stay ambiguous once at most, and that it lists just the mixins the call
  includes. Surfaces are proved about along the order in which calls are resolved.
Main exports: Assembly.Sound, Surface.Sound, Mergeable, surface_induction, mem_includes_iff,
  includes_before_iff, assembled_sound
-/
import ClassFactory.Proofs.Mixins.Outcome
import ClassFactory.Proofs.Mixins.Writes

namespace ClassFactory

/-! ## Soundness -/

/-- A name is ambiguous once at most, and somebody defines it. -/
structure Ambiguity.Distinct (ambiguities : List Ambiguity) : Prop where
  names : (ambiguities.map fun a => (a.name, a.isStatic)).Nodup
  origins : ∀ ambiguity ∈ ambiguities, ambiguity.origins ≠ []

/-- What every operation on an assembly keeps. -/
structure Assembly.Sound (assembly : Assembly) : Prop where
  fitting : assembly.surface.Fitting
  pending : Ambiguity.Distinct assembly.pending
  /-- Ambiguities stay aside until the assembly is done. -/
  none : assembly.surface.ambiguities = []

/-- What holds of every surface that is exposed. -/
structure Surface.Sound (surface : Surface) : Prop where
  fitting : surface.Fitting
  ambiguities : Ambiguity.Distinct surface.ambiguities

namespace Ambiguity.Distinct

variable {ambiguities : List Ambiguity}

theorem nil : Distinct [] := ⟨List.nodup_nil, by simp⟩

/-- Settling ambiguities leaves those of different names apart. -/
theorem settle (h : Distinct ambiguities) (keep : Ambiguity → Bool) :
    Distinct (ambiguities.filter keep) where
  names := h.names.sublist (List.filter_sublist.map _)
  origins := fun ambiguity mem => h.origins ambiguity (List.mem_of_mem_filter mem)

/-- A further origin changes no name. -/
theorem addOrigin (h : Distinct ambiguities) (concerned : Ambiguity → Bool) (origin : Nat)
    (site : Site) :
    Distinct (ambiguities.map fun a =>
      if concerned a then Assembly.addOrigin a origin site else a) where
  names := by
    have names := h.names
    rw [List.map_map]
    convert names using 1
    refine List.map_congr_left fun ambiguity _ => ?_
    simp only [Function.comp_apply, Assembly.addOrigin]
    repeat' split
    all_goals rfl
  origins := by
    intro ambiguity mem
    obtain ⟨old, oldMem, rfl⟩ := List.mem_map.mp mem
    have some := h.origins old oldMem
    simp only [Assembly.addOrigin]
    repeat' split
    all_goals simp [some]

/-- An ambiguity may be added under a name that none has yet. -/
theorem append (h : Distinct ambiguities) {name : String} {isStatic : Bool}
    (fresh : ambiguities.find? (Assembly.concerns name isStatic) = none) (origin : Nat)
    (site : Site) :
    Distinct (ambiguities ++
      [{ name := name, isStatic := isStatic, origins := [(origin, site)] }]) where
  names := by
    rw [List.map_append, List.nodup_append]
    refine ⟨h.names, by simp, ?_⟩
    rintro key keyMem _ here rfl
    obtain ⟨ambiguity, mem, same⟩ := List.mem_map.mp keyMem
    obtain ⟨sameName, sameKind⟩ : ambiguity.name = name ∧ ambiguity.isStatic = isStatic := by
      simpa [← same] using here
    exact List.find?_eq_none.mp fresh ambiguity mem
      (Assembly.concerns_iff.mpr ⟨sameName, sameKind⟩)
  origins := by
    intro ambiguity mem
    rcases List.mem_append.mp mem with old | new
    · exact h.origins ambiguity old
    · obtain rfl := List.mem_singleton.mp new
      simp

end Ambiguity.Distinct

namespace Assembly.Sound

variable {assembly : Assembly}

theorem empty (pureRender : Bool) : (Assembly.empty pureRender).Sound :=
  ⟨⟨Keyed.Sound.empty, Keyed.Sound.empty⟩, .nil, rfl⟩

/-- Noting an origin keeps what an assembly promises. -/
theorem note (h : assembly.Sound) (name : String) (isStatic : Bool) (origin : Nat) (site : Site) :
    (assembly.note name isStatic origin site).Sound := by
  unfold Assembly.note
  split
  · exact ⟨h.fitting, h.pending.addOrigin _ _ _, h.none⟩
  · rename_i absent
    exact ⟨h.fitting, h.pending.append absent _ _, h.none⟩

theorem set (h : assembly.Sound) {name : String} (ordinary : Hook.ofName? name = .none)
    (definition : MemberDefinition) : (assembly.set name definition).Sound :=
  ⟨⟨h.fitting.members.insert ordinary.symm, h.fitting.statics⟩, h.pending, h.none⟩

/-- A link of a chain keeps what an assembly promises, as a hook's chain is kept under its name. -/
theorem chain (h : assembly.Sound) {name : String} {hook : Hook}
    (named : Hook.ofName? name = some hook) (definition : MemberDefinition) :
    (assembly.chain name hook definition).Sound := by
  unfold Assembly.chain
  dsimp only
  split
  · exact h
  · refine ⟨⟨h.fitting.members.insert ?_, h.fitting.statics⟩, h.pending, h.none⟩
    cases found : assembly.surface.member? name with
    | none => simp [named]
    | some member =>
        have fits : member.hook = Hook.ofName? name := h.fitting.members.of_get? found
        simpa using fits

theorem setStatic (h : assembly.Sound) (entry : StaticMember) : (assembly.setStatic entry).Sound :=
  ⟨⟨h.fitting.members, h.fitting.statics.insert rfl⟩, h.pending, h.none⟩

/-- Every elementary write keeps what an assembly promises. -/
theorem apply (write : Write) (name : String) (isStatic : Bool)
    (concerns : write.Concerns name isStatic) (h : assembly.Sound) :
    (write.apply assembly).Sound := by
  cases concerns with
  | note => exact h.note _ _ _ _
  | settle => exact ⟨h.fitting, h.pending.settle _, h.none⟩
  | set ordinary => exact h.set ordinary _
  | chain named => exact h.chain named _
  | setStatic => exact h.setStatic _

/-- Merging a mixin is a sequence of writes and keeps what an assembly promises. -/
theorem addMixin (h : assembly.Sound) (includes : Includes) (target : Nat) {included : Surface}
    (fitting : included.Fitting) : (assembly.addMixin includes target included).Sound :=
  addMixin_keeps Assembly.Sound (fun _ => apply) includes fitting
    ⟨⟨h.fitting.members, h.fitting.statics⟩, h.pending, h.none⟩

theorem own (h : assembly.Sound) (spec : FactorySpec) : (assembly.own spec).Sound :=
  own_keeps Assembly.Sound (fun _ => apply) spec h

/-- What is published of a sound assembly is a sound surface. -/
theorem exposed (h : assembly.Sound) (call : FactoryCall) : (exposed call assembly).Sound := by
  unfold ClassFactory.exposed
  split
  · exact ⟨h.fitting, h.none ▸ .nil⟩
  · exact ⟨⟨h.fitting.members, h.fitting.statics⟩, h.pending⟩

end Assembly.Sound

/-! ## Calls that are merged -/

/-- A call has a surface just if it resolved. -/
theorem Resolutions.surface?_eq_some_iff {resolutions : Resolutions} {id : Nat}
    {surface : Surface} :
    resolutions.surface? id = some surface ↔ resolutions.get? id = some (.resolved surface) := by
  unfold surface?
  split
  · rename_i found
    simp [found]
  · rename_i absent
    simp only [reduceCtorEq, false_iff]
    exact absent surface

/-- A call with which nothing is wrong before it is merged, as all the mixins it includes itself
resolved. -/
structure Mergeable (registry : Registry) (options : Options) (call : FactoryCall) : Prop where
  mem : call ∈ registry.calls
  clean : Unflawed registry options call
  available : (inclusions registry options call).unavailable = []
  complete : (inclusions registry options call).incomplete = false

section Merged

variable {registry : Registry} {options : Options} {call : FactoryCall}

/-- A surface is that of a call which was merged without problems. -/
theorem exists_mergeable (h : registry.WellFormed) {id : Nat} {surface : Surface}
    (found : (resolve registry options).surface? id = some surface) :
    ∃ call, call.id = id ∧ Mergeable registry options call ∧
      assemblyProblems registry call (assembled registry options call) = [] ∧
      exposed call (assembled registry options call) = surface := by
  have known : (resolve registry options).resolutions.get? id = some (.resolved surface) :=
    Resolutions.surface?_eq_some_iff.mp found
  have listed : id ∈ (resolve registry options).resolutions.map Prod.fst := by
    by_contra absent
    rw [Resolutions.get?_eq_none_iff.mpr absent] at known
    cases known
  rw [resolve_resolutions, resolveAll_ids] at listed
  obtain ⟨call, inSequence, rfl⟩ := List.mem_map.mp listed
  have mem := (mem_callSequence h.indexed).mp inSequence
  obtain ⟨_, _, settled, -, verdict⟩ := exists_verdict options h mem
  rw [get_of_get? known] at settled
  cases verdict with
  | flawed => cases settled
  | unavailable => cases settled
  | incomplete => cases settled
  | merged clean available complete sound =>
      exact ⟨call, rfl, ⟨mem, clean, available, complete⟩, sound,
        (Resolution.resolved.inj settled).symm⟩
  | problems => cases settled

/-- What is merged are surfaces of mixins that resolved. -/
theorem surface?_of_mem_merged {entry : Nat × Surface}
    (mem : entry ∈ (inclusions registry options call).merged) :
    (resolve registry options).surface? entry.1 = some entry.2 := by
  rw [inclusions, Inclusions.ofDependencies_eq] at mem
  obtain ⟨dependency, -, merged⟩ := List.mem_filterMap.mp mem
  cases dependency with
  | mixin id site =>
      obtain ⟨surface, found, rfl⟩ := Option.map_eq_some_iff.mp merged
      exact found
  | _ => simp [Dependency.merged?] at merged

namespace Mergeable

/-- Everything that a merged call includes itself has resolved. -/
theorem exists_surface_of_leads (m : Mergeable registry options call) (h : registry.WellFormed)
    {inner : Nat} (leads : Leads (edges registry options) call.id inner) :
    ∃ surface, (resolve registry options).surface? inner = some surface := by
  obtain ⟨resolution, found⟩ := exists_resolution_of_leads h leads
  cases resolution with
  | resolved surface => exact ⟨surface, Resolutions.surface?_eq_some_iff.mpr found⟩
  | leftOut =>
      have incomplete := (incomplete_iff h m.mem).mpr (.inr ⟨inner, leads, get_of_get? found⟩)
      rw [m.complete] at incomplete
      cases incomplete
  | failed =>
      exact absurd m.available
        ((unavailable_ne_nil_iff h m.mem).mpr ⟨inner, leads, get_of_get? found⟩)

/-- Each entry is merged, in the order of the entries. -/
theorem merged_ids (m : Mergeable registry options call) (h : registry.WellFormed) :
    (inclusions registry options call).merged.map Prod.fst =
      (edges registry options call.id).map Prod.fst := by
  rw [inclusions, Inclusions.ofDependencies_eq, edges, h.get?_id m.mem]
  dsimp only
  rw [List.map_filterMap, List.map_filterMap]
  refine List.filterMap_congr fun dependency mem => ?_
  cases dependency with
  | mixin id site =>
      obtain ⟨surface, found⟩ := m.exists_surface_of_leads h ((leads_iff h m.mem).mpr ⟨site, mem⟩)
      have found : (resolve registry options).resolutions.surface? id = some surface := found
      simp [Dependency.merged?, Dependency.edge?, found]
  | _ => rfl

/-- What a call includes itself is what is merged into it, entry by entry. -/
theorem leads_iff_merged (m : Mergeable registry options call) (h : registry.WellFormed)
    {inner : Nat} :
    Leads (edges registry options) call.id inner ↔
      ∃ surface, (inner, surface) ∈ (inclusions registry options call).merged := by
  have ids := m.merged_ids h
  constructor
  · rintro ⟨site, mem⟩
    have listed : inner ∈ (inclusions registry options call).merged.map Prod.fst :=
      ids ▸ List.mem_map_of_mem mem
    simpa using listed
  · rintro ⟨surface, mem⟩
    have listed : inner ∈ (edges registry options call.id).map Prod.fst :=
      ids ▸ List.mem_map_of_mem mem
    simpa [Leads] using listed

/-- All that a merged call includes is resolved. -/
theorem exists_surface_of_reaches (m : Mergeable registry options call) (h : registry.WellFormed)
    {inner : Nat} (reaches : Reaches (edges registry options) call.id inner) :
    ∃ surface, (resolve registry options).surface? inner = some surface := by
  induction reaches with
  | single leads => exact m.exists_surface_of_leads h leads
  | tail _ leads ih =>
      obtain ⟨surface, found⟩ := ih
      obtain ⟨middle, rfl, mergeable, -⟩ := exists_mergeable h found
      exact mergeable.exists_surface_of_leads h leads

theorem earlier_of_reaches (m : Mergeable registry options call) (h : registry.WellFormed)
    {inner : Nat} (reaches : Reaches (edges registry options) call.id inner) :
    Earlier registry options inner call.id := by
  refine (good_and_earlier_of_reaches h.indexed (fun id => ∃ outer : FactoryCall, outer.id = id ∧
    Mergeable registry options outer) ?_ ⟨call, rfl, m⟩ reaches).2
  rintro _ inner ⟨outer, rfl, mergeable⟩ leads
  obtain ⟨surface, found⟩ := mergeable.exists_surface_of_leads h leads
  obtain ⟨middle, rfl, innerMergeable, -⟩ := exists_mergeable h found
  exact ⟨⟨middle, rfl, innerMergeable⟩,
    earlier_of_leads h.indexed mergeable.mem mergeable.clean.acyclic leads⟩

/-- A call that is merged lies on no cycle. -/
theorem not_reaches_self (m : Mergeable registry options call) (h : registry.WellFormed) :
    ¬ Reaches (edges registry options) call.id call.id := fun cycle =>
  not_earlier_self h.indexed call.id (m.earlier_of_reaches h cycle)

end Mergeable

/-- What holds of the surface of a call that is merged without problems, whenever it holds of the
surfaces that are merged into it, holds of every surface. -/
theorem surface_induction (holds : Nat → Surface → Prop) (h : registry.WellFormed)
    (step : ∀ call, Mergeable registry options call →
      assemblyProblems registry call (assembled registry options call) = [] →
      (∀ entry ∈ (inclusions registry options call).merged, holds entry.1 entry.2) →
      holds call.id (exposed call (assembled registry options call)))
    {id : Nat} {surface : Surface}
    (found : (resolve registry options).surface? id = some surface) : holds id surface := by
  induction id using (earlier_wellFounded options h.indexed).induction generalizing surface with
  | _ id ih =>
      obtain ⟨call, rfl, mergeable, sound, rfl⟩ := exists_mergeable h found
      refine step call mergeable sound fun entry mem => ?_
      have leads := (mergeable.leads_iff_merged h).mpr ⟨entry.2, mem⟩
      exact ih entry.1 (mergeable.earlier_of_reaches h (.single leads)) (surface?_of_mem_merged mem)

/-- What every merged mixin and the own definitions keep holds of the assembly. -/
theorem assembled_keeps (holds : Assembly → Prop)
    (start : ∀ pureRender, holds (Assembly.empty pureRender))
    (addMixin : ∀ assembly, holds assembly →
      ∀ entry ∈ (inclusions registry options call).merged,
        holds (assembly.addMixin (resolutionsBefore registry options call.id).includes
          entry.1 entry.2))
    (own : ∀ assembly, holds assembly → holds (assembly.own call.spec)) :
    holds (assembled registry options call) :=
  own _ (List.foldlRecOn _ _ (start _) addMixin)

/-- Every surface of a resolution is sound. -/
theorem surface_sound (h : registry.WellFormed) {id : Nat} {surface : Surface}
    (found : (resolve registry options).surface? id = some surface) : surface.Sound := by
  refine surface_induction (fun _ surface => surface.Sound) h (fun call _ _ included => ?_) found
  refine Assembly.Sound.exposed ?_ call
  exact assembled_keeps Assembly.Sound Assembly.Sound.empty
    (fun _ sound entry mem => sound.addMixin _ _ (included entry mem).fitting)
    (fun _ sound => sound.own _)

/-- What is merged into a call stands under the right names. -/
theorem merged_fitting (h : registry.WellFormed) :
    ∀ entry ∈ (inclusions registry options call).merged, entry.2.Fitting :=
  fun _ mem => (surface_sound h (surface?_of_mem_merged mem)).fitting

/-- The assembly of every call is sound, whatever becomes of it. -/
theorem assembled_sound (h : registry.WellFormed) (call : FactoryCall) :
    (assembled registry options call).Sound :=
  assembled_keeps Assembly.Sound Assembly.Sound.empty
    (fun _ sound entry mem => sound.addMixin _ _ (merged_fitting h entry mem))
    (fun _ sound => sound.own _)

/-! ## Included mixins -/

theorem Assembly.mem_foldl_addId {ids start : List Nat} {id : Nat} :
    id ∈ ids.foldl addId start ↔ id ∈ start ∨ id ∈ ids := by
  induction ids generalizing start with
  | nil => simp
  | cons first rest ih =>
      rw [List.foldl_cons, ih, addId]
      split
      · rename_i known
        have known : first ∈ start := by simpa using known
        constructor
        · rintro (old | later)
          · exact .inl old
          · exact .inr (List.mem_cons_of_mem _ later)
        · rintro (old | listed)
          · exact .inl old
          · rcases List.mem_cons.mp listed with rfl | later
            · exact .inl known
            · exact .inr later
      · simp [or_assoc]

/-- What a surface shows beside members and statics no change touches. -/
theorem Assembly.view_apply {τ : Type} (view : Surface → τ)
    (blind : ∀ surface members statics,
      view { surface with members := members, statics := statics } = view surface)
    (seen : τ) (assembly : Assembly) (write : Assembly.Write) (name : String) (isStatic : Bool)
    (_ : write.Concerns name isStatic) (same : view assembly.surface = seen) :
    view (write.apply assembly).surface = seen := by
  refine Eq.trans ?_ same
  cases write with
  | note => simp [Write.apply]
  | settle => rfl
  | set => exact blind assembly.surface _ assembly.surface.statics
  | chain name hook definition =>
      simp only [Write.apply, chain]
      split
      · rfl
      · exact blind assembly.surface _ assembly.surface.statics
  | setStatic => exact blind assembly.surface assembly.surface.members _

/-- A mixin adds itself and what it includes, in that order and each once. -/
theorem Assembly.includes_addMixin (includes : Includes) (assembly : Assembly) (target : Nat)
    {included : Surface} (fitting : included.Fitting) :
    (assembly.addMixin includes target included).surface.includes =
      (target :: included.includes).foldl addId assembly.surface.includes :=
  addMixin_keeps (fun a => a.surface.includes = _)
    (view_apply Surface.includes (fun _ _ _ => rfl) _) includes fitting rfl

theorem Assembly.includes_own (assembly : Assembly) (spec : FactorySpec) :
    (assembly.own spec).surface.includes = assembly.surface.includes :=
  own_keeps (fun a => a.surface.includes = _)
    (view_apply Surface.includes (fun _ _ _ => rfl) _) spec rfl

/-- Exposing a surface changes nothing in it but its ambiguities. -/
theorem exposed_view {τ : Type} (view : Surface → τ)
    (blind : ∀ surface ambiguities,
      view { surface with ambiguities := ambiguities } = view surface)
    (call : FactoryCall) (assembly : Assembly) :
    view (exposed call assembly) = view assembly.surface := by
  unfold exposed
  split
  · rfl
  · exact blind _ _

/-- A run of mixins adds each of them and what it includes. -/
theorem mem_includes_merged {includes : Includes} {entries : List (Nat × Surface)}
    (fitting : ∀ entry ∈ entries, entry.2.Fitting) (start : Assembly) (id : Nat) :
    id ∈ (entries.foldl (fun a entry => a.addMixin includes entry.1 entry.2)
        start).surface.includes ↔
      id ∈ start.surface.includes ∨ ∃ entry ∈ entries, id = entry.1 ∨ id ∈ entry.2.includes := by
  induction entries generalizing start with
  | nil => simp
  | cons entry rest ih =>
      rw [List.foldl_cons, ih fun later mem => fitting later (List.mem_cons_of_mem _ mem),
        Assembly.includes_addMixin _ _ _ (fitting entry List.mem_cons_self),
        Assembly.mem_foldl_addId]
      simp [or_assoc]

/-- A surface lists just the mixins that its call includes, directly or through others. -/
theorem mem_includes_iff (h : registry.WellFormed) {id inner : Nat} {surface : Surface}
    (found : (resolve registry options).surface? id = some surface) :
    inner ∈ surface.includes ↔ Reaches (edges registry options) id inner := by
  refine surface_induction (fun id surface =>
    inner ∈ surface.includes ↔ Reaches (edges registry options) id inner) h ?_ found
  intro call mergeable _ included
  have oneStep : Reaches (edges registry options) call.id inner ↔
      ∃ first, Leads (edges registry options) call.id first ∧
        Covers (edges registry options) first inner :=
    Relation.TransGen.head'_iff
  rw [exposed_view Surface.includes fun _ _ => rfl, assembled, assemble, Assembly.includes_own,
    mem_includes_merged (merged_fitting h), oneStep]
  constructor
  · rintro (none | ⟨entry, mem, here⟩)
    · simp [Assembly.empty, Surface.empty] at none
    · refine ⟨entry.1, (mergeable.leads_iff_merged h).mpr ⟨entry.2, mem⟩, ?_⟩
      rcases here with rfl | through
      · exact .refl
      · exact ((included entry mem).mp through).to_reflTransGen
  · rintro ⟨first, leads, covers⟩
    obtain ⟨surface, mem⟩ := (mergeable.leads_iff_merged h).mp leads
    refine .inr ⟨(first, surface), mem, ?_⟩
    rcases Relation.reflTransGen_iff_eq_or_transGen.mp covers with rfl | reaches
    · exact .inl rfl
    · exact .inr ((included _ mem).mpr reaches)

/-- While a call is merged it is known which of its mixins include each other. -/
theorem Mergeable.includes_before_iff (m : Mergeable registry options call)
    (h : registry.WellFormed) {outer inner : Nat}
    (reaches : Reaches (edges registry options) call.id outer) :
    (resolutionsBefore registry options call.id).includes outer inner = true ↔
      Reaches (edges registry options) outer inner := by
  obtain ⟨surface, found⟩ := m.exists_surface_of_reaches h reaches
  have before := get?_before_of_earlier h.indexed m.mem (m.earlier_of_reaches h reaches)
  rw [Resolutions.surface?_eq_some_iff.mp found] at before
  have known := Resolutions.surface?_eq_some_iff.mpr before
  simp [Resolutions.includes, known, mem_includes_iff h found]

end Merged

end ClassFactory
