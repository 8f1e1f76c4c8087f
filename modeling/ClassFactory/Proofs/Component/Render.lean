/-
Module: ClassFactory.Proofs.Component.Render
Purpose: The one `render` of a component. What the resolver reports is decided by which calls supply
  a `render`, however the inclusions are shaped; a component that passes is published with its own
  one, or else with the only one that reaches it.
Main exports: SuppliesRender, NamesResolved, SoleRender, missingRender_iff, renderConflict_iff,
  exists_soleRender, one_effective_render
-/
import ClassFactory.Proofs.Component.Published
import ClassFactory.Proofs.Mixins.Chain
import ClassFactory.Proofs.Mixins.Findings
import ClassFactory.Proofs.Mixins.Plain

namespace ClassFactory

/-- The call of that number has a `render` of its own that is not only declared. -/
def SuppliesRender (registry : Registry) (id : Nat) : Prop :=
  ∃ definition, OwnLink registry .render id definition

/-- An entry names a mixin that resolved, or a library mixin. -/
def NamesResolved (registry : Registry) (options : Options) (entry : MixinRef) : Prop :=
  classify registry options entry = .pureRender ∨
    ∃ id site surface, classify registry options entry = .mixin id site ∧
      (resolve registry options).surface? id = some surface

section Render

variable {registry : Registry} {options : Options} {call : FactoryCall}

/-- What a call includes itself is resolved if its entries name mixins that are. -/
theorem exists_surface_of_namesResolved (h : registry.WellFormed) (mem : call ∈ registry.calls)
    (entries : ∀ entry ∈ call.spec.mixins, NamesResolved registry options entry) {inner : Nat}
    (leads : Leads (edges registry options) call.id inner) :
    ∃ surface, (resolve registry options).surface? inner = some surface := by
  obtain ⟨site, dependency⟩ := (leads_iff h mem).mp leads
  obtain ⟨entry, entryMem, named⟩ := List.mem_map.mp dependency
  rcases entries entry entryMem with pure | ⟨id, place, surface, isMixin, found⟩
  · rw [named] at pure
    cases pure
  · rw [named] at isMixin
    cases isMixin
    exact ⟨surface, found⟩

/-- A call whose entries all name mixins that resolved has neither a bad entry nor one left out. -/
theorem sound_of_namesResolved
    (entries : ∀ entry ∈ call.spec.mixins, NamesResolved registry options entry) :
    hasBadEntry registry options call = false ∧
      .leftOut ∉ dependencies registry options call := by
  constructor
  · rw [hasBadEntry, List.any_eq_false]
    intro entry entryMem
    rcases entries entry entryMem with pure | ⟨id, place, surface, isMixin, -⟩
    · simp [entryProblem?, pure]
    · simp [entryProblem?, isMixin]
  · intro leftOut
    obtain ⟨entry, entryMem, named⟩ := List.mem_map.mp leftOut
    rcases entries entry entryMem with pure | ⟨id, place, surface, isMixin, -⟩
    · rw [named] at pure
      cases pure
    · rw [named] at isMixin
      cases isMixin

/-- A component whose entries all name mixins that resolved is merged. -/
theorem mergeable_of_namesResolved (h : registry.WellFormed) (mem : call ∈ registry.calls)
    (component : call.isComponent = true)
    (entries : ∀ entry ∈ call.spec.mixins, NamesResolved registry options entry) :
    Mergeable registry options call :=
  (mergeable_iff h mem component fun _ => exists_surface_of_namesResolved h mem entries).mpr
    (sound_of_namesResolved entries)

/-- A call is taken to define a render method just if it supplies one. -/
theorem definesRender_iff (h : registry.WellFormed) (mem : call ∈ registry.calls) :
    definesRender call = true ↔ SuppliesRender registry call.id := by
  have found := h.get?_id mem
  have isLink : ∀ definition, OwnLink registry .render call.id definition ↔
      (call.spec.member? "render").bind SpecMember.link? = some definition := by
    intro definition
    constructor
    · rintro ⟨again, foundAgain, link⟩
      obtain rfl := Option.some.inj (found.symm.trans foundAgain)
      exact link
    · intro link
      exact ⟨call, found, link⟩
  simp only [SuppliesRender, isLink, definesRender]
  cases call.spec.member? "render" with
  | none => simp
  | some member =>
      cases declared : member.kind.isDeclared with
      | true => simp [SpecMember.link?, declared]
      | false => simp [SpecMember.link?, declared]

/-! ## Reports -/

/-- A call of which a component covers the definition of `render` is included, unless it is the
component. -/
theorem reaches_of_supplies {mixin : Nat} (own : ¬ SuppliesRender registry call.id)
    (covers : Covers (edges registry options) call.id mixin)
    (supplies : SuppliesRender registry mixin) : Reaches (edges registry options) call.id mixin := by
  rcases Relation.reflTransGen_iff_eq_or_transGen.mp covers with rfl | reaches
  · exact absurd supplies own
  · exact reaches

/-- Nothing renders just if neither the call nor anything it includes supplies a render method. -/
theorem Mergeable.hookChain_eq_nil_iff (h : registry.WellFormed)
    (m : Mergeable registry options call) :
    (assembled registry options call).surface.hookChain .render = [] ↔
      ¬ ∃ mixin, Covers (edges registry options) call.id mixin ∧ SuppliesRender registry mixin := by
  rw [List.eq_nil_iff_forall_not_mem]
  constructor
  · rintro none ⟨mixin, covers, definition, own⟩
    exact none definition ((m.mem_hookChain_iff h).mpr ⟨mixin, covers, own⟩)
  · intro none definition mem
    obtain ⟨mixin, covers, own⟩ := (m.mem_hookChain_iff h).mp mem
    exact none ⟨mixin, covers, definition, own⟩

/-- The chain of a component without an own `render` has several definitions if several mixins that
it includes supply one. -/
theorem Mergeable.two_le_hookChain_iff (h : registry.WellFormed)
    (m : Mergeable registry options call) (own : ¬ SuppliesRender registry call.id) :
    2 ≤ ((assembled registry options call).surface.hookChain .render).length ↔
      ∃ one other, one ≠ other ∧
        (Reaches (edges registry options) call.id one ∧ SuppliesRender registry one) ∧
        Reaches (edges registry options) call.id other ∧ SuppliesRender registry other := by
  have mem_iff : ∀ definition, definition ∈ (assembled registry options call).surface.hookChain
      .render ↔ _ := fun definition => m.mem_hookChain_iff h
  have distinct : (((assembled registry options call).surface.hookChain .render).map
      MemberDefinition.definition).Nodup := m.hookChain_nodup h
  generalize (assembled registry options call).surface.hookChain .render = chain at *
  constructor
  · intro several
    obtain ⟨first, second, rest, rfl⟩ : ∃ first second rest, chain = first :: second :: rest := by
      rcases chain with _ | ⟨first, _ | ⟨second, rest⟩⟩
      · simp at several
      · simp at several
      · exact ⟨first, second, rest, rfl⟩
    obtain ⟨one, oneCovers, ownFirst⟩ := (mem_iff first).mp (by simp)
    obtain ⟨other, otherCovers, ownSecond⟩ := (mem_iff second).mp (by simp)
    refine ⟨one, other, ?_, ⟨reaches_of_supplies own oneCovers ⟨_, ownFirst⟩, _, ownFirst⟩,
      reaches_of_supplies own otherCovers ⟨_, ownSecond⟩, _, ownSecond⟩
    rintro rfl
    obtain rfl := ownFirst.unique ownSecond
    simp at distinct
  · rintro ⟨one, other, differ, ⟨oneReaches, first, ownFirst⟩, otherReaches, second, ownSecond⟩
    have firstMem := (mem_iff first).mpr ⟨one, oneReaches.to_reflTransGen, ownFirst⟩
    have secondMem := (mem_iff second).mpr ⟨other, otherReaches.to_reflTransGen, ownSecond⟩
    rcases chain with _ | ⟨only, _ | ⟨next, rest⟩⟩
    · cases firstMem
    · obtain rfl := List.mem_singleton.mp firstMem
      obtain rfl := List.mem_singleton.mp secondMem
      exact absurd ((ownFirst.origin h).symm.trans (ownSecond.origin h)) differ
    · simp

/-- A missing render method is reported just if nothing covered supplies one. -/
theorem missingRender_iff (h : registry.WellFormed) (m : Mergeable registry options call)
    (component : call.isComponent = true) :
    (∃ problem ∈ findings registry options call, problem.code = .missingRender) ↔
      ¬ ∃ mixin, Covers (edges registry options) call.id mixin ∧ SuppliesRender registry mixin := by
  rw [findings_of_mergeable h m, exists_render_report_iff component (.inl rfl),
    renderProblem_codes, ← m.hookChain_eq_nil_iff h]
  cases defined : definesRender call with
  | true =>
      have own := (definesRender_iff h m.mem).mp defined
      obtain ⟨definition, isOwn⟩ := own
      have mem : definition ∈ (assembled registry options call).surface.hookChain .render :=
        (m.mem_hookChain_iff h).mpr ⟨call.id, .refl, isOwn⟩
      simp [List.ne_nil_of_mem mem]
  | false =>
      rcases (assembled registry options call).surface.hookChain .render with
        _ | ⟨only, _ | ⟨next, rest⟩⟩
      · simp
      · simp
      · simp

/-- A conflict is reported just if the call supplies no render method itself and two of the calls
that it includes do. -/
theorem renderConflict_iff (h : registry.WellFormed) (m : Mergeable registry options call)
    (component : call.isComponent = true) :
    (∃ problem ∈ findings registry options call, problem.code = .renderConflict) ↔
      ¬ SuppliesRender registry call.id ∧
        ∃ one other, one ≠ other ∧
          (Reaches (edges registry options) call.id one ∧ SuppliesRender registry one) ∧
          Reaches (edges registry options) call.id other ∧ SuppliesRender registry other := by
  rw [findings_of_mergeable h m, exists_render_report_iff component (.inr rfl),
    renderProblem_codes]
  by_cases own : SuppliesRender registry call.id
  · simp [own, (definesRender_iff h m.mem).mpr own]
  · have undefined : definesRender call = false := by
      rw [Bool.eq_false_iff, ne_eq, definesRender_iff h m.mem]
      exact own
    rw [← m.two_le_hookChain_iff h own, undefined]
    rcases (assembled registry options call).surface.hookChain .render with
      _ | ⟨only, _ | ⟨next, rest⟩⟩
    · simp
    · simp
    · simp [own]

/-! ## The published component -/

/-- The definition that a component shows as its `render`: its own one, or else that of the only
mixin among those it includes that supplies one. -/
def SoleRender (registry : Registry) (options : Options) (id : Nat)
    (definition : MemberDefinition) : Prop :=
  OwnLink registry .render id definition ∨
    ¬ SuppliesRender registry id ∧
      ∃ mixin, Reaches (edges registry options) id mixin ∧
        OwnLink registry .render mixin definition ∧
        ∀ other, Reaches (edges registry options) id other → SuppliesRender registry other →
          other = mixin

/-- A component that is merged without problems has one definition in its chain unless it has its own
one. -/
theorem exists_only_of_sound (h : registry.WellFormed) (m : Mergeable registry options call)
    (component : call.isComponent = true)
    (sound : assemblyProblems registry call (assembled registry options call) = [])
    (own : ¬ SuppliesRender registry call.id) :
    ∃ only, (assembled registry options call).surface.hookChain .render = [only] := by
  have undefined : definesRender call = false := by
    rw [Bool.eq_false_iff, ne_eq, definesRender_iff h m.mem]
    exact own
  have none : renderProblem registry call (assembled registry options call).surface = [] := by
    unfold assemblyProblems at sound
    rw [if_pos component] at sound
    exact (List.append_eq_nil_iff.mp (List.append_eq_nil_iff.mp sound).2).2
  have codes := renderProblem_codes registry call (assembled registry options call).surface
  rw [none, undefined] at codes
  generalize (assembled registry options call).surface.hookChain .render = chain at codes ⊢
  rcases chain with _ | ⟨only, _ | ⟨next, rest⟩⟩
  · simp at codes
  · exact ⟨only, rfl⟩
  · simp at codes

/-- A component that resolved runs one `render`. -/
theorem exists_soleRender (h : registry.WellFormed) {surface : Surface}
    (mem : call ∈ registry.calls) (component : call.isComponent = true)
    (found : (resolve registry options).surface? call.id = some surface) :
    ∃ definition, hookLinks call surface .render = [hookLink definition] ∧
      SoleRender registry options call.id definition := by
  obtain ⟨again, sameId, m, sound, rfl⟩ := exists_mergeable h found
  obtain rfl : again = call := by
    have foundAgain := h.get?_id m.mem
    rw [sameId, h.get?_id mem] at foundAgain
    exact (Option.some.inj foundAgain).symm
  unfold hookLinks
  rw [exposed_hookChain, if_pos rfl]
  by_cases own : SuppliesRender registry again.id
  · obtain ⟨definition, isOwn⟩ := own
    have listed := (m.mem_hookChain_iff h).mpr ⟨again.id, .refl, isOwn⟩
    cases chosen : ((assembled registry options again).surface.hookChain .render).find?
        fun definition => definition.origin = again.id with
    | none =>
        have other := List.find?_eq_none.mp chosen definition listed
        simp [isOwn.origin h] at other
    | some first =>
        refine ⟨first, rfl, .inl ?_⟩
        obtain ⟨mixin, -, ownFirst⟩ :=
          (m.mem_hookChain_iff h).mp (List.mem_of_find?_eq_some chosen)
        have here : first.origin = again.id := by simpa using List.find?_some chosen
        rwa [← here, ownFirst.origin h]
  · obtain ⟨only, single⟩ := exists_only_of_sound h m component sound own
    have mem_iff : ∀ definition, definition ∈ [only] ↔ _ := fun definition =>
      single ▸ m.mem_hookChain_iff h
    obtain ⟨mixin, covers, ownOnly⟩ := (mem_iff only).mp (by simp)
    have reaches := reaches_of_supplies own covers ⟨only, ownOnly⟩
    have apart : only.origin ≠ again.id := by
      rw [ownOnly.origin h]
      rintro rfl
      exact own ⟨only, ownOnly⟩
    refine ⟨only, ?_, .inr ⟨own, mixin, reaches, ownOnly, ?_⟩⟩
    · simp [single, apart]
    · rintro other otherReaches ⟨definition, ownOther⟩
      have listed := (mem_iff definition).mpr ⟨other, otherReaches.to_reflTransGen, ownOther⟩
      obtain rfl := List.mem_singleton.mp listed
      rw [← ownOther.origin h, ownOnly.origin h]

end Render

/-- A component each of whose entries names a resolved mixin, or a library mixin, is told that it has
no `render` just if neither it nor a mixin it includes supplies one, and of a conflict just if it
supplies none and two of those mixins do; the resolution reports the findings of each call in its one
turn. A component whose type is published has one `render` there: its own one, or else that of the
only mixin that supplies one. -/
theorem one_effective_render {registry : Registry} {options : Options} (h : registry.WellFormed) :
    (∀ call ∈ registry.calls, call.isComponent = true →
      (∀ entry ∈ call.spec.mixins, NamesResolved registry options entry) →
      ((∃ problem ∈ findings registry options call, problem.code = .missingRender) ↔
        ¬ ∃ mixin, Covers (edges registry options) call.id mixin ∧
          SuppliesRender registry mixin) ∧
      ((∃ problem ∈ findings registry options call, problem.code = .renderConflict) ↔
        ¬ SuppliesRender registry call.id ∧
          ∃ one other, one ≠ other ∧
            (Reaches (edges registry options) call.id one ∧ SuppliesRender registry one) ∧
            Reaches (edges registry options) call.id other ∧ SuppliesRender registry other)) ∧
    ReportsByCall registry options ∧
    (∀ type, type ∈ (synthesize registry options (resolve registry options)).table.components ↔
      ∃ call ∈ registry.components, ∃ surface,
        (resolve registry options).surface? call.id = some surface ∧
          componentType registry options call surface = type) ∧
    (∀ type ∈ (synthesize registry options (resolve registry options)).table.components,
      ∃ definition, type.hookChain .render = [hookLink definition] ∧
        SoleRender registry options type.id definition) := by
  have published : ∀ type,
      type ∈ (synthesize registry options (resolve registry options)).table.components ↔
        ∃ call ∈ registry.components, ∃ surface,
          (resolve registry options).surface? call.id = some surface ∧
            componentType registry options call surface = type := by
    intro type
    rw [components_synthesize h]
    simp
  refine ⟨?_, reportsByCall options h, published, ?_⟩
  · intro call mem component entries
    have m := mergeable_of_namesResolved h mem component entries
    exact ⟨missingRender_iff h m component, renderConflict_iff h m component⟩
  · intro type mem
    obtain ⟨call, callMem, surface, found, rfl⟩ := (published type).mp mem
    obtain ⟨mem, component⟩ := List.mem_filter.mp callMem
    rw [hookChain_componentType]
    exact exists_soleRender h mem component found

/-- Two mixins that share a third one with a `render`, a fourth mixin with another, and components
that receive one definition twice, both definitions, and none. -/
def sharedRenderRegistry : Registry :=
  plainRegistry [⟨.mixin, "Frame", [], ["render"]⟩, ⟨.mixin, "Left", ["Frame"], []⟩,
    ⟨.mixin, "Right", ["Frame"], []⟩, ⟨.mixin, "Other", [], ["render"]⟩,
    ⟨.component, "Shared", ["Left", "Right"], []⟩, ⟨.component, "Torn", ["Left", "Other"], []⟩,
    ⟨.component, "Bare", [], ["toggle"]⟩]

/-- An entry that names a mixin which resolved is in order. -/
theorem namesResolved_of_mixin {registry : Registry} {options : Options} {entry : MixinRef}
    {id : Nat} {site : Site} (named : classify registry options entry = .mixin id site)
    (resolved : ((resolve registry options).surface? id).isSome = true) :
    NamesResolved registry options entry := by
  obtain ⟨surface, found⟩ := Option.isSome_iff_exists.mp resolved
  exact .inr ⟨id, site, surface, named, found⟩

/-- The first component is published with the shared definition, the second one is told of a
conflict, and the third one that it has no `render`. -/
theorem one_effective_render_shared :
    sharedRenderRegistry.WellFormed ∧
      (∃ type ∈ (synthesize sharedRenderRegistry .standard
          (resolve sharedRenderRegistry .standard)).table.components,
        type.name = "Shared" ∧ ∃ definition, type.hookChain .render = [hookLink definition] ∧
          SoleRender sharedRenderRegistry .standard type.id definition) ∧
      (∃ call, sharedRenderRegistry.get? 5 = some call ∧
        ∃ problem ∈ findings sharedRenderRegistry .standard call,
          problem.code = .renderConflict) ∧
      ∃ call, sharedRenderRegistry.get? 6 = some call ∧
        ∃ problem ∈ findings sharedRenderRegistry .standard call,
          problem.code = .missingRender := by
  have sound : sharedRenderRegistry.WellFormed := plainRegistry_wellFormed _
  obtain ⟨reports, -, published, shown⟩ := @one_effective_render sharedRenderRegistry .standard sound
  have supplies : ∀ id, SuppliesRender sharedRenderRegistry id →
      ((sharedRenderRegistry.get? id).bind fun call => call.spec.link? .render).isSome = true := by
    rintro id ⟨definition, call, found, link⟩
    simp [found, link]
  refine ⟨sound, ?_, ?_, ?_⟩
  · obtain ⟨call, mem, named, resolved⟩ : ∃ call ∈ sharedRenderRegistry.components,
        call.name = "Shared" ∧
          ((resolve sharedRenderRegistry .standard).surface? call.id).isSome = true :=
      ⟨_, .head _, by decide, by decide⟩
    obtain ⟨surface, found⟩ := Option.isSome_iff_exists.mp resolved
    have isPublished := (published _).mpr ⟨call, mem, surface, found, rfl⟩
    exact ⟨_, isPublished, named, shown _ isPublished⟩
  · obtain ⟨call, found, component, entries⟩ : ∃ call, sharedRenderRegistry.get? 5 = some call ∧
        call.isComponent = true ∧ call.spec.mixins = [⟨"Left", default⟩, ⟨"Other", default⟩] :=
      ⟨_, rfl, rfl, rfl⟩
    have number : call.id = 5 := sound.id_of_get? found
    have named : ∀ entry ∈ call.spec.mixins,
        NamesResolved sharedRenderRegistry .standard entry := by
      intro entry mem
      rw [entries] at mem
      rcases List.mem_pair.mp mem with rfl | rfl
      · have left : classify sharedRenderRegistry .standard ⟨"Left", default⟩ =
            .mixin 1 default := by decide
        exact namesResolved_of_mixin left (by decide)
      · have other : classify sharedRenderRegistry .standard ⟨"Other", default⟩ =
            .mixin 3 default := by decide
        exact namesResolved_of_mixin other (by decide)
    have toLeft : Leads (edges sharedRenderRegistry .standard) 5 1 := ⟨default, by decide⟩
    have toFrame : Leads (edges sharedRenderRegistry .standard) 1 0 := ⟨default, by decide⟩
    have toOther : Leads (edges sharedRenderRegistry .standard) 5 3 := ⟨default, by decide⟩
    refine ⟨call, found, (reports call (Registry.mem_of_get? found) component named).2.mpr ?_⟩
    rw [number]
    refine ⟨fun own => ?_, 0, 3, by decide, ⟨.tail (.single toLeft) toFrame, _, _, rfl, rfl⟩,
      .single toOther, _, _, rfl, rfl⟩
    exact absurd (supplies 5 own) (by decide)
  · obtain ⟨call, found, component, entries⟩ : ∃ call, sharedRenderRegistry.get? 6 = some call ∧
        call.isComponent = true ∧ call.spec.mixins = [] := ⟨_, rfl, rfl, rfl⟩
    have number : call.id = 6 := sound.id_of_get? found
    refine ⟨call, found, (reports call (Registry.mem_of_get? found) component
      (by simp [entries])).1.mpr ?_⟩
    rw [number]
    rintro ⟨mixin, covers, own⟩
    rcases Relation.ReflTransGen.cases_head covers with rfl | ⟨inner, ⟨site, entry⟩, -⟩
    · exact absurd (supplies 6 own) (by decide)
    · have none : edges sharedRenderRegistry .standard 6 = [] := by decide
      rw [none] at entry
      cases entry

end ClassFactory
