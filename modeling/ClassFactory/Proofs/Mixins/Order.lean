/-
Module: ClassFactory.Proofs.Mixins.Order
Purpose: The order in which the mixins of a registry are merged. It lists each of them once, and a
  mixin comes after what it includes itself unless that includes it in turn. Where no mixin includes
  itself in the end, all that a mixin includes is resolved when its own turn comes.
Main exports: Traversal.Ordered, takeEntry_ordered, visit_ordered, traverse_ordered,
  mixins_merged_after_inclusions
-/
import ClassFactory.Proofs.Mixins.Plain
import ClassFactory.Proofs.Mixins.Sequence

namespace ClassFactory

/-- A finished mixin comes after what it includes itself, unless that leads back to it. -/
def Traversal.Ordered (edges : Nat → List (Nat × Site)) (walk : Traversal) : Prop :=
  ∀ id ∈ walk.order, ∀ inner, Leads edges id inner →
    Precedes walk.order inner id ∨ Reaches edges inner id

/-! ## What a walk keeps -/

section Walk

variable {edges : Nat → List (Nat × Site)} {nodes : List Nat} {walk : Traversal}

namespace Traversal

theorem Ordered.start : Ordered edges start := by
  simp [Ordered, Traversal.start]

theorem Ordered.close (ordered : walk.Ordered edges) (cycle : InclusionPath) :
    (walk.close cycle).Ordered edges :=
  ordered

/-- A mixin may be finished once the walk is done with its inclusions, those aside that lead back to
it. -/
theorem Ordered.leave {id : Nat} (ordered : walk.Ordered edges)
    (dealt : ∀ inner, Leads edges id inner → inner ∈ walk.order ∨ Reaches edges inner id) :
    (walk.leave id).Ordered edges := by
  intro other mem inner leads
  rcases List.mem_append.mp mem with earlier | here
  · exact (ordered other earlier inner leads).imp_left fun precedes => precedes.append [id]
  · obtain rfl := List.mem_singleton.mp here
    exact (dealt inner leads).imp_left fun finished => Precedes.concat finished other

end Traversal

open Traversal

/-- Visits of that depth keep sound walks ordered. -/
def VisitsInOrder (edges : Nat → List (Nat × Site)) (nodes : List Nat) (depth : Nat) : Prop :=
  ∀ (path : InclusionPath) (id : Nat) (walk : Traversal), nodes.length < path.length + depth →
    OnPath edges nodes path id → id ∉ walk.order →
    walk.Sound edges nodes (path.map Prod.fst) → walk.Ordered edges →
    (visit edges depth path id walk).Ordered edges

/-- Every mixin on the path of a visit includes the mixin visited, and the entry of that mixin leads
on to what it names. -/
theorem OnPath.reaches_of_visited {path : InclusionPath} {id target : Nat} {site : Site}
    (onPath : OnPath edges nodes path id) (entry : (target, site) ∈ edges id)
    (visited : target ∈ (path ++ [(id, site)]).map Prod.fst) : Reaches edges target id := by
  rw [List.map_append, List.mem_append] at visited
  rcases visited with earlier | here
  · obtain ⟨place, mem, rfl⟩ := List.mem_map.mp earlier
    exact onPath.way.reaches mem
  · obtain rfl : target = id := by simpa using here
    exact .single ⟨site, entry⟩

/-- Taking one entry keeps a walk ordered, and the mixin that it names is finished then, or it is
active and leads back. -/
theorem takeEntry_ordered {depth : Nat} {path : InclusionPath} {id : Nat} {step : Nat × Site}
    (closed : Closed edges nodes) (deeper : VisitsInOrder edges nodes depth)
    (enough : nodes.length < path.length + (depth + 1)) (onPath : OnPath edges nodes path id)
    (entry : step ∈ edges id) (sound : walk.Sound edges nodes (path.map Prod.fst ++ [id]))
    (ordered : walk.Ordered edges) :
    (takeEntry edges depth path id walk step).Ordered edges ∧
      (step.1 ∈ (takeEntry edges depth path id walk step).order ∨ Reaches edges step.1 id) := by
  have ids : (path ++ [(id, step.2)]).map Prod.fst = path.map Prod.fst ++ [id] := by simp
  rw [← ids] at sound
  obtain ⟨isDone, taken⟩ | ⟨-, visited, taken⟩ | ⟨notDone, onward, taken⟩ :=
    takeEntry_cases closed onPath entry depth walk <;> rw [taken]
  · exact ⟨ordered, .inl isDone⟩
  · exact ⟨ordered.close _, .inr (onPath.reaches_of_visited entry visited)⟩
  · have longer : nodes.length < (path ++ [(id, step.2)]).length + depth := by
      simp only [List.length_append, List.length_singleton]
      omega
    obtain ⟨-, -, finished⟩ :=
      visit_sound closed depth _ step.1 walk longer onward notDone sound
    exact ⟨deeper _ step.1 walk longer onward notDone sound ordered, .inl finished⟩

/-- Taking entries one after another keeps a walk ordered. -/
theorem takeEntries_ordered {depth : Nat} {path : InclusionPath} {id : Nat}
    (closed : Closed edges nodes) (deeper : VisitsInOrder edges nodes depth)
    (enough : nodes.length < path.length + (depth + 1)) (onPath : OnPath edges nodes path id)
    (steps : List (Nat × Site)) (entries : ∀ step ∈ steps, step ∈ edges id)
    (sound : walk.Sound edges nodes (path.map Prod.fst ++ [id])) (ordered : walk.Ordered edges) :
    (steps.foldl (takeEntry edges depth path id) walk).Ordered edges ∧
      ∀ step ∈ steps, step.1 ∈ (steps.foldl (takeEntry edges depth path id) walk).order ∨
        Reaches edges step.1 id := by
  induction steps generalizing walk with
  | nil => exact ⟨ordered, by simp⟩
  | cons step steps ih =>
      have entry := entries step List.mem_cons_self
      have later : ∀ other ∈ steps, other ∈ edges id := fun other mem =>
        entries other (List.mem_cons_of_mem _ mem)
      have deeperSound := visit_sound closed depth
      obtain ⟨nextSound, -, -⟩ := takeEntry_sound closed deeperSound enough onPath entry sound
      obtain ⟨nextOrdered, dealt⟩ :=
        takeEntry_ordered closed deeper enough onPath entry sound ordered
      obtain ⟨-, continues, -⟩ :=
        takeEntries_sound closed deeperSound enough onPath steps later nextSound
      obtain ⟨doneOrdered, dealt'⟩ := ih later nextSound nextOrdered
      refine ⟨doneOrdered, ?_⟩
      intro other mem
      rcases List.mem_cons.mp mem with rfl | later
      · exact dealt.imp_left continues.mem_order
      · exact dealt' other later

/-- Every visit keeps sound walks ordered. -/
theorem visit_ordered (closed : Closed edges nodes) (depth : Nat) :
    VisitsInOrder edges nodes depth := by
  induction depth with
  | zero =>
      intro path id walk _ _ _ _ ordered
      exact ordered
  | succ depth ih =>
      intro path id walk enough onPath fresh sound ordered
      obtain ⟨doneOrdered, dealt⟩ :=
        takeEntries_ordered closed ih enough onPath (edges id) (fun _ mem => mem)
          (sound.activate fresh) ordered
      rw [visit_succ]
      refine doneOrdered.leave ?_
      rintro inner ⟨site, mem⟩
      exact dealt (inner, site) mem

/-- A walk over all the mixins ends ordered. -/
theorem traverse_ordered (closed : Closed edges nodes) {depth : Nat}
    (enough : nodes.length < depth) : (traverse edges depth nodes).Ordered edges := by
  -- both invariants at once: a visit keeps the order of sound walks only
  suffices both : (traverse edges depth nodes).Sound edges nodes [] ∧
      (traverse edges depth nodes).Ordered edges from both.2
  rw [traverse_eq]
  refine List.foldlRecOn
    (motive := fun walk : Traversal => walk.Sound edges nodes [] ∧ walk.Ordered edges)
    nodes _ ⟨.start, .start⟩ ?_
  rintro walk ⟨sound, ordered⟩ id mem
  obtain ⟨-, taken⟩ | ⟨notDone, taken⟩ := takeRoot_cases edges depth walk id <;> rw [taken]
  · exact ⟨sound, ordered⟩
  · have deep : nodes.length < ([] : InclusionPath).length + depth := by simpa using enough
    exact ⟨(visit_sound closed depth [] id walk deep (.root mem) notDone sound).1,
      visit_ordered closed depth [] id walk deep (.root mem) notDone sound ordered⟩

/-- In an order without cycles a mixin comes after all that it includes. -/
theorem Traversal.Ordered.precedes_of_reaches (ordered : walk.Ordered edges)
    (distinct : walk.order.Nodup) (acyclic : ∀ id, ¬ Reaches edges id id) {outer inner : Nat}
    (mem : outer ∈ walk.order) (reaches : Reaches edges outer inner) :
    Precedes walk.order inner outer := by
  have direct : ∀ {id next : Nat}, id ∈ walk.order → Leads edges id next →
      Precedes walk.order next id := fun mem leads =>
    (ordered _ mem _ leads).resolve_right fun back => acyclic _ (.head leads back)
  induction reaches with
  | single leads => exact direct mem leads
  | @tail middle inner _ leads ih =>
      have middleMem : middle ∈ walk.order := by
        obtain ⟨before, after, split, earlier⟩ := ih
        rw [split]
        exact List.mem_append_left _ earlier
      exact (direct middleMem leads).trans distinct ih

end Walk

/-! ## The mixins of a registry -/

section Registries

variable {registry : Registry} {options : Options}

/-- The walk over the mixins of a registry ends ordered. -/
theorem mixinWalk_ordered (registry : Registry) (options : Options) :
    (mixinWalk registry options).Ordered (edges registry options) := by
  refine traverse_ordered mixins_closed ?_
  have fewer := List.length_filter_le FactoryCall.isMixin registry.calls
  simp only [Registry.mixins, List.length_map]
  omega

/-- Without cycles, a call whose entries all name mixins is flattened when its turn comes. -/
theorem outcome_eq_of_acyclic (acyclic : ∀ id, ¬ Reaches (edges registry options) id id)
    (resolutions : Resolutions) (call : FactoryCall) :
    outcome registry options resolutions call =
      if hasBadEntry registry options call then (.failed, [])
      else flatten registry options resolutions call := by
  have unmarked : call.id ∉ (mixinWalk registry options).cyclic := by
    intro cyclic
    obtain ⟨cycle, closes, passes⟩ :=
      (mixinWalk_sound registry options).1.genuine call.id cyclic
    exact acyclic call.id (closes.reaches passes passes)
  simp [outcome, unmarked]

/-- When the turn of a mixin comes, it is known what became of the mixins before it. -/
theorem resolved_before_of_precedes (h : registry.Indexed) {outer : FactoryCall}
    (mem : outer ∈ registry.calls) {inner : Nat}
    (precedes : Precedes (resolve registry options).mixinOrder inner outer.id) :
    ∃ resolution, (resolutionsBefore registry options outer.id).get? inner = some resolution ∧
      (resolve registry options).resolutions.get? inner = some resolution := by
  have earlier : Earlier registry options inner outer.id := by
    rw [Earlier, callSequence_ids h]
    exact precedes.append _
  have walked : inner ∈ (mixinWalk registry options).order := by
    obtain ⟨before, after, split, innerMem⟩ := precedes
    have order : (mixinWalk registry options).order = before ++ outer.id :: after := split
    rw [order]
    exact List.mem_append_left _ innerMem
  obtain ⟨call, callMem, -, rfl⟩ :=
    mem_mixin_ids.mp ((mixinWalk_sound registry options).1.known inner walked)
  rw [get?_before_of_earlier h mem earlier]
  exact ⟨_, get_eq_outcome h callMem, get_eq_outcome h callMem⟩

end Registries

/-- Each mixin of a registry is merged once. It is merged after whatever one of its entries names,
unless that includes the mixin in turn; so where no mixin includes itself in the end, it is flattened
when all that it includes, directly or through others, has come to what it comes to. -/
theorem mixins_merged_after_inclusions (registry : Registry) (options : Options)
    (h : registry.Indexed) :
    (resolve registry options).mixinOrder.Perm (registry.mixins.map FactoryCall.id) ∧
    (resolve registry options).mixinOrder.Nodup ∧
    (∀ outer ∈ registry.mixins, ∀ inner, Leads (edges registry options) outer.id inner →
      ¬ Reaches (edges registry options) inner outer.id →
      Precedes (resolve registry options).mixinOrder inner outer.id) ∧
    ((∀ id, ¬ Reaches (edges registry options) id id) → ∀ outer ∈ registry.mixins,
      ((resolve registry options).resolutions.get? outer.id =
        some (if hasBadEntry registry options outer then .failed
          else (flatten registry options (resolutionsBefore registry options outer.id) outer).1)) ∧
      ∀ inner, Reaches (edges registry options) outer.id inner →
        Precedes (resolve registry options).mixinOrder inner outer.id ∧
        ∃ resolution, (resolutionsBefore registry options outer.id).get? inner = some resolution ∧
          (resolve registry options).resolutions.get? inner = some resolution) := by
  obtain ⟨sound, all⟩ := mixinWalk_sound registry options
  have ordered := mixinWalk_ordered registry options
  have walked : ∀ outer ∈ registry.mixins, outer.id ∈ (mixinWalk registry options).order :=
    fun outer mem => all outer.id (List.mem_map_of_mem mem)
  refine ⟨?_, sound.distinct, ?_, ?_⟩
  · have once : (registry.mixins.map FactoryCall.id).Nodup :=
      h.ids_nodup.sublist (List.filter_sublist.map _)
    exact (List.perm_ext_iff_of_nodup sound.distinct once).mpr fun id =>
      ⟨sound.known id, all id⟩
  · intro outer mem inner leads oneWay
    exact (ordered outer.id (walked outer mem) inner leads).resolve_right oneWay
  · intro acyclic outer mem
    have recorded : outer ∈ registry.calls := List.mem_of_mem_filter mem
    refine ⟨?_, ?_⟩
    · rw [get_eq_outcome h recorded, outcome_eq_of_acyclic acyclic]
      split <;> rfl
    · intro inner reaches
      have precedes : Precedes (resolve registry options).mixinOrder inner outer.id :=
        ordered.precedes_of_reaches sound.distinct acyclic (walked outer mem) reaches
      exact ⟨precedes, resolved_before_of_precedes h recorded precedes⟩

/-- Mixins that include each other, one of which includes a third, recorded before it. -/
def tailRegistry : Registry :=
  plainRegistry [⟨.mixin, "First", ["Second", "Base"], []⟩, ⟨.mixin, "Second", ["First"], []⟩,
    ⟨.mixin, "Base", [], []⟩]

/-- Two mixins with one base, and a mixin that includes both; each is recorded before what it
includes. -/
def archRegistry : Registry :=
  plainRegistry [⟨.mixin, "Top", ["Left", "Right"], []⟩, ⟨.mixin, "Left", ["Base"], []⟩,
    ⟨.mixin, "Right", ["Base"], []⟩, ⟨.mixin, "Base", [], []⟩]

/-- Every inclusion of these mixins names one that is recorded later. -/
theorem lt_of_leads_arch {outer inner : Nat}
    (leads : Leads (edges archRegistry .standard) outer inner) : outer < inner := by
  obtain ⟨site, entry⟩ := leads
  have each : ∀ id < 4, ∀ step ∈ edges archRegistry .standard id, id < step.1 := by decide
  have recorded : outer < 4 := by
    obtain ⟨call, found, -⟩ := mem_edges_iff.mp entry
    exact (List.getElem?_eq_some_iff.mp found).1
  exact each outer recorded (inner, site) entry

/-- A base is merged before the cycle that leads to it. Where there is no cycle, everything that the
topmost mixin includes is resolved before it, the common base of two mixins too. -/
theorem mixins_merged_after_inclusions_arch :
    (tailRegistry.Indexed ∧ ¬ Reaches (edges tailRegistry .standard) 2 0 ∧
      Precedes (resolve tailRegistry .standard).mixinOrder 2 0) ∧
    archRegistry.Indexed ∧ (∀ id, ¬ Reaches (edges archRegistry .standard) id id) ∧
      Precedes (resolve archRegistry .standard).mixinOrder 3 0 ∧
      ∃ resolution, (resolutionsBefore archRegistry .standard 0).get? 3 = some resolution ∧
        (resolve archRegistry .standard).resolutions.get? 3 = some resolution := by
  have tailIndexed : tailRegistry.Indexed := (plainRegistry_wellFormed _).indexed
  have archIndexed : archRegistry.Indexed := (plainRegistry_wellFormed _).indexed
  refine ⟨⟨tailIndexed, ?_⟩, archIndexed, ?_⟩
  · have away : Leads (edges tailRegistry .standard) 0 2 := ⟨default, by decide⟩
    have final : edges tailRegistry .standard 2 = [] := by decide
    have oneWay : ¬ Reaches (edges tailRegistry .standard) 2 0 := by
      intro back
      obtain ⟨inner, ⟨site, entry⟩, -⟩ := Relation.TransGen.head'_iff.mp back
      rw [final] at entry
      cases entry
    obtain ⟨-, -, precedes, -⟩ := mixins_merged_after_inclusions tailRegistry .standard tailIndexed
    have first : tailRegistry.mixins[0]? = some
        ((PlainCall.mk .mixin "First" ["Second", "Base"] []).numbered 0) := rfl
    exact ⟨oneWay, precedes _ (List.mem_of_getElem? first) 2 away oneWay⟩
  · have acyclic : ∀ id, ¬ Reaches (edges archRegistry .standard) id id := by
      intro id round
      have up : Relation.TransGen (· < ·) id id :=
        Relation.TransGen.mono (fun _ _ => lt_of_leads_arch) _ _ round
      rw [Relation.transGen_eq_self] at up
      exact Nat.lt_irrefl id up
    have left : Leads (edges archRegistry .standard) 0 1 := ⟨default, by decide⟩
    have base : Leads (edges archRegistry .standard) 1 3 := ⟨default, by decide⟩
    obtain ⟨-, -, -, flattened⟩ := mixins_merged_after_inclusions archRegistry .standard archIndexed
    have top : archRegistry.mixins[0]? = some
        ((PlainCall.mk .mixin "Top" ["Left", "Right"] []).numbered 0) := rfl
    have merged := flattened acyclic _ (List.mem_of_getElem? top)
    exact ⟨acyclic, merged.2 3 (.tail (.single left) base)⟩

end ClassFactory
