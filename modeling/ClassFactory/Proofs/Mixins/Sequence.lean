/-
Module: ClassFactory.Proofs.Mixins.Sequence
Purpose: The order in which the calls of a registry are resolved, and what is known when the turn of
  a call comes. Each call is resolved once; a mixin that is not known to lie on a cycle, and every
  component, comes after the mixins it includes itself.
Main exports: callSequence, Earlier, resolutionsBefore, outcome, findings, get_eq_outcome,
  get?_before_of_earlier, earlier_of_leads, earlier_wellFounded, good_and_earlier_of_reaches,
  diagnostics_eq
-/
import ClassFactory.Mixins.Resolution
import ClassFactory.Proofs.Mixins.Walk
import ClassFactory.Proofs.Registry
import Mathlib.Data.List.Induction

namespace ClassFactory

/-! ## Resolutions as a list that grows -/

namespace Resolutions

variable {resolutions : Resolutions}

/-- In a list of resolutions the first one of a call counts. -/
theorem get?_append (more : Resolutions) (id : Nat) :
    get? (resolutions ++ more) id = (get? resolutions id).or (get? more id) := by
  induction resolutions with
  | nil => rfl
  | cons entry rest ih =>
      obtain ⟨key, resolution⟩ := entry
      by_cases same : key = id <;> simp [get?, same, ih]

/-- Nothing is known of a call just if the list does not have it. -/
theorem get?_eq_none_iff {id : Nat} :
    get? resolutions id = none ↔ id ∉ resolutions.map Prod.fst := by
  induction resolutions with
  | nil => simp [get?]
  | cons entry rest ih =>
      obtain ⟨key, resolution⟩ := entry
      by_cases same : key = id
      · simp [get?, same]
      · simp [get?, same, ih, Ne.symm same]

end Resolutions

section Sequence

variable (registry : Registry) (options : Options)

/-- The calls in the order in which they are resolved. -/
def callSequence : List FactoryCall :=
  (mixinWalk registry options).order.filterMap registry.get? ++ registry.components

/-- The first of two calls is resolved before the second. -/
def Earlier (first second : Nat) : Prop :=
  Precedes ((callSequence registry options).map FactoryCall.id) first second

/-- What becomes of a call and what is reported, given what became of the calls before it. -/
def outcome (resolutions : Resolutions) (call : FactoryCall) : Resolution × List Diagnostic :=
  if (mixinWalk registry options).cyclic.contains call.id || hasBadEntry registry options call then
    (.failed, [])
  else flatten registry options resolutions call

/-- Resolving calls one after another. -/
def resolveAll (calls : List FactoryCall) : Resolutions × List Diagnostic :=
  calls.foldl (resolveCall registry options (mixinWalk registry options).cyclic) ([], [])

/-- What is known when the turn of a call comes. -/
def resolutionsBefore (id : Nat) : Resolutions :=
  (resolveAll registry options
    ((callSequence registry options).takeWhile fun call => call.id ≠ id)).1

/-- What is reported when a call is resolved. -/
def findings (call : FactoryCall) : List Diagnostic :=
  (outcome registry options (resolutionsBefore registry options call.id) call).2

variable {registry options}

/-- The last call is resolved by what became of those before it. -/
theorem resolveAll_concat (calls : List FactoryCall) (call : FactoryCall) :
    resolveAll registry options (calls ++ [call]) =
      ((resolveAll registry options calls).1 ++
          [(call.id, (outcome registry options (resolveAll registry options calls).1 call).1)],
        (resolveAll registry options calls).2 ++
          (outcome registry options (resolveAll registry options calls).1 call).2) := by
  simp only [resolveAll, List.foldl_append, List.foldl_cons, List.foldl_nil, resolveCall, outcome]
  split <;> simp

theorem resolveAll_ids (calls : List FactoryCall) :
    (resolveAll registry options calls).1.map Prod.fst = calls.map FactoryCall.id := by
  induction calls using List.reverseRecOn with
  | nil => rfl
  | append_singleton calls call ih => simp [resolveAll_concat, ih]

/-- Resolving further calls only adds to what is known. -/
theorem resolveAll_append (registry : Registry) (options : Options)
    (calls more : List FactoryCall) :
    ∃ added, (resolveAll registry options (calls ++ more)).1 =
      (resolveAll registry options calls).1 ++ added := by
  induction more using List.reverseRecOn with
  | nil => exact ⟨[], by simp⟩
  | append_singleton more call ih =>
      obtain ⟨added, h⟩ := ih
      rw [← List.append_assoc, resolveAll_concat, h, List.append_assoc]
      exact ⟨_, rfl⟩

/-- What stands before one of the items of a list whose keys differ. -/
theorem takeWhile_eq_of_split {α : Type} (key : α → Nat) {items earlier later : List α}
    {item : α} (distinct : (items.map key).Nodup) (split : items = earlier ++ item :: later) :
    items.takeWhile (fun other => key other ≠ key item) = earlier := by
  subst split
  have others : ∀ other ∈ earlier, key other ≠ key item := by
    intro other mem same
    rw [List.map_append, List.nodup_append] at distinct
    exact distinct.2.2 _ (List.mem_map_of_mem mem) _ (by simp) same
  rw [List.takeWhile_append_of_pos (by simpa using others)]
  simp

/-- What is reported over a sequence, call by call. -/
theorem resolveAll_reports {calls : List FactoryCall}
    (distinct : (calls.map FactoryCall.id).Nodup) :
    (resolveAll registry options calls).2 = calls.flatMap fun call =>
      (outcome registry options
        (resolveAll registry options (calls.takeWhile fun other => other.id ≠ call.id)).1
        call).2 := by
  induction calls using List.reverseRecOn with
  | nil => rfl
  | append_singleton calls call ih =>
      have shorter : (calls.map FactoryCall.id).Nodup := by
        rw [List.map_append, List.nodup_append] at distinct
        exact distinct.1
      have unchanged : ∀ other ∈ calls,
          (calls ++ [call]).takeWhile (fun place => place.id ≠ other.id) =
            calls.takeWhile fun place => place.id ≠ other.id := by
        intro other mem
        obtain ⟨earlier, later, split⟩ := List.append_of_mem mem
        have longer : calls ++ [call] = earlier ++ other :: (later ++ [call]) := by simp [split]
        rw [takeWhile_eq_of_split FactoryCall.id shorter split]
        exact takeWhile_eq_of_split FactoryCall.id distinct longer
      rw [resolveAll_concat, ih shorter, List.flatMap_append]
      refine congrArg₂ (· ++ ·) ?_ ?_
      · refine List.flatMap_congr fun other mem => ?_
        rw [unchanged other mem]
      · simp only [List.flatMap_cons, List.flatMap_nil, List.append_nil]
        have last : calls ++ [call] = calls ++ call :: [] := rfl
        rw [takeWhile_eq_of_split FactoryCall.id distinct last]

/-! ## Entries and the walk of a registry -/

/-- There is a step to a mixin just if some entry names it. -/
theorem mem_edges_iff {id target : Nat} {site : Site} :
    (target, site) ∈ edges registry options id ↔
      ∃ call, registry.get? id = some call ∧
        .mixin target site ∈ dependencies registry options call := by
  unfold edges
  split
  · rename_i call found
    rw [List.mem_filterMap]
    constructor
    · rintro ⟨dependency, mem, step⟩
      cases dependency <;> simp only [Dependency.edge?, Option.some.injEq, Prod.mk.injEq,
        reduceCtorEq] at step
      obtain ⟨rfl, rfl⟩ := step
      exact ⟨call, found, mem⟩
    · rintro ⟨other, otherFound, mem⟩
      obtain rfl : call = other := by simpa [found] using otherFound
      exact ⟨_, mem, rfl⟩
  · rename_i absent
    simp [absent]

/-- An entry that names a mixin names one that is recorded. -/
theorem exists_mixin_of_leads {outer inner : Nat}
    (leads : Leads (edges registry options) outer inner) :
    ∃ call ∈ registry.calls, call.isMixin = true ∧ call.id = inner := by
  obtain ⟨site, mem⟩ := leads
  obtain ⟨call, -, dependency⟩ := mem_edges_iff.mp mem
  obtain ⟨entry, -, classified⟩ := List.mem_map.mp dependency
  unfold classify at classified
  split at classified
  · cases classified
  · split at classified
    · rename_i target found
      split at classified
      · rename_i isMixin
        simp only [Dependency.mixin.injEq] at classified
        exact ⟨target, Registry.mem_of_lookup? found, isMixin, classified.1⟩
      · cases classified
    · split at classified <;> cases classified

/-- Only a call of the registry has entries. -/
theorem exists_call_of_leads {outer inner : Nat} (h : registry.Indexed)
    (leads : Leads (edges registry options) outer inner) :
    ∃ call ∈ registry.calls, call.id = outer := by
  obtain ⟨site, mem⟩ := leads
  obtain ⟨call, found, -⟩ := mem_edges_iff.mp mem
  exact ⟨call, Registry.mem_of_get? found, h.id_of_get? found⟩

/-- The numbers of the mixins are those of the calls that are mixins. -/
theorem mem_mixin_ids {id : Nat} :
    id ∈ registry.mixins.map FactoryCall.id ↔
      ∃ call ∈ registry.calls, call.isMixin = true ∧ call.id = id := by
  simp [Registry.mixins, and_assoc]

/-- All that entries lead to are mixins. -/
theorem mixins_closed :
    Closed (edges registry options) (registry.mixins.map FactoryCall.id) :=
  fun _ _ _ leads => mem_mixin_ids.mpr (exists_mixin_of_leads leads)

/-- The walk over the mixins may go deeper than there are mixins. -/
theorem mixins_length_lt (registry : Registry) :
    (registry.mixins.map FactoryCall.id).length < registry.calls.length + 1 := by
  have fewer := List.length_filter_le FactoryCall.isMixin registry.calls
  simp only [Registry.mixins, List.length_map]
  omega

/-- The walk over the mixins of a registry is sound and finishes them all. -/
theorem mixinWalk_sound (registry : Registry) (options : Options) :
    (mixinWalk registry options).Sound (edges registry options)
        (registry.mixins.map FactoryCall.id) [] ∧
      ∀ id ∈ registry.mixins.map FactoryCall.id, id ∈ (mixinWalk registry options).order :=
  traverse_sound mixins_closed (mixins_length_lt registry)

/-! ## The sequence -/

/-- The walked mixins are calls of the registry under their numbers. -/
theorem walked_ids (h : registry.Indexed) :
    ((mixinWalk registry options).order.filterMap registry.get?).map FactoryCall.id =
      (mixinWalk registry options).order := by
  have known := (mixinWalk_sound registry options).1.known
  generalize (mixinWalk registry options).order = order at known ⊢
  induction order with
  | nil => rfl
  | cons id rest ih =>
      obtain ⟨call, mem, -, same⟩ := mem_mixin_ids.mp (known id List.mem_cons_self)
      have found : registry.get? id = some call := same ▸ h.get?_id mem
      simp [found, same, ih fun other mem => known other (List.mem_cons_of_mem _ mem)]

/-- Calls are resolved in the order of the walk, and after the mixins the components. -/
theorem callSequence_ids (h : registry.Indexed) :
    (callSequence registry options).map FactoryCall.id =
      (mixinWalk registry options).order ++ registry.components.map FactoryCall.id := by
  rw [callSequence, List.map_append, walked_ids h]

theorem not_isComponent_iff {call : FactoryCall} : call.isComponent = false ↔ call.isMixin := by
  unfold FactoryCall.isComponent FactoryCall.isMixin
  cases call.kind <;> simp

/-- Every call has a turn. -/
theorem mem_callSequence (h : registry.Indexed) {call : FactoryCall} :
    call ∈ callSequence registry options ↔ call ∈ registry.calls := by
  simp only [callSequence, List.mem_append, List.mem_filterMap]
  constructor
  · rintro (⟨id, -, found⟩ | component)
    · exact Registry.mem_of_get? found
    · exact List.mem_of_mem_filter component
  · intro mem
    cases isComponent : call.isComponent with
    | true => exact .inr (List.mem_filter.mpr ⟨mem, isComponent⟩)
    | false =>
        have mixin : call.id ∈ registry.mixins.map FactoryCall.id :=
          mem_mixin_ids.mpr ⟨call, mem, not_isComponent_iff.mp isComponent, rfl⟩
        exact .inl ⟨call.id, (mixinWalk_sound registry options).2 _ mixin, h.get?_id mem⟩

/-- No call has two turns. -/
theorem callSequence_nodup (options : Options) (h : registry.Indexed) :
    ((callSequence registry options).map FactoryCall.id).Nodup := by
  obtain ⟨sound, -⟩ := mixinWalk_sound registry options
  rw [callSequence_ids h, List.nodup_append]
  refine ⟨sound.distinct, ?_, ?_⟩
  · exact h.ids_nodup.sublist (List.filter_sublist.map _)
  · rintro id walked _ isComponent rfl
    obtain ⟨mixin, mixinMem, isMixin, mixinId⟩ := mem_mixin_ids.mp (sound.known id walked)
    obtain ⟨component, componentMem, componentId⟩ := List.mem_map.mp isComponent
    obtain ⟨mem, kind⟩ := List.mem_filter.mp componentMem
    have same : mixin = component := by
      have foundMixin := h.get?_id mixinMem
      rw [mixinId, ← componentId, h.get?_id mem] at foundMixin
      exact (Option.some.inj foundMixin).symm
    subst same
    rw [not_isComponent_iff.mpr isMixin] at kind
    cases kind

theorem resolve_resolutions :
    (resolve registry options).resolutions =
      (resolveAll registry options (callSequence registry options)).1 :=
  rfl

/-- The findings of a resolution: first those about entries, then the cycles, then what is reported
as the calls are resolved. -/
theorem diagnostics_eq (h : registry.Indexed) :
    (resolve registry options).diagnostics =
      registry.calls.flatMap (entryProblems registry options) ++
        (mixinWalk registry options).cycles.map (cycleProblem registry) ++
        (callSequence registry options).flatMap (findings registry options) := by
  have reports : (resolveAll registry options (callSequence registry options)).2 = _ :=
    resolveAll_reports (callSequence_nodup options h)
  unfold findings resolutionsBefore
  rw [← reports]
  rfl

/-- What is known at the turn of a call is what became of the calls in front of it. -/
theorem exists_split (options : Options) (h : registry.Indexed) {call : FactoryCall}
    (mem : call ∈ registry.calls) :
    ∃ earlier later, callSequence registry options = earlier ++ call :: later ∧
      resolutionsBefore registry options call.id = (resolveAll registry options earlier).1 := by
  obtain ⟨earlier, later, split⟩ := List.append_of_mem ((mem_callSequence h).mpr mem)
  refine ⟨earlier, later, split, ?_⟩
  rw [resolutionsBefore, takeWhile_eq_of_split FactoryCall.id (callSequence_nodup options h) split]

/-- A call becomes what it comes to when its turn comes. -/
theorem get_eq_outcome (h : registry.Indexed) {call : FactoryCall}
    (mem : call ∈ registry.calls) :
    (resolve registry options).resolutions.get? call.id =
      some (outcome registry options (resolutionsBefore registry options call.id) call).1 := by
  obtain ⟨earlier, later, split, before⟩ := exists_split options h mem
  obtain ⟨added, grown⟩ :=
    resolveAll_append registry options (earlier ++ [call]) later
  have fresh : Resolutions.get? (resolveAll registry options earlier).1 call.id = none := by
    rw [Resolutions.get?_eq_none_iff, resolveAll_ids]
    have distinct := callSequence_nodup options h
    rw [split, List.map_append, List.nodup_append] at distinct
    exact fun earlierMem => distinct.2.2 _ earlierMem _ (by simp) rfl
  rw [resolve_resolutions, before]
  rw [List.append_assoc, List.singleton_append, ← split] at grown
  rw [grown, resolveAll_concat]
  simp [Resolutions.get?_append, fresh, Resolutions.get?]

/-- When the turn of a call comes, it is known what became of the calls before it. -/
theorem get?_before_of_earlier (h : registry.Indexed) {call : FactoryCall}
    (mem : call ∈ registry.calls) {id : Nat} (earlier : Earlier registry options id call.id) :
    (resolutionsBefore registry options call.id).get? id =
      (resolve registry options).resolutions.get? id := by
  obtain ⟨calls, later, split, before⟩ := exists_split options h mem
  obtain ⟨added, grown⟩ :=
    resolveAll_append registry options calls (call :: later)
  obtain ⟨ids, rest, idsSplit, idMem⟩ := earlier
  have distinct := callSequence_nodup options h
  have sameIds : ids = calls.map FactoryCall.id := by
    calc
      ids = ((callSequence registry options).map FactoryCall.id).takeWhile
          fun other => other ≠ call.id :=
        (takeWhile_eq_of_split (fun id => id) (by rwa [List.map_id']) idsSplit).symm
      _ = ((callSequence registry options).takeWhile
          fun other => other.id ≠ call.id).map FactoryCall.id := by
        rw [List.takeWhile_map]
        rfl
      _ = calls.map FactoryCall.id := by
        rw [takeWhile_eq_of_split FactoryCall.id distinct split]
  have known : Resolutions.get? (resolveAll registry options calls).1 id ≠ none := by
    rw [ne_eq, Resolutions.get?_eq_none_iff, resolveAll_ids, ← sameIds]
    exact fun absent => absent idMem
  obtain ⟨resolution, found⟩ := Option.ne_none_iff_exists'.mp known
  rw [resolve_resolutions, before, split, grown, Resolutions.get?_append, found]
  rfl

/-- A call that is not known to lie on a cycle comes after the mixins that it includes itself. -/
theorem earlier_of_leads (h : registry.Indexed) {call : FactoryCall}
    (mem : call ∈ registry.calls) (acyclic : call.id ∉ (mixinWalk registry options).cyclic)
    {inner : Nat} (leads : Leads (edges registry options) call.id inner) :
    Earlier registry options inner call.id := by
  obtain ⟨sound, finished⟩ := mixinWalk_sound registry options
  rw [Earlier, callSequence_ids h]
  cases isComponent : call.isComponent with
  | false =>
      have walked := finished call.id
        (mem_mixin_ids.mpr ⟨call, mem, not_isComponent_iff.mp isComponent, rfl⟩)
      rcases sound.settled call.id walked inner leads with precedes | ⟨cyclic, -⟩
      · exact precedes.append _
      · exact absurd cyclic acyclic
  | true =>
      have component : call.id ∈ registry.components.map FactoryCall.id :=
        List.mem_map_of_mem (List.mem_filter.mpr ⟨mem, isComponent⟩)
      obtain ⟨before, after, split⟩ := List.append_of_mem component
      have walked := finished inner (mem_mixin_ids.mpr (exists_mixin_of_leads leads))
      exact ⟨(mixinWalk registry options).order ++ before, after, by simp [split],
        List.mem_append_left _ walked⟩

/-- What precedes another item stands at a lower position. -/
theorem Precedes.idxOf_lt {order : List Nat} (distinct : order.Nodup) {first second : Nat}
    (precedes : Precedes order first second) : order.idxOf first < order.idxOf second := by
  obtain ⟨before, after, rfl, mem⟩ := precedes
  have fresh : second ∉ before := fun earlier =>
    (List.nodup_append.mp distinct).2.2 _ earlier _ List.mem_cons_self rfl
  rw [List.idxOf_append_of_mem mem, List.idxOf_append_of_notMem fresh, List.idxOf_cons_self]
  exact Nat.lt_add_right 0 (List.idxOf_lt_length_of_mem mem)

/-- In a list without repetitions what precedes a second item precedes what comes after it. -/
theorem Precedes.trans {order : List Nat} (distinct : order.Nodup) {first second third : Nat}
    (one : Precedes order first second) (two : Precedes order second third) :
    Precedes order first third := by
  obtain ⟨before, after, split, firstMem⟩ := one
  obtain ⟨later, rest, rfl, secondMem⟩ := two
  obtain ⟨start, middle, rfl⟩ := List.append_of_mem secondMem
  have distinct : ((start ++ second :: middle ++ third :: rest).map fun id => id).Nodup := by
    rwa [List.map_id']
  have same : before = start := by
    rw [← takeWhile_eq_of_split (fun id => id) distinct split]
    exact takeWhile_eq_of_split (fun id => id) distinct
      (List.append_assoc start (second :: middle) (third :: rest))
  exact ⟨_, rest, rfl, List.mem_append_left _ (same ▸ firstMem)⟩

/-- The sequence is finite, so proofs may go along it. -/
theorem earlier_wellFounded (options : Options) (h : registry.Indexed) :
    WellFounded (Earlier registry options) :=
  Subrelation.wf (fun precedes => Precedes.idxOf_lt (callSequence_nodup options h) precedes)
    (measure fun id => ((callSequence registry options).map FactoryCall.id).idxOf id).wf

theorem not_earlier_self (h : registry.Indexed) (id : Nat) :
    ¬ Earlier registry options id id := fun earlier =>
  Nat.lt_irrefl _ (Precedes.idxOf_lt (callSequence_nodup options h) earlier)

/-- Where the entries of good calls name good calls that come earlier, so does all that a good call
includes. -/
theorem good_and_earlier_of_reaches (h : registry.Indexed) (good : Nat → Prop)
    (step : ∀ outer inner, good outer → Leads (edges registry options) outer inner →
      good inner ∧ Earlier registry options inner outer)
    {outer inner : Nat} (isGood : good outer)
    (reaches : Reaches (edges registry options) outer inner) :
    good inner ∧ Earlier registry options inner outer := by
  induction reaches with
  | single leads => exact step _ _ isGood leads
  | tail _ leads ih =>
      obtain ⟨middleGood, middleEarlier⟩ := ih
      obtain ⟨innerGood, innerEarlier⟩ := step _ _ middleGood leads
      exact ⟨innerGood, Precedes.trans (callSequence_nodup options h) innerEarlier middleEarlier⟩

end Sequence

end ClassFactory
