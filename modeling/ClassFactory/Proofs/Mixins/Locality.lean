/-
Module: ClassFactory.Proofs.Mixins.Locality
Purpose: How a call resolves depends on nothing but the calls that it covers and on what their entries
  name: neither on the order of the calls nor on calls that have nothing to do with it.
Main exports: Undisturbed, Permutes, resolution_local
-/
import ClassFactory.Proofs.Mixins.Copies
import ClassFactory.Proofs.Mixins.Plain

namespace ClassFactory

/-- What the covered calls say is the same in both registries, and each name that their entries
mention still stands for something of the same kind, or for nothing. All other calls may be anything
that does not take such a name. -/
structure Undisturbed (naming : Renaming) (options : Options) (first second : Registry) (id : Nat) :
    Prop where
  copied : ∀ callee ∈ covered first options id, ∃ call copy, first.get? callee = some call ∧
    second.get? (naming.ids callee) = some copy ∧ call.Copies naming copy ∧
    copy.spec.mixins.map MixinRef.name = call.spec.mixins.map MixinRef.name
  bound : ∀ callee ∈ covered first options id, ∀ call, first.get? callee = some call →
    ∀ entry ∈ call.spec.mixins, options.isPureRenderMixin entry.name = false →
      (second.lookup? entry.name).map FactoryCall.kind =
        (first.lookup? entry.name).map FactoryCall.kind ∧
      second.isOpaque entry.name = first.isOpaque entry.name

/-- The second registry holds the calls of the first one in another order, maybe at other places, and
the same names stand for calls left out. -/
structure Permutes (naming : Renaming) (first second : Registry) : Prop where
  copied : ∀ call ∈ first.calls, ∃ copy, second.get? (naming.ids call.id) = some copy ∧
    call.Copies naming copy ∧
    copy.spec.mixins.map MixinRef.name = call.spec.mixins.map MixinRef.name
  onto : ∀ copy ∈ second.calls, ∃ call ∈ first.calls, copy.id = naming.ids call.id
  opaqueNames : ∀ name, second.isOpaque name = first.isOpaque name

section Names

variable {naming : Renaming} {options : Options} {first second : Registry}

/-- In an undisturbed registry entries of one name are classified alike, on whichever side they
stand. -/
theorem Undisturbed.alike (h : first.WellFormed) (h' : second.WellFormed) {id : Nat}
    (undisturbed : Undisturbed naming options first second id) {call : FactoryCall}
    (covers : call.id ∈ covered first options id) (found : first.get? call.id = some call)
    {entry other : MixinRef} (mem : entry ∈ call.spec.mixins) (named : other.name = entry.name) :
    (classify first options entry).Alike naming (classify second options other) := by
  have leads : ∀ inner, classify first options entry = .mixin inner entry.site →
      Leads (edges first options) call.id inner := fun inner classified =>
    ⟨entry.site, mem_edges_iff.mpr ⟨call, found, List.mem_map.mpr ⟨entry, mem, classified⟩⟩⟩
  unfold classify at leads ⊢
  rw [named]
  cases pure : options.isPureRenderMixin entry.name with
  | true => exact .pureRender
  | false =>
      obtain ⟨kinds, isOpaque⟩ := undisturbed.bound call.id covers call found entry mem pure
      simp only [pure, Bool.false_eq_true, if_false] at leads ⊢
      cases bound : first.lookup? entry.name with
      | none =>
          rw [bound, Option.map_none, Option.map_eq_none_iff] at kinds
          rw [kinds]
          dsimp only
          rw [isOpaque]
          split
          · exact .leftOut
          · exact .unknown
      | some target =>
          rw [bound] at kinds leads
          obtain ⟨otherTarget, otherBound, kind⟩ := Option.map_eq_some_iff.mp kinds
          have isMixin : otherTarget.isMixin = target.isMixin := by
            unfold FactoryCall.isMixin
            rw [kind]
          rw [otherBound]
          dsimp only at leads ⊢
          rw [isMixin]
          split
          · rename_i mixin
            rw [if_pos mixin] at leads
            -- the mixin is covered, so it has a copy, and that has its name
            obtain ⟨again, copy, targetFound, copyFound, copies, -⟩ :=
              undisturbed.copied target.id (Relation.ReflTransGen.tail covers (leads _ rfl))
            rw [h.get?_id (Registry.mem_of_lookup? bound)] at targetFound
            obtain rfl := Option.some.inj targetFound
            have targetName : target.name = entry.name := Registry.name_of_lookup? bound
            have copyBound := h'.lookup?_name (Registry.mem_of_get? copyFound)
            rw [copies.name, targetName, otherBound] at copyBound
            obtain rfl := Option.some.inj copyBound
            rw [h'.id_of_get? copyFound]
            exact .mixin _ _ _
          · exact .component _ _

/-- What is undisturbed is carried over entry by entry. -/
theorem Undisturbed.carries (h : first.WellFormed) (h' : second.WellFormed) {id : Nat}
    (undisturbed : Undisturbed naming options first second id) :
    Carries naming options first second id := by
  intro callee covers
  obtain ⟨call, copy, found, copyFound, copies, names⟩ := undisturbed.copied callee covers
  obtain rfl := h.id_of_get? found
  refine ⟨call, copy, found, copyFound, copies, ?_⟩
  unfold dependencies
  rw [List.forall₂_map_left_iff, List.forall₂_map_right_iff]
  have pairs : List.Forall₂ (fun entry other : MixinRef => other.name = entry.name)
      call.spec.mixins copy.spec.mixins := by
    have same : List.Forall₂ (· = ·) (call.spec.mixins.map MixinRef.name)
        (copy.spec.mixins.map MixinRef.name) := names ▸ List.forall₂_refl _
    rw [List.forall₂_map_left_iff, List.forall₂_map_right_iff] at same
    exact same.imp fun _ _ equal => equal.symm
  refine List.forall₂_iff_zip.mpr ⟨pairs.length_eq, fun {entry other} mem => ?_⟩
  exact undisturbed.alike h h' covers found (List.of_mem_zip mem).1
    ((List.forall₂_iff_zip.mp pairs).2 mem)

theorem exists_call_of_covered {call : FactoryCall} (mem : call ∈ first.calls) {callee : Nat}
    (covers : callee ∈ covered first options call.id) :
    ∃ other ∈ first.calls, other.id = callee := by
  rcases Relation.ReflTransGen.cases_tail covers with rfl | ⟨_, -, leads⟩
  · exact ⟨call, mem, rfl⟩
  · obtain ⟨mixin, mixinMem, -, same⟩ := exists_mixin_of_leads leads
    exact ⟨mixin, mixinMem, same⟩

/-- Permuting the calls of a registry disturbs none of them. -/
theorem Permutes.undisturbed (h : first.WellFormed) (h' : second.WellFormed)
    (permutes : Permutes naming first second) (options : Options) {call : FactoryCall}
    (mem : call ∈ first.calls) : Undisturbed naming options first second call.id where
  copied := by
    intro callee covers
    obtain ⟨other, otherMem, rfl⟩ := exists_call_of_covered mem covers
    obtain ⟨copy, copyFound, copies⟩ := permutes.copied other otherMem
    exact ⟨other, copy, h.get?_id otherMem, copyFound, copies⟩
  bound := by
    intro _ _ _ _ entry _ _
    refine ⟨?_, permutes.opaqueNames entry.name⟩
    cases bound : first.lookup? entry.name with
    | some target =>
        obtain ⟨copy, copyFound, copies, -⟩ :=
          permutes.copied target (Registry.mem_of_lookup? bound)
        have targetName : target.name = entry.name := Registry.name_of_lookup? bound
        have copyBound := h'.lookup?_name (Registry.mem_of_get? copyFound)
        rw [copies.name, targetName] at copyBound
        rw [copyBound, Option.map_some, Option.map_some, copies.kind]
    | none =>
        rw [Option.map_none, Option.map_eq_none_iff]
        by_contra some
        obtain ⟨copy, copyBound⟩ := Option.ne_none_iff_exists'.mp some
        obtain ⟨original, originalMem, number⟩ :=
          permutes.onto copy (Registry.mem_of_lookup? copyBound)
        obtain ⟨again, againFound, copies, -⟩ := permutes.copied original originalMem
        rw [← number, h'.get?_id (Registry.mem_of_lookup? copyBound)] at againFound
        obtain rfl := Option.some.inj againFound
        have copyName : copy.name = entry.name := Registry.name_of_lookup? copyBound
        have originalBound := h.lookup?_name originalMem
        rw [← copies.name, copyName, bound] at originalBound
        cases originalBound

end Names

/-- Resolution is local: a call resolves as its copy does in another registry, provided that all it
covers is copied and that entries name the same things there. So no order of the calls and no call
that is not covered makes a difference. -/
theorem resolution_local {first second : Registry} (options : Options) (h : first.WellFormed)
    (h' : second.WellFormed) (naming : Renaming) :
    (∀ id, Carries naming options first second id →
      ResolvesAlike naming options first second id) ∧
    (∀ id, Undisturbed naming options first second id →
      ResolvesAlike naming options first second id) ∧
    (Permutes naming first second → ∀ call ∈ first.calls,
      ResolvesAlike naming options first second call.id) :=
  ⟨fun _ carries => resolvesAlike_of_carries h h' carries,
    fun _ undisturbed => resolvesAlike_of_carries h h' (undisturbed.carries h h'),
    fun permutes _ mem =>
      resolvesAlike_of_carries h h' ((permutes.undisturbed h h' options mem).carries h h')⟩

/-- A mixin, one that includes it, and a component that includes both. -/
def layeredCalls : List PlainCall :=
  [⟨.mixin, "Base", [], ["toggle"]⟩, ⟨.mixin, "Over", ["Base"], ["toggle"]⟩,
    ⟨.component, "User", ["Base", "Over"], ["render"]⟩]

/-- The numbers of three calls the other way round. -/
def Renaming.backwards : Renaming where
  ids := fun id => if id < 3 then 2 - id else id
  sites := id
  injective := by
    intro one other same
    dsimp only at same
    split at same <;> split at same <;> omega

/-- The numbers of calls after one more call. -/
def Renaming.afterOne : Renaming where
  ids := fun id => id + 1
  sites := id
  injective := fun _ _ => Nat.succ.inj

/-- The component resolves alike when the calls have changed places, and beside a mixin that is
broken. -/
theorem resolution_local_layered :
    ((resolve (plainRegistry layeredCalls) .standard).surface? 2).isSome = true ∧
    ResolvesAlike .backwards .standard (plainRegistry layeredCalls)
      (plainRegistry layeredCalls.reverse) 2 ∧
    ResolvesAlike .afterOne .standard (plainRegistry layeredCalls)
      (plainRegistry (⟨.mixin, "Broken", ["Nowhere"], []⟩ :: layeredCalls)) 2 := by
  have sound := plainRegistry_wellFormed layeredCalls
  have calls : (plainRegistry layeredCalls).calls =
      layeredCalls.zipIdx.map fun entry => entry.1.numbered entry.2 := rfl
  obtain ⟨user, found⟩ : ∃ user, (plainRegistry layeredCalls).get? 2 = some user := ⟨_, rfl⟩
  have mem := Registry.mem_of_get? found
  have number : user.id = 2 := sound.id_of_get? found
  have permutes : Permutes .backwards (plainRegistry layeredCalls)
      (plainRegistry layeredCalls.reverse) := by
    refine ⟨?_, by decide, fun _ => rfl⟩
    rw [calls]
    refine List.forall_mem_cons.mpr ⟨?_, List.forall_mem_cons.mpr ⟨?_,
      List.forall_mem_cons.mpr ⟨?_, List.forall_mem_nil _⟩⟩⟩
    all_goals exact ⟨_, rfl, ⟨rfl, rfl, rfl, rfl⟩, rfl⟩
  have undisturbed : Undisturbed .afterOne .standard (plainRegistry layeredCalls)
      (plainRegistry (⟨.mixin, "Broken", ["Nowhere"], []⟩ :: layeredCalls)) user.id := by
    have copied : ∀ call ∈ (plainRegistry layeredCalls).calls, ∃ copy,
        (plainRegistry (⟨.mixin, "Broken", ["Nowhere"], []⟩ :: layeredCalls)).get?
          (Renaming.afterOne.ids call.id) = some copy ∧ call.Copies .afterOne copy ∧
        copy.spec.mixins.map MixinRef.name = call.spec.mixins.map MixinRef.name := by
      rw [calls]
      refine List.forall_mem_cons.mpr ⟨?_, List.forall_mem_cons.mpr ⟨?_,
        List.forall_mem_cons.mpr ⟨?_, List.forall_mem_nil _⟩⟩⟩
      all_goals exact ⟨_, rfl, ⟨rfl, rfl, rfl, rfl⟩, rfl⟩
    have bound : ∀ call ∈ (plainRegistry layeredCalls).calls, ∀ entry ∈ call.spec.mixins,
        ((plainRegistry (⟨.mixin, "Broken", ["Nowhere"], []⟩ :: layeredCalls)).lookup?
            entry.name).map FactoryCall.kind =
          ((plainRegistry layeredCalls).lookup? entry.name).map FactoryCall.kind := by decide
    refine ⟨fun callee covers => ?_, fun _ _ call callFound entry entryMem _ =>
      ⟨bound call (Registry.mem_of_get? callFound) entry entryMem, rfl⟩⟩
    obtain ⟨call, callMem, rfl⟩ := exists_call_of_covered mem covers
    obtain ⟨copy, copyFound, copies⟩ := copied call callMem
    exact ⟨call, copy, sound.get?_id callMem, copyFound, copies⟩
  refine ⟨by decide, ?_⟩
  rw [← number]
  exact ⟨(resolution_local .standard sound (plainRegistry_wellFormed _) .backwards).2.2
      permutes user mem,
    (resolution_local .standard sound (plainRegistry_wellFormed _) .afterOne).2.1 _ undisturbed⟩

end ClassFactory
