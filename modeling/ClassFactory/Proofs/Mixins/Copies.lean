/-
Module: ClassFactory.Proofs.Mixins.Copies
Purpose: Calls that are carried over into another registry with all that they cover. Where the entries
  of the copies name the same things up to renaming, a copy has copies of the inclusions, is merged to
  a copy of what the call is merged to, and resolves as the call does.
Main exports: FactoryCall.Copies, Dependency.Alike, Carries, ResolvesAlike, Carries.reaches_iff,
  Carried.assembled_eq, Carried.resolvesAlike, resolvesAlike_of_carries
-/
import ClassFactory.Proofs.Correspondence
import ClassFactory.Proofs.Mixins.Contents
import ClassFactory.Proofs.Mixins.Mirroring
import ClassFactory.Proofs.Mixins.Propagation

namespace ClassFactory

/-! ## Copies -/

/-- A call of the same name and kind, and with the same members and statics up to renaming. -/
structure FactoryCall.Copies (naming : Renaming) (call copy : FactoryCall) : Prop where
  name : copy.name = call.name
  kind : copy.kind = call.kind
  members : copy.spec.members = call.spec.members.mapValues (SpecMember.rename naming)
  statics : copy.spec.statics = call.spec.statics.mapValues (StaticDef.rename naming)

/-- Two entries name the same thing: the same mixin up to renaming, or something of the same kind. -/
inductive Dependency.Alike (naming : Renaming) : Dependency → Dependency → Prop where
  | mixin (id : Nat) (site other : Site) :
      Alike naming (.mixin id site) (.mixin (naming.ids id) other)
  | pureRender : Alike naming .pureRender .pureRender
  | leftOut : Alike naming .leftOut .leftOut
  | component (site other : Site) : Alike naming (.component site) (.component other)
  | unknown : Alike naming .unknown .unknown

/-- Every call that is covered in the first registry has a copy under its new number in the second,
and its entries name the same things there. -/
def Carries (naming : Renaming) (options : Options) (first second : Registry) (id : Nat) : Prop :=
  ∀ callee ∈ covered first options id, ∃ call copy, first.get? callee = some call ∧
    second.get? (naming.ids callee) = some copy ∧ call.Copies naming copy ∧
    List.Forall₂ (Dependency.Alike naming) (dependencies first options call)
      (dependencies second options copy)

/-- The call resolves to the same kind of outcome in both registries, with equal surfaces up to
renaming. -/
def ResolvesAlike (naming : Renaming) (options : Options) (first second : Registry) (id : Nat) :
    Prop :=
  (resolve second options).get (naming.ids id) = ((resolve first options).get id).rename naming

section Carried

variable {naming : Renaming} {options : Options} {first second : Registry}

/-! ## Inclusions of copies -/

/-- What a call includes is carried over with it. -/
theorem Carries.of_leads {id inner : Nat} (carries : Carries naming options first second id)
    (leads : Leads (edges first options) id inner) :
    Carries naming options first second inner :=
  fun callee covers => carries callee (.head leads covers)

/-- The copy includes the copies of what the call includes, and nothing else. -/
theorem Carries.leads_iff {id : Nat} (carries : Carries naming options first second id)
    {target : Nat} :
    Leads (edges second options) (naming.ids id) target ↔
      ∃ inner, Leads (edges first options) id inner ∧ target = naming.ids inner := by
  obtain ⟨call, copy, found, copyFound, -, entries⟩ := carries id (mem_covered_self id)
  simp only [Leads, mem_edges_iff, found, copyFound, Option.some.injEq, exists_eq_left']
  constructor
  · rintro ⟨site, mem⟩
    obtain ⟨dependency, listed, alike⟩ := exists_left_of_forall₂ entries mem
    cases alike with
    | mixin inner here => exact ⟨inner, ⟨here, listed⟩, rfl⟩
  · rintro ⟨inner, ⟨site, mem⟩, rfl⟩
    obtain ⟨dependency, listed, alike⟩ := exists_right_of_forall₂ entries mem
    cases alike with
    | mixin _ _ other => exact ⟨other, listed⟩

/-- A copy includes just the copies of what the call includes. -/
theorem Carries.reaches_iff {id : Nat} (carries : Carries naming options first second id)
    {target : Nat} :
    Reaches (edges second options) (naming.ids id) target ↔
      ∃ inner, Reaches (edges first options) id inner ∧ target = naming.ids inner := by
  constructor
  · intro reaches
    induction reaches with
    | single leads =>
        obtain ⟨inner, here, rfl⟩ := carries.leads_iff.mp leads
        exact ⟨inner, .single here, rfl⟩
    | tail _ leads ih =>
        obtain ⟨middle, before, rfl⟩ := ih
        have carriesMiddle : Carries naming options first second middle :=
          fun callee covers => carries callee (before.to_reflTransGen.trans covers)
        obtain ⟨inner, here, rfl⟩ := carriesMiddle.leads_iff.mp leads
        exact ⟨inner, before.tail here, rfl⟩
  · rintro ⟨inner, reaches, rfl⟩
    induction reaches with
    | single leads => exact .single (carries.leads_iff.mpr ⟨_, leads, rfl⟩)
    | tail before leads ih =>
        have carriesMiddle : Carries naming options first second _ :=
          fun callee covers => carries callee (before.to_reflTransGen.trans covers)
        exact ih.tail (carriesMiddle.leads_iff.mpr ⟨_, leads, rfl⟩)

/-- Inclusion through others is carried over too. -/
theorem Carries.reaches_copy_iff {id : Nat} (carries : Carries naming options first second id)
    {inner : Nat} :
    Reaches (edges second options) (naming.ids id) (naming.ids inner) ↔
      Reaches (edges first options) id inner := by
  rw [carries.reaches_iff]
  constructor
  · rintro ⟨other, reaches, same⟩
    exact naming.ids_eq_iff.mp same ▸ reaches
  · exact fun reaches => ⟨inner, reaches, rfl⟩

/-! ## Entries of copies -/

/-- Whether an entry names no mixin is told by what the entries name. -/
theorem hasBadEntry_eq (registry : Registry) (options : Options) (call : FactoryCall) :
    hasBadEntry registry options call =
      (dependencies registry options call).any fun
        | .component _ => true
        | .unknown => true
        | _ => false := by
  unfold hasBadEntry dependencies
  rw [List.any_map]
  refine congrArg (List.any _) (funext fun entry => ?_)
  unfold entryProblem?
  rw [Function.comp_apply]
  cases classify registry options entry <;> rfl

section Copy

variable {call copy : FactoryCall}

/-- The copy has a bad entry just if the call has one. -/
theorem hasBadEntry_copy (entries : List.Forall₂ (Dependency.Alike naming)
      (dependencies first options call) (dependencies second options copy)) :
    hasBadEntry second options copy = hasBadEntry first options call := by
  rw [hasBadEntry_eq, hasBadEntry_eq]
  refine any_eq_of_forall₂ entries fun one other alike => ?_
  cases alike <;> rfl

/-- The copy renders purely just if the call does. -/
theorem pureRender_copy (entries : List.Forall₂ (Dependency.Alike naming)
      (dependencies first options call) (dependencies second options copy)) :
    (inclusions second options copy).pureRender = (inclusions first options call).pureRender := by
  rw [inclusions, inclusions, Inclusions.ofDependencies_eq, Inclusions.ofDependencies_eq]
  refine any_eq_of_forall₂ entries fun one other alike => ?_
  cases alike <;> simp

theorem leftOut_mem_copy_iff (entries : List.Forall₂ (Dependency.Alike naming)
      (dependencies first options call) (dependencies second options copy)) :
    .leftOut ∈ dependencies second options copy ↔ .leftOut ∈ dependencies first options call := by
  constructor
  · intro mem
    obtain ⟨_, listed, alike⟩ := exists_left_of_forall₂ entries mem
    cases alike
    exact listed
  · intro mem
    obtain ⟨_, listed, alike⟩ := exists_right_of_forall₂ entries mem
    cases alike
    exact listed

/-- A copy that was merged from the same things is found to be as sound as the call. -/
theorem assemblyProblems_copy_iff (copies : call.Copies naming copy) (assembly : Assembly) :
    assemblyProblems second copy (assembly.rename naming) = [] ↔
      assemblyProblems first call assembly = [] := by
  have isComponent : copy.isComponent = call.isComponent := by
    unfold FactoryCall.isComponent
    rw [copies.kind]
  have render : copy.spec.member? "render" =
      (call.spec.member? "render").map (SpecMember.rename naming) := by
    rw [FactorySpec.member?, copies.members, Keyed.get?_mapValues]
    rfl
  have arity : renderArityProblem copy = [] ↔ renderArityProblem call = [] := by
    unfold renderArityProblem
    rw [render]
    cases call.spec.member? "render" with
    | none => rfl
    | some member =>
        obtain ⟨_, _, _, kind, _⟩ := member
        cases kind with
        | method signature arity => simp [SpecMember.rename, MemberKind.rename]
        | declared => rfl
        | value => rfl
  have pure : pureRenderProblem (assembly.surface.rename naming) = [] ↔
      pureRenderProblem assembly.surface = [] := by
    have same : (assembly.surface.rename naming).pureRender = assembly.surface.pureRender := rfl
    unfold pureRenderProblem
    rw [same, Surface.rename_primary?]
    cases assembly.surface.primary? "shouldComponentUpdate" <;> simp
  have defines : definesRender copy = definesRender call := by
    unfold definesRender
    rw [render]
    cases call.spec.member? "render" with
    | none => rfl
    | some member => simp [SpecMember.rename]
  have renders : renderProblem second copy (assembly.surface.rename naming) = [] ↔
      renderProblem first call assembly.surface = [] := by
    unfold renderProblem
    rw [defines, Surface.rename_hookChain]
    split
    · rfl
    · cases assembly.surface.hookChain .render with
      | nil => simp
      | cons one rest => cases rest <;> simp
  unfold assemblyProblems
  rw [isComponent]
  cases call.isComponent <;> simp [Assembly.rename, arity, pure, renders]

/-- What is published of the copy is the renamed publication. -/
theorem exposed_copy (copies : call.Copies naming copy) (assembly : Assembly) :
    exposed copy (assembly.rename naming) = (exposed call assembly).rename naming := by
  have isComponent : copy.isComponent = call.isComponent := by
    unfold FactoryCall.isComponent
    rw [copies.kind]
  unfold exposed
  rw [isComponent]
  split <;> rfl

end Copy

/-! ## Merging copies -/

/-- All definitions in a surface are by calls that its call covers. -/
theorem surface_within {registry : Registry} (h : registry.WellFormed) {id : Nat}
    {surface : Surface} (found : (resolve registry options).surface? id = some surface) :
    surface.Within (covered registry options id) where
  members := by
    intro entry listed definition mem
    have fitting := (surface_sound h found).fitting
    have has : surface.member? entry.1 = some entry.2 :=
      (Keyed.get?_eq_some_iff fitting.members).mpr listed
    exact (descends_of_mem_definitions h found has mem).1
  statics := by
    intro entry listed
    have fitting := (surface_sound h found).fitting
    have has : surface.statics.get? entry.1 = some entry.2 :=
      (Keyed.get?_eq_some_iff fitting.statics).mpr listed
    exact ((surface_static_gathered h entry.1 found).descends entry.2 has).1

/-- A mixin that is on no cycle is not noted as lying on one. -/
theorem notMem_cyclic_of_acyclic {registry : Registry} {id : Nat}
    (acyclic : ¬ Reaches (edges registry options) id id) :
    id ∉ (mixinWalk registry options).cyclic := by
  intro cyclic
  obtain ⟨cycle, closes, mem⟩ := (mixinWalk_sound registry options).1.genuine id cyclic
  exact acyclic (closes.reaches mem mem)

/-- A call that is carried over, with its copy. -/
structure Carried (naming : Renaming) (options : Options) (first second : Registry)
    (call copy : FactoryCall) : Prop where
  mem : call ∈ first.calls
  copyMem : copy ∈ second.calls
  id : copy.id = naming.ids call.id
  copies : call.Copies naming copy
  entries : List.Forall₂ (Dependency.Alike naming) (dependencies first options call)
    (dependencies second options copy)
  carries : Carries naming options first second call.id

/-- What is carried over is a call of the one registry with its copy in the other. -/
theorem Carries.exists_carried (h : first.WellFormed) (h' : second.WellFormed) {id : Nat}
    (carries : Carries naming options first second id) :
    ∃ call copy, call.id = id ∧ Carried naming options first second call copy := by
  obtain ⟨call, copy, found, copyFound, copies, entries⟩ := carries id (mem_covered_self id)
  obtain rfl := h.id_of_get? found
  exact ⟨call, copy, rfl, Registry.mem_of_get? found, Registry.mem_of_get? copyFound,
    h'.id_of_get? copyFound, copies, entries, carries⟩

namespace Carried

variable {call copy : FactoryCall}

/-- The surface that a directly included mixin has in one registry it has in the other. -/
theorem surface?_eq (carried : Carried naming options first second call copy)
    (h : first.WellFormed) (h' : second.WellFormed) {inner : Nat}
    (leads : Leads (edges first options) call.id inner)
    (alike : ResolvesAlike naming options first second inner) :
    (resolve second options).resolutions.surface? (naming.ids inner) =
      ((resolve first options).resolutions.surface? inner).map (Surface.rename naming) := by
  have copyLeads := carried.carries.leads_iff.mpr ⟨inner, leads, rfl⟩
  obtain ⟨resolution, found⟩ := exists_resolution_of_leads h leads
  obtain ⟨other, otherFound⟩ := exists_resolution_of_leads h' copyLeads
  have same : other = resolution.rename naming := by
    rw [← get_of_get? found, ← get_of_get? otherFound]
    exact alike
  subst same
  unfold Resolutions.surface?
  rw [found, otherFound]
  cases resolution <;> rfl

/-- What is merged into the copy are the renamed surfaces of what is merged into the call, in
order. -/
theorem merged_eq (carried : Carried naming options first second call copy)
    (h : first.WellFormed) (h' : second.WellFormed)
    (each : ∀ inner, Leads (edges first options) call.id inner →
      ResolvesAlike naming options first second inner) :
    (inclusions second options copy).merged =
      (inclusions first options call).merged.map fun entry =>
        (naming.ids entry.1, entry.2.rename naming) := by
  rw [inclusions, inclusions, Inclusions.ofDependencies_eq, Inclusions.ofDependencies_eq]
  refine filterMap_eq_of_forall₂ carried.entries _ fun one mem other alike => ?_
  cases alike with
  | mixin inner site =>
      have leads := (leads_iff h carried.mem).mpr ⟨site, mem⟩
      simp [Dependency.merged?, carried.surface?_eq h h' leads (each inner leads),
        Function.comp_def]
  | pureRender => rfl
  | leftOut => rfl
  | component => rfl
  | unknown => rfl

/-- Some mixin is unavailable to the copy just if one is to the call. -/
theorem unavailable_iff (carried : Carried naming options first second call copy)
    (h : first.WellFormed) (h' : second.WellFormed)
    (each : ∀ inner, Leads (edges first options) call.id inner →
      ResolvesAlike naming options first second inner) :
    (inclusions second options copy).unavailable = [] ↔
      (inclusions first options call).unavailable = [] := by
  rw [← not_iff_not, ← ne_eq, ← ne_eq, unavailable_ne_nil_iff h' carried.copyMem,
    unavailable_ne_nil_iff h carried.mem, carried.id]
  constructor
  · rintro ⟨target, leads, failed⟩
    obtain ⟨inner, here, rfl⟩ := carried.carries.leads_iff.mp leads
    exact ⟨inner, here, (Resolution.rename_eq_failed_iff naming).mp ((each inner here) ▸ failed)⟩
  · rintro ⟨inner, leads, failed⟩
    refine ⟨naming.ids inner, carried.carries.leads_iff.mpr ⟨inner, leads, rfl⟩, ?_⟩
    rw [each inner leads, failed]
    rfl

/-- Something is left out of the copy just if it is of the call. -/
theorem incomplete_eq (carried : Carried naming options first second call copy)
    (h : first.WellFormed) (h' : second.WellFormed)
    (each : ∀ inner, Leads (edges first options) call.id inner →
      ResolvesAlike naming options first second inner) :
    (inclusions second options copy).incomplete = (inclusions first options call).incomplete := by
  rw [Bool.eq_iff_iff, incomplete_iff h' carried.copyMem, incomplete_iff h carried.mem,
    leftOut_mem_copy_iff carried.entries, carried.id]
  refine or_congr_right ⟨?_, ?_⟩
  · rintro ⟨target, leads, leftOut⟩
    obtain ⟨inner, here, rfl⟩ := carried.carries.leads_iff.mp leads
    exact ⟨inner, here, (Resolution.rename_eq_leftOut_iff naming).mp ((each inner here) ▸ leftOut)⟩
  · rintro ⟨inner, leads, leftOut⟩
    refine ⟨naming.ids inner, carried.carries.leads_iff.mpr ⟨inner, leads, rfl⟩, ?_⟩
    rw [each inner leads, leftOut]
    rfl

/-- While both are merged, the same is known of what their mixins include. -/
theorem agree (carried : Carried naming options first second call copy)
    (h : first.WellFormed) (h' : second.WellFormed) (m : Mergeable first options call)
    (m' : Mergeable second options copy) :
    Includes.Agree naming { outer | Reaches (edges first options) call.id outer }
      (resolutionsBefore first options call.id).includes
      (resolutionsBefore second options copy.id).includes := by
  intro outer reaches inner
  have copyReaches : Reaches (edges second options) copy.id (naming.ids outer) := by
    rw [carried.id]
    exact carried.carries.reaches_copy_iff.mpr reaches
  have carriesOuter : Carries naming options first second outer :=
    fun callee covers => carried.carries callee (reaches.to_reflTransGen.trans covers)
  rw [Bool.eq_iff_iff, m.includes_before_iff h reaches, m'.includes_before_iff h' copyReaches,
    carriesOuter.reaches_copy_iff]

/-- A copy is merged to a copy of what the call is merged to. -/
theorem assembled_eq (carried : Carried naming options first second call copy)
    (h : first.WellFormed) (h' : second.WellFormed) (m : Mergeable first options call)
    (m' : Mergeable second options copy)
    (each : ∀ inner, Leads (edges first options) call.id inner →
      ResolvesAlike naming options first second inner) :
    assembled second options copy = (assembled first options call).rename naming := by
  have agree := carried.agree h h' m m'
  have within : ∀ entry ∈ (inclusions first options call).merged,
      entry.2.Within { outer | Reaches (edges first options) call.id outer } := by
    intro entry mem
    have leads := (m.leads_iff_merged h).mpr ⟨entry.2, mem⟩
    exact (surface_within h (surface?_of_mem_merged mem)).mono
      fun callee covers => Relation.TransGen.head' leads covers
  have start : (Assembly.empty (inclusions first options call).pureRender).surface.Within
      { outer | Reaches (edges first options) call.id outer } :=
    ⟨by simp [Assembly.empty, Surface.empty, Keyed.empty],
      by simp [Assembly.empty, Surface.empty, Keyed.empty]⟩
  have mixins := Assembly.foldl_mirrors_within (Assembly.rename naming)
    (fun entry : Nat × Surface => (naming.ids entry.1, entry.2.rename naming))
    (fun a entry => a.addMixin (resolutionsBefore first options call.id).includes entry.1 entry.2)
    (fun a entry => a.addMixin (resolutionsBefore second options copy.id).includes entry.1 entry.2)
    (fun a => a.surface.Within { outer | Reaches (edges first options) call.id outer })
    (fun _ entry mem held => Assembly.within_addMixin held entry.1 (within entry mem))
    (fun _ entry mem held => Assembly.rename_addMixin agree held entry.1 (within entry mem)) start
  rw [assembled, assembled, assemble, assemble, carried.merged_eq h h' each,
    pureRender_copy carried.entries,
    Assembly.rename_own naming _ carried.copies.members carried.copies.statics, mixins]
  rfl

/-- A copy becomes a copy of what the call becomes, if that holds of what the call includes itself
and neither lies on a cycle. -/
theorem resolvesAlike (carried : Carried naming options first second call copy)
    (h : first.WellFormed) (h' : second.WellFormed)
    (acyclic : call.id ∉ (mixinWalk first options).cyclic)
    (copyAcyclic : copy.id ∉ (mixinWalk second options).cyclic)
    (each : ∀ inner, Leads (edges first options) call.id inner →
      ResolvesAlike naming options first second inner) :
    ResolvesAlike naming options first second call.id := by
  have entries := hasBadEntry_copy carried.entries
  have clean : Unflawed first options call → Unflawed second options copy :=
    fun clean => ⟨copyAcyclic, entries.trans clean.entries⟩
  have available := carried.unavailable_iff h h' each
  have incomplete := carried.incomplete_eq h h' each
  obtain ⟨_, _, settled, -, verdict⟩ := exists_verdict options h carried.mem
  unfold ResolvesAlike
  rw [settled, ← carried.id]
  cases verdict with
  | flawed flaw =>
      refine get_of_verdict h' carried.copyMem (.flawed fun copyClean => flaw ?_)
      exact ⟨acyclic, entries.symm.trans copyClean.entries⟩
  | unavailable isClean failed =>
      exact get_of_verdict h' carried.copyMem
        (.unavailable (clean isClean) fun none => failed (available.mp none))
  | incomplete isClean isAvailable isIncomplete =>
      exact get_of_verdict h' carried.copyMem
        (.incomplete (clean isClean) (available.mpr isAvailable) (incomplete.trans isIncomplete))
  | merged isClean isAvailable isComplete sound =>
      have m : Mergeable first options call := ⟨carried.mem, isClean, isAvailable, isComplete⟩
      have m' : Mergeable second options copy := ⟨carried.copyMem, clean isClean,
        available.mpr isAvailable, incomplete.trans isComplete⟩
      have same := carried.assembled_eq h h' m m' each
      have copySound : assemblyProblems second copy (assembled second options copy) = [] := by
        rw [same]
        exact (assemblyProblems_copy_iff carried.copies _).mpr sound
      rw [get_of_verdict h' carried.copyMem (.merged m'.clean m'.available m'.complete copySound),
        same, exposed_copy carried.copies]
      rfl
  | problems isClean isAvailable isComplete found =>
      have m : Mergeable first options call := ⟨carried.mem, isClean, isAvailable, isComplete⟩
      have m' : Mergeable second options copy := ⟨carried.copyMem, clean isClean,
        available.mpr isAvailable, incomplete.trans isComplete⟩
      have same := carried.assembled_eq h h' m m' each
      refine get_of_verdict h' carried.copyMem
        (.problems m'.clean m'.available m'.complete fun copySound => found ?_)
      rw [same] at copySound
      exact (assemblyProblems_copy_iff carried.copies _).mp copySound

end Carried

/-- A call resolves as its copy does. -/
theorem resolvesAlike_of_carries (h : first.WellFormed) (h' : second.WellFormed) {id : Nat}
    (carries : Carries naming options first second id) :
    ResolvesAlike naming options first second id := by
  by_cases cycle : ∃ node ∈ covered first options id, Reaches (edges first options) node node
  · obtain ⟨node, covers, reaches⟩ := cycle
    have copyReaches : Reaches (edges second options) (naming.ids node) (naming.ids node) :=
      (Carries.reaches_copy_iff fun callee below =>
        carries callee (Relation.ReflTransGen.trans covers below)).mpr reaches
    have copyCovers : Covers (edges second options) (naming.ids id) (naming.ids node) := by
      rcases Relation.reflTransGen_iff_eq_or_transGen.mp covers with rfl | strictly
      · exact .refl
      · exact (carries.reaches_copy_iff.mpr strictly).to_reflTransGen
    unfold ResolvesAlike
    rw [failed_of_covers_cycle h covers reaches, failed_of_covers_cycle h' copyCovers copyReaches]
    rfl
  · -- along the order in which the first registry is resolved
    induction id using (earlier_wellFounded options h.indexed).induction with
    | _ id ih =>
        obtain ⟨call, copy, rfl, carried⟩ := carries.exists_carried h h'
        have acyclic : ¬ Reaches (edges first options) call.id call.id :=
          fun round => cycle ⟨call.id, mem_covered_self _, round⟩
        have copyAcyclic : ¬ Reaches (edges second options) copy.id copy.id := by
          rw [carried.id, carries.reaches_copy_iff]
          exact acyclic
        have unmarked := notMem_cyclic_of_acyclic acyclic
        refine carried.resolvesAlike h h' unmarked (notMem_cyclic_of_acyclic copyAcyclic)
          fun inner leads => ?_
        refine ih inner (earlier_of_leads h.indexed carried.mem unmarked leads)
          (carries.of_leads leads) ?_
        rintro ⟨node, covers, round⟩
        exact cycle ⟨node, .head leads covers, round⟩

end Carried

end ClassFactory
