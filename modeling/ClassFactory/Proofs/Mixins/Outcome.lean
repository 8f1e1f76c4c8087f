/-
Module: ClassFactory.Proofs.Mixins.Outcome
Purpose: The five things that may become of a call, each with its condition and with what is
  reported. The conditions speak of what became of the included mixins in the end, since that is
  known when the turn of the call comes.
Main exports: inclusions, assembled, Verdict, exists_verdict, get_of_verdict,
  unavailable_ne_nil_iff, incomplete_iff
-/
import ClassFactory.Proofs.Mixins.Sequence

namespace ClassFactory

/-! ## What some dependencies come to -/

namespace Dependency

/-- The mixin that a dependency names with its surface, if it resolved. -/
def merged? (resolutions : Resolutions) : Dependency → Option (Nat × Surface)
  | .mixin id _ => (resolutions.surface? id).map fun surface => (id, surface)
  | _ => none

/-- The mixin that a dependency names, with the entry, if it failed or is not resolved yet. -/
def unavailable? (resolutions : Resolutions) : Dependency → Option (Nat × Site)
  | .mixin id site =>
    match resolutions.get? id with
    | some (.resolved _) => none
    | some .leftOut => none
    | _ => some (id, site)
  | _ => none

/-- Whether a dependency, or the mixin it names, is left out of the analysis. -/
def isIncomplete (resolutions : Resolutions) : Dependency → Bool
  | .mixin id _ =>
    match resolutions.get? id with
    | some .leftOut => true
    | _ => false
  | .leftOut => true
  | _ => false

end Dependency

namespace Inclusions

theorem foldl_add (resolutions : Resolutions) (dependencies : List Dependency)
    (start : Inclusions) :
    dependencies.foldl (add resolutions) start =
      { merged := start.merged ++ dependencies.filterMap (Dependency.merged? resolutions)
        unavailable :=
          start.unavailable ++ dependencies.filterMap (Dependency.unavailable? resolutions)
        incomplete := start.incomplete || dependencies.any (Dependency.isIncomplete resolutions)
        pureRender := start.pureRender || dependencies.any (· = .pureRender) } := by
  induction dependencies generalizing start with
  | nil => simp
  | cons dependency rest ih =>
      rw [List.foldl_cons, ih]
      cases dependency with
      | mixin id site =>
          cases known : resolutions.get? id with
          | none =>
              simp [add, Dependency.merged?, Dependency.unavailable?, Dependency.isIncomplete,
                Resolutions.surface?, known]
          | some resolution =>
              cases resolution <;>
                simp [add, Dependency.merged?, Dependency.unavailable?, Dependency.isIncomplete,
                  Resolutions.surface?, known]
      | pureRender =>
          simp [add, Dependency.merged?, Dependency.unavailable?, Dependency.isIncomplete,
            List.filterMap_cons]
      | leftOut =>
          simp [add, Dependency.merged?, Dependency.unavailable?, Dependency.isIncomplete,
            List.filterMap_cons]
      | component =>
          simp [add, Dependency.merged?, Dependency.unavailable?, Dependency.isIncomplete,
            List.filterMap_cons]
      | unknown =>
          simp [add, Dependency.merged?, Dependency.unavailable?, Dependency.isIncomplete,
            List.filterMap_cons]

/-- What the dependencies of a call come to, kind by kind. -/
theorem ofDependencies_eq (resolutions : Resolutions) (dependencies : List Dependency) :
    ofDependencies resolutions dependencies =
      { merged := dependencies.filterMap (Dependency.merged? resolutions)
        unavailable := dependencies.filterMap (Dependency.unavailable? resolutions)
        incomplete := dependencies.any (Dependency.isIncomplete resolutions)
        pureRender := dependencies.any (· = .pureRender) } := by
  simp [ofDependencies, foldl_add, empty]

/-- Only what became of the named mixins counts. -/
theorem ofDependencies_congr {one other : Resolutions} {dependencies : List Dependency}
    (agree : ∀ id site, .mixin id site ∈ dependencies → one.get? id = other.get? id) :
    ofDependencies one dependencies = ofDependencies other dependencies := by
  refine List.foldl_ext _ _ _ fun found dependency mem => ?_
  cases dependency with
  | mixin id site => simp only [add, agree id site mem]
  | _ => rfl

end Inclusions

section Outcome

variable (registry : Registry) (options : Options)

/-- What the dependencies of a call come to in the end. -/
def inclusions (call : FactoryCall) : Inclusions :=
  .ofDependencies (resolve registry options).resolutions (dependencies registry options call)

/-- A call merged with the mixins it includes, as it is done when its turn comes. -/
def assembled (call : FactoryCall) : Assembly :=
  assemble (resolutionsBefore registry options call.id) call (inclusions registry options call)

/-- Nothing is known against a call before its mixins are looked at. -/
structure Unflawed (call : FactoryCall) : Prop where
  acyclic : call.id ∉ (mixinWalk registry options).cyclic
  entries : hasBadEntry registry options call = false

/-- What becomes of a call, and what is reported of it. -/
inductive Verdict (call : FactoryCall) : Resolution → List Diagnostic → Prop where
  | flawed (flaw : ¬ Unflawed registry options call) : Verdict call .failed []
  | unavailable (clean : Unflawed registry options call)
      (failed : (inclusions registry options call).unavailable ≠ []) :
      Verdict call .failed
        [unavailableProblem registry call (inclusions registry options call).unavailable]
  | incomplete (clean : Unflawed registry options call)
      (available : (inclusions registry options call).unavailable = [])
      (incomplete : (inclusions registry options call).incomplete = true) :
      Verdict call .leftOut []
  | merged (clean : Unflawed registry options call)
      (available : (inclusions registry options call).unavailable = [])
      (complete : (inclusions registry options call).incomplete = false)
      (sound : assemblyProblems registry call (assembled registry options call) = []) :
      Verdict call (.resolved (exposed call (assembled registry options call))) []
  | problems (clean : Unflawed registry options call)
      (available : (inclusions registry options call).unavailable = [])
      (complete : (inclusions registry options call).incomplete = false)
      (found : assemblyProblems registry call (assembled registry options call) ≠ []) :
      Verdict call .failed (assemblyProblems registry call (assembled registry options call))

variable {registry options}

/-- A call resolves to what comes of it when it has its turn. -/
theorem get_call (h : registry.WellFormed) {call : FactoryCall} (mem : call ∈ registry.calls) :
    (resolve registry options).get call.id =
      (outcome registry options (resolutionsBefore registry options call.id) call).1 := by
  rw [Resolved.get, get_eq_outcome h.indexed mem]
  rfl

/-- When the turn of a call comes, its dependencies come to what they come to in the end. -/
theorem inclusions_before (h : registry.WellFormed) {call : FactoryCall}
    (mem : call ∈ registry.calls) (acyclic : call.id ∉ (mixinWalk registry options).cyclic) :
    Inclusions.ofDependencies (resolutionsBefore registry options call.id)
        (dependencies registry options call) =
      inclusions registry options call := by
  refine Inclusions.ofDependencies_congr fun id site dependency => ?_
  have leads : Leads (edges registry options) call.id id :=
    ⟨site, mem_edges_iff.mpr ⟨call, h.get?_id mem, dependency⟩⟩
  exact get?_before_of_earlier h.indexed mem (earlier_of_leads h.indexed mem acyclic leads)

/-- Every call of the registry comes to one of the five verdicts. -/
theorem exists_verdict (options : Options) (h : registry.WellFormed) {call : FactoryCall}
    (mem : call ∈ registry.calls) :
    ∃ resolution reports, (resolve registry options).get call.id = resolution ∧
      findings registry options call = reports ∧
      Verdict registry options call resolution reports := by
  refine ⟨_, _, get_call h mem, rfl, ?_⟩
  unfold findings outcome
  split
  · rename_i flaw
    refine .flawed fun clean => ?_
    simp only [Bool.or_eq_true, List.contains_iff_mem] at flaw
    rcases flaw with cyclic | bad
    · exact clean.acyclic cyclic
    · simp [clean.entries] at bad
  · rename_i noFlaw
    have clean : Unflawed registry options call := by
      simp only [Bool.or_eq_true, List.contains_iff_mem, not_or, Bool.not_eq_true] at noFlaw
      exact ⟨noFlaw.1, noFlaw.2⟩
    unfold flatten
    rw [inclusions_before h mem clean.acyclic]
    dsimp only
    split
    · rename_i failed
      exact .unavailable clean (by simpa using failed)
    · rename_i available
      have available : (inclusions registry options call).unavailable = [] := by
        simpa using available
      split
      · rename_i incomplete
        exact .incomplete clean available incomplete
      · rename_i complete
        have complete : (inclusions registry options call).incomplete = false := by
          simpa using complete
        split
        · rename_i sound
          exact .merged clean available complete sound
        · rename_i problems found
          exact .problems clean available complete found

/-- The conditions of the verdicts exclude each other. -/
theorem Verdict.unique {call : FactoryCall} {one other : Resolution}
    {reports otherReports : List Diagnostic} (verdict : Verdict registry options call one reports)
    (again : Verdict registry options call other otherReports) : one = other := by
  cases verdict with
  | flawed flaw =>
      cases again with
      | flawed => rfl
      | unavailable clean => exact absurd clean flaw
      | incomplete clean => exact absurd clean flaw
      | merged clean => exact absurd clean flaw
      | problems => rfl
  | unavailable clean failed =>
      cases again with
      | flawed => rfl
      | unavailable => rfl
      | incomplete _ available => exact absurd available failed
      | merged _ available => exact absurd available failed
      | problems => rfl
  | incomplete clean available incomplete =>
      cases again with
      | flawed flaw => exact absurd clean flaw
      | unavailable _ failed => exact absurd available failed
      | incomplete => rfl
      | merged _ _ complete => simp [incomplete] at complete
      | problems _ _ complete => simp [incomplete] at complete
  | merged clean available complete sound =>
      cases again with
      | flawed flaw => exact absurd clean flaw
      | unavailable _ failed => exact absurd available failed
      | incomplete _ _ incomplete => simp [incomplete] at complete
      | merged => rfl
      | problems _ _ _ found => exact absurd sound found
  | problems clean available complete found =>
      cases again with
      | flawed => rfl
      | unavailable => rfl
      | incomplete _ _ incomplete => simp [incomplete] at complete
      | merged _ _ _ sound => exact absurd sound found
      | problems => rfl

/-- A call becomes what its verdict says. -/
theorem get_of_verdict (h : registry.WellFormed) {call : FactoryCall}
    (mem : call ∈ registry.calls) {resolution : Resolution} {reports : List Diagnostic}
    (verdict : Verdict registry options call resolution reports) :
    (resolve registry options).get call.id = resolution := by
  obtain ⟨_, _, settled, -, known⟩ := exists_verdict options h mem
  exact settled.trans (known.unique verdict)

/-- A mixin that an entry names is resolved in the end. -/
theorem exists_resolution_of_leads (h : registry.WellFormed) {outer inner : Nat}
    (leads : Leads (edges registry options) outer inner) :
    ∃ resolution, (resolve registry options).resolutions.get? inner = some resolution := by
  obtain ⟨call, mem, -, rfl⟩ := exists_mixin_of_leads leads
  exact ⟨_, get_eq_outcome h.indexed mem⟩

/-- A call leads to the mixins that its entries name. -/
theorem leads_iff (h : registry.WellFormed) {call : FactoryCall} (mem : call ∈ registry.calls)
    {inner : Nat} :
    Leads (edges registry options) call.id inner ↔
      ∃ site, .mixin inner site ∈ dependencies registry options call := by
  simp [Leads, mem_edges_iff, h.get?_id mem]

/-- A mixin that an entry names has a resolution in the end, which is the one that counts. -/
theorem get_of_get? {id : Nat} {resolution : Resolution}
    (found : (resolve registry options).resolutions.get? id = some resolution) :
    (resolve registry options).get id = resolution := by
  rw [Resolved.get, found]
  rfl

/-- Mixins are unavailable to a call if one that it includes itself failed. -/
theorem unavailable_ne_nil_iff (h : registry.WellFormed) {call : FactoryCall}
    (mem : call ∈ registry.calls) :
    (inclusions registry options call).unavailable ≠ [] ↔
      ∃ inner, Leads (edges registry options) call.id inner ∧
        (resolve registry options).get inner = .failed := by
  rw [inclusions, Inclusions.ofDependencies_eq]
  constructor
  · intro some
    obtain ⟨place, placeMem⟩ := List.exists_mem_of_ne_nil _ some
    obtain ⟨dependency, dependencyMem, unavailable⟩ := List.mem_filterMap.mp placeMem
    cases dependency with
    | mixin id site =>
        have leads := (leads_iff h mem).mpr ⟨site, dependencyMem⟩
        obtain ⟨resolution, found⟩ := exists_resolution_of_leads h leads
        refine ⟨id, leads, get_of_get? found ▸ ?_⟩
        cases resolution <;> simp [Dependency.unavailable?, found] at unavailable ⊢
    | _ => simp [Dependency.unavailable?] at unavailable
  · rintro ⟨inner, leads, failed⟩
    obtain ⟨resolution, found⟩ := exists_resolution_of_leads h leads
    obtain ⟨site, dependencyMem⟩ := (leads_iff h mem).mp leads
    obtain rfl : resolution = .failed := (get_of_get? found).symm.trans failed
    have placeMem : (inner, site) ∈ (dependencies registry options call).filterMap
        (Dependency.unavailable? (resolve registry options).resolutions) :=
      List.mem_filterMap.mpr ⟨_, dependencyMem, by simp [Dependency.unavailable?, found]⟩
    exact List.ne_nil_of_mem placeMem

/-- The inclusions of a call are incomplete if an entry, or a mixin that it includes itself, is left
out of the analysis. -/
theorem incomplete_iff (h : registry.WellFormed) {call : FactoryCall}
    (mem : call ∈ registry.calls) :
    (inclusions registry options call).incomplete = true ↔
      .leftOut ∈ dependencies registry options call ∨
        ∃ inner, Leads (edges registry options) call.id inner ∧
          (resolve registry options).get inner = .leftOut := by
  rw [inclusions, Inclusions.ofDependencies_eq, List.any_eq_true]
  constructor
  · rintro ⟨dependency, dependencyMem, incomplete⟩
    cases dependency with
    | mixin id site =>
        have leads := (leads_iff h mem).mpr ⟨site, dependencyMem⟩
        obtain ⟨resolution, found⟩ := exists_resolution_of_leads h leads
        refine .inr ⟨id, leads, get_of_get? found ▸ ?_⟩
        cases resolution <;> simp [Dependency.isIncomplete, found] at incomplete ⊢
    | leftOut => exact .inl dependencyMem
    | _ => simp [Dependency.isIncomplete] at incomplete
  · rintro (entry | ⟨inner, leads, leftOut⟩)
    · exact ⟨.leftOut, entry, rfl⟩
    · obtain ⟨resolution, found⟩ := exists_resolution_of_leads h leads
      obtain ⟨site, dependencyMem⟩ := (leads_iff h mem).mp leads
      obtain rfl : resolution = .leftOut := (get_of_get? found).symm.trans leftOut
      exact ⟨_, dependencyMem, by simp [Dependency.isIncomplete, found]⟩

end Outcome

end ClassFactory
