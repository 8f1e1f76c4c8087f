/-
Module: ClassFactory.Proofs.Stages
Purpose: Which stage of an analysis a finding is from. Collecting, resolving and publishing report
  with codes of their own, and the rest is what the checks of the files find.
Main exports: collectionCodes, resolutionCodes, publicationCodes, mem_result_iff,
  exists_checked_of_code
-/
import ClassFactory.Proofs.Factory.Specified
import ClassFactory.Proofs.Mixins.Findings
import ClassFactory.Proofs.Usage.Members

namespace ClassFactory

/-- The codes of findings about factory calls. -/
def collectionCodes : List DiagnosticCode := [.factoryArity, .duplicateFactory]

/-- The codes of findings about calls and the mixins that they include. -/
def resolutionCodes : List DiagnosticCode := .unknownMixin :: .cyclicMixin :: findingCodes

/-- The codes of findings about types that components declare. -/
def publicationCodes : List DiagnosticCode := [.unknownPropType, .unexpectedStateType]

/-! ## Collecting -/

/-- Finishing a registry reports nothing. -/
theorem Registry.finish_diagnostics (registry : Registry) :
    registry.finish.diagnostics = registry.diagnostics := by
  refine foldl_view_eq Registry.diagnostics ?_ _
  intro state declaration _
  unfold Registry.attach
  split
  · split
    · rfl
    · rfl
  · rfl

/-- Collecting reports under codes of its own. -/
theorem collectAll_coded (options : Options) (files : List ParsedFile) :
    Coded collectionCodes (collectAll options files).diagnostics := by
  rw [collectAll, Registry.finish_diagnostics]
  let Kept (registry : Registry) : Prop := Coded collectionCodes registry.diagnostics
  have start : Kept Registry.empty := Coded.nil
  refine collected_keeps start ?_
  intro parsed _ node _ registry operation performs coded
  cases performs with
  | report found =>
      exact coded.append (.single (by simp [arityError, Diagnostic.error, collectionCodes]))
  | leaveOut | declare => exact coded
  | @insert call =>
      change Kept (registry.insert call).1
      unfold Registry.insert
      split
      · exact coded.append (.single (by
          simp [Registry.duplicateWarning, Diagnostic.warning, Diagnostic.withRelated,
            collectionCodes]))
      · exact coded

/-! ## Resolving -/

section Resolving

variable {registry : Registry}

/-- Resolving reports under codes of its own. -/
theorem resolve_coded (options : Options) (h : registry.WellFormed) :
    Coded resolutionCodes (resolve registry options).diagnostics := by
  rw [diagnostics_eq h.indexed]
  apply Coded.append
  · apply Coded.append
    · intro problem mem
      obtain ⟨call, -, found⟩ := List.mem_flatMap.mp mem
      simp [entryProblems_code found, resolutionCodes]
    · intro problem mem
      obtain ⟨cycle, -, rfl⟩ := List.mem_map.mp mem
      simp [cycleProblem_eq, resolutionCodes]
  · intro problem mem
    obtain ⟨call, callMem, found⟩ := List.mem_flatMap.mp mem
    have coded := findings_code h ((mem_callSequence h.indexed).mp callMem) found
    exact List.mem_cons_of_mem _ (List.mem_cons_of_mem _ coded)

end Resolving

/-! ## Publishing -/

section Publishing

variable {registry : Registry} {options : Options} {resolved : Resolved} {synthesis : Synthesis}

theorem propWarnings_coded (options : Options) (call : FactoryCall) :
    Coded publicationCodes (propWarnings options call) := by
  unfold propWarnings
  split
  · apply Coded.filterMap
    intro prop problem warned
    unfold propWarning? at warned
    split at warned
    · cases warned
    · cases warned
      simp [Diagnostic.warning, publicationCodes]
  · exact .nil

theorem stateWarnings_coded (registry : Registry) (call : FactoryCall) (surface : Surface) :
    Coded publicationCodes (stateWarnings registry call surface) := by
  apply Coded.filterMap
  intro definition problem warned
  split at warned
  · split at warned
    · cases warned
      simp [Diagnostic.warning, publicationCodes]
    · cases warned
  · cases warned

theorem addComponent_coded (coded : Coded publicationCodes synthesis.diagnostics)
    (call : FactoryCall) :
    Coded publicationCodes (synthesis.addComponent registry options resolved call).diagnostics := by
  unfold Synthesis.addComponent
  split
  next surface _ =>
    have found := coded.append
      ((propWarnings_coded options call).append (stateWarnings_coded registry call surface))
    dsimp only
    split
    · exact found
    · exact found
  next => exact coded

/-- Publishing reports under codes of its own. -/
theorem synthesize_coded (registry : Registry) (options : Options) (resolved : Resolved) :
    Coded publicationCodes (synthesize registry options resolved).diagnostics := by
  have mixins : (registry.mixins.foldl (Synthesis.addMixin resolved)
      Synthesis.empty).diagnostics = [] := by
    apply foldl_view_eq Synthesis.diagnostics
    intro synthesis call _
    unfold Synthesis.addMixin
    split
    · split
      · rfl
      · rfl
    · rfl
  apply List.foldlRecOn registry.components _
    (motive := fun synthesis : Synthesis => Coded publicationCodes synthesis.diagnostics)
  · rw [mixins]
    exact .nil
  · intro synthesis coded call _
    exact addComponent_coded coded call

end Publishing

/-! ## All stages -/

/-- The findings of an analysis are those of its stages. -/
theorem mem_result_iff (analysis : Analysis) (problem : Diagnostic) :
    problem ∈ analysis.result.diagnostics ↔
      problem ∈ analysis.registry.diagnostics ∨ problem ∈ analysis.resolved.diagnostics ∨
        problem ∈ analysis.synthesis.diagnostics ∨
          ∃ report ∈ analysis.reports, problem ∈ report.result.diagnostics := by
  have merged : ∀ (reports : List UsageReport) (result : CheckResult),
      problem ∈ (reports.foldl (fun result report => result.merge report.result)
        result).diagnostics ↔ problem ∈ result.diagnostics ∨
          ∃ report ∈ reports, problem ∈ report.result.diagnostics := by
    intro reports
    induction reports with
    | nil => simp
    | cons report rest ih =>
        intro result
        rw [List.foldl_cons, ih, CheckResult.merge, CheckResult.extend_diagnostics]
        simp [or_assoc]
  unfold Analysis.result
  rw [merged, CheckResult.extend_diagnostics, CheckResult.extend_diagnostics,
    CheckResult.extend_diagnostics]
  simp [CheckResult.empty, or_assoc]

/-- A finding with none of the codes of the stages before is one of the check of some file. -/
theorem exists_checked_of_code {compilation : Compilation} {files : List ParsedFile}
    {problem : Diagnostic}
    (found : problem ∈ (analyze compilation files).result.diagnostics)
    (other : problem.code ∉ collectionCodes ++ resolutionCodes ++ publicationCodes) :
    ∃ parsed ∈ files, problem ∈ (checkProgram compilation.options
      (analyze compilation files).registry (analyze compilation files).synthesis.table parsed.file
      parsed.text parsed.program).result.diagnostics := by
  simp only [List.mem_append, not_or] at other
  rcases (mem_result_iff _ problem).mp found with collected | resolved | published | checked
  · exact absurd (collectAll_coded _ _ problem collected) other.1.1
  · exact absurd (resolve_coded _ (collectAll_wellFormed _ _) problem resolved) other.1.2
  · exact absurd (synthesize_coded _ _ _ problem published) other.2
  · obtain ⟨report, listed, reported⟩ := checked
    obtain ⟨parsed, isFile, rfl⟩ := List.mem_map.mp listed
    exact ⟨parsed, isFile, reported⟩

end ClassFactory
