/-
Module: ClassFactory.Proofs.Mixins.Findings
Purpose: What the findings of a resolution are about, told by their codes. Each code is that of one
  kind of problem, so the findings of one kind are found among all of them by their code.
Main exports: foldl_withRelated, ambiguityProblem_eq, cycleProblem_eq, mem_assemblyProblems_cases,
  exists_render_report_iff, findings_of_mergeable, ReportsByCall, reportsByCall, cyclic_findings_eq,
  mem_cyclic_findings_iff, mergeable_iff
-/
import ClassFactory.Proofs.Mixins.Assembled

namespace ClassFactory

/-! ## Related places -/

/-- Adding related places one after another appends them in order. -/
theorem foldl_withRelated {α : Type} (message : α → String) (site : α → Site) (items : List α)
    (start : Diagnostic) :
    items.foldl (fun problem item => problem.withRelated (message item) (site item)) start =
      { start with
        related := start.related ++ items.map fun item => ⟨message item, site item⟩ } := by
  induction items generalizing start with
  | nil => simp
  | cons item rest ih =>
      rw [List.foldl_cons, ih]
      simp [Diagnostic.withRelated]

section Findings

variable {registry : Registry} {options : Options} {call : FactoryCall}

/-- The finding for an ambiguity, written out. -/
theorem ambiguityProblem_eq (ambiguity : Ambiguity) :
    ambiguityProblem registry call ambiguity =
      { code := if ambiguity.isStatic then .ambiguousMixinStatic else .ambiguousMixinMethod
        severity := .error
        message :=
          (if ambiguity.isStatic then "static" else "method") ++ " " ++ quoted ambiguity.name ++
            " of component " ++ quoted call.name ++ " is defined by sibling mixins " ++
            Text.joinWith " and "
              (ambiguity.origins.map fun origin => quoted (registry.nameOf origin.1)) ++
            "; define it on the component to choose"
        site := call.declSite
        related := ambiguity.origins.map fun origin =>
          ⟨"defined by " ++ quoted (registry.nameOf origin.1), origin.2⟩ } := by
  unfold ambiguityProblem
  cases ambiguity.isStatic <;>
    exact (foldl_withRelated (fun origin : Nat × Site =>
      "defined by " ++ quoted (registry.nameOf origin.1)) Prod.snd _ _).trans (by
        simp [Diagnostic.error])

/-- The finding for a cycle, written out: the names round to the first again, at the closing
entry. -/
theorem cycleProblem_eq (cycle : InclusionPath) :
    cycleProblem registry cycle =
      { code := .cyclicMixin
        severity := .error
        message := "cyclic mixin inclusion: " ++ Text.joinWith " -> "
          ((cycle.map fun step => registry.nameOf step.1) ++
            ((cycle.map fun step => registry.nameOf step.1).head?).toList)
        site := ((cycle.getLast?).map Prod.snd).getD default
        related := cycle.dropLast.map fun step =>
          ⟨quoted (registry.nameOf step.1) ++ " includes the next mixin here", step.2⟩ } := by
  unfold cycleProblem
  exact (foldl_withRelated (fun step : Nat × Site =>
    quoted (registry.nameOf step.1) ++ " includes the next mixin here") Prod.snd _ _).trans (by
      simp [Diagnostic.error])

/-! ## Codes -/

theorem entryProblem?_code {entry : MixinRef} {problem : Diagnostic}
    (found : entryProblem? registry options entry = some problem) :
    problem.code = .unknownMixin := by
  unfold entryProblem? at found
  split at found
  · cases found
    rfl
  · cases found
    rfl
  · cases found

/-- A finding about an entry is that of an unknown mixin. -/
theorem entryProblems_code {problem : Diagnostic}
    (mem : problem ∈ entryProblems registry options call) : problem.code = .unknownMixin := by
  obtain ⟨entry, -, found⟩ := List.mem_filterMap.mp mem
  exact entryProblem?_code found

theorem renderArityProblem_code {problem : Diagnostic}
    (mem : problem ∈ renderArityProblem call) : problem.code = .renderArity := by
  unfold renderArityProblem at mem
  repeat' split at mem
  all_goals simp only [List.mem_singleton, List.not_mem_nil] at mem
  subst mem
  rfl

theorem pureRenderProblem_code {surface : Surface} {problem : Diagnostic}
    (mem : problem ∈ pureRenderProblem surface) : problem.code = .pureRenderMixinOverride := by
  unfold pureRenderProblem at mem
  repeat' split at mem
  all_goals simp only [List.mem_singleton, List.not_mem_nil] at mem
  subst mem
  rfl

theorem unavailableProblem_code (unavailable : List (Nat × Site)) :
    (unavailableProblem registry call unavailable).code = .mixinSurfaceUnavailable := by
  unfold unavailableProblem
  rw [foldl_withRelated (fun _ : Nat × Site => "included here") Prod.snd]
  rfl

theorem hookProblems_code {conflicts : List HookConflict} {problem : Diagnostic}
    (mem : problem ∈ conflicts.map (hookProblem registry)) :
    problem.code = .hookSignatureConflict := by
  obtain ⟨conflict, -, rfl⟩ := List.mem_map.mp mem
  rfl

/-- A finding about an ambiguity is that of a method or of a static. -/
theorem ambiguityProblems_code {ambiguities : List Ambiguity} {problem : Diagnostic}
    (mem : problem ∈ ambiguities.map (ambiguityProblem registry call)) :
    problem.code = .ambiguousMixinMethod ∨ problem.code = .ambiguousMixinStatic := by
  obtain ⟨ambiguity, -, rfl⟩ := List.mem_map.mp mem
  rw [ambiguityProblem_eq]
  cases ambiguity.isStatic with
  | false => exact .inl rfl
  | true => exact .inr rfl

/-- How many definitions the chain has decides what a component that does not define `render` itself
is told. -/
theorem renderProblem_codes (registry : Registry) (call : FactoryCall) (surface : Surface) :
    (renderProblem registry call surface).map Diagnostic.code =
      if definesRender call then []
      else
        match surface.hookChain .render with
        | [] => [.missingRender]
        | [_] => []
        | _ => [.renderConflict] := by
  unfold renderProblem
  cases definesRender call with
  | true => rfl
  | false =>
      rcases surface.hookChain .render with _ | ⟨first, _ | ⟨second, rest⟩⟩
      · rfl
      · rfl
      · dsimp only
        rw [if_neg Bool.false_ne_true, if_neg Bool.false_ne_true, List.map_singleton,
          foldl_withRelated (fun _ => "render defined here") MemberDefinition.site]
        rfl

/-- A finding about rendering is that of a missing method or of a conflict. -/
theorem renderProblem_code {surface : Surface} {problem : Diagnostic}
    (mem : problem ∈ renderProblem registry call surface) :
    problem.code = .missingRender ∨ problem.code = .renderConflict := by
  have listed : problem.code ∈ (renderProblem registry call surface).map Diagnostic.code :=
    List.mem_map_of_mem mem
  rw [renderProblem_codes] at listed
  repeat' split at listed
  all_goals simp only [List.mem_singleton, List.not_mem_nil] at listed
  · exact .inl listed
  · exact .inr listed

/-- What a finding about an assembly may be: it is told by its code, and only a component is told of
siblings and of its `render`. -/
theorem mem_assemblyProblems_cases {assembly : Assembly} {problem : Diagnostic}
    (mem : problem ∈ assemblyProblems registry call assembly) :
    problem.code = .hookSignatureConflict ∨ problem.code = .renderArity ∨
      problem.code = .pureRenderMixinOverride ∨ problem.code = .ambiguousMixinMethod ∨
      problem.code = .ambiguousMixinStatic ∨
      (call.isComponent = true ∧ problem ∈ renderProblem registry call assembly.surface) := by
  unfold assemblyProblems at mem
  rcases List.mem_append.mp mem with before | rest
  · rcases List.mem_append.mp before with earlier | pure
    · rcases List.mem_append.mp earlier with conflict | arity
      · exact .inl (hookProblems_code conflict)
      · exact .inr (.inl (renderArityProblem_code arity))
    · exact .inr (.inr (.inl (pureRenderProblem_code pure)))
  · split at rest
    · rename_i component
      rcases List.mem_append.mp rest with ambiguity | render
      · rcases ambiguityProblems_code ambiguity with method | static
        · exact .inr (.inr (.inr (.inl method)))
        · exact .inr (.inr (.inr (.inr (.inl static))))
      · exact .inr (.inr (.inr (.inr (.inr ⟨component, render⟩))))
    · cases rest

/-- What a component is told of its `render` is found among all findings about its assembly by the
code. -/
theorem exists_render_report_iff (component : call.isComponent = true) {assembly : Assembly}
    {code : DiagnosticCode} (ofRender : code = .missingRender ∨ code = .renderConflict) :
    (∃ problem ∈ assemblyProblems registry call assembly, problem.code = code) ↔
      code ∈ (renderProblem registry call assembly.surface).map Diagnostic.code := by
  rw [List.mem_map]
  constructor
  · rintro ⟨problem, mem, rfl⟩
    rcases mem_assemblyProblems_cases mem with is | is | is | is | is | ⟨-, render⟩
    all_goals try
      rw [is] at ofRender
      simp at ofRender
    exact ⟨problem, render, rfl⟩
  · rintro ⟨problem, mem, is⟩
    refine ⟨problem, ?_, is⟩
    unfold assemblyProblems
    rw [if_pos component]
    exact List.mem_append_right _ (List.mem_append_right _ mem)

/-! ## Findings of a call -/

/-- A call that is merged reports what is wrong with its assembly. -/
theorem findings_of_mergeable (h : registry.WellFormed)
    (m : Mergeable registry options call) :
    findings registry options call =
      assemblyProblems registry call (assembled registry options call) := by
  obtain ⟨_, _, -, reported, verdict⟩ := exists_verdict options h m.mem
  rw [reported]
  cases verdict with
  | flawed flaw => exact absurd m.clean flaw
  | unavailable _ failed => exact absurd m.available failed
  | incomplete _ _ incomplete =>
      rw [m.complete] at incomplete
      cases incomplete
  | merged _ _ _ sound => exact sound.symm
  | problems => rfl

/-- The codes of findings about single calls. -/
def findingCodes : List DiagnosticCode :=
  [.mixinSurfaceUnavailable, .hookSignatureConflict, .renderArity, .pureRenderMixinOverride,
    .ambiguousMixinMethod, .ambiguousMixinStatic, .missingRender, .renderConflict]

/-- The findings of a call have the codes of calls, which no finding about entries or cycles has. -/
theorem findings_code (h : registry.WellFormed) (mem : call ∈ registry.calls)
    {problem : Diagnostic} (found : problem ∈ findings registry options call) :
    problem.code ∈ findingCodes := by
  obtain ⟨_, _, -, reported, verdict⟩ := exists_verdict options h mem
  rw [reported] at found
  cases verdict with
  | flawed => cases found
  | unavailable =>
      obtain rfl := List.mem_singleton.mp found
      rw [unavailableProblem_code]
      decide
  | incomplete => cases found
  | merged => cases found
  | problems =>
      rcases mem_assemblyProblems_cases found with is | is | is | is | is | ⟨-, render⟩
      · simp [is, findingCodes]
      · simp [is, findingCodes]
      · simp [is, findingCodes]
      · simp [is, findingCodes]
      · simp [is, findingCodes]
      · rcases renderProblem_code render with is | is
        · simp [is, findingCodes]
        · simp [is, findingCodes]

/-- What a resolution reports: what is wrong with entries, then the cycles, and then the findings of
each call in its turn. Every call has one turn, and what is told by a code of theirs is a finding of
a call. -/
structure ReportsByCall (registry : Registry) (options : Options) : Prop where
  once : (callSequence registry options).Perm registry.calls
  report : (resolve registry options).diagnostics =
    registry.calls.flatMap (entryProblems registry options) ++
      (mixinWalk registry options).cycles.map (cycleProblem registry) ++
      (callSequence registry options).flatMap (findings registry options)
  told : ∀ problem ∈ (resolve registry options).diagnostics, problem.code ∈ findingCodes →
    ∃ call ∈ registry.calls, problem ∈ findings registry options call

/-- Every resolution reports call by call. -/
theorem reportsByCall (options : Options) (h : registry.WellFormed) :
    ReportsByCall registry options where
  once := by
    have turns : (callSequence registry options).Nodup :=
      .of_map _ (callSequence_nodup options h.indexed)
    have calls : registry.calls.Nodup := .of_map _ h.indexed.ids_nodup
    exact (List.perm_ext_iff_of_nodup turns calls).mpr fun _ => mem_callSequence h.indexed
  report := diagnostics_eq h.indexed
  told := by
    intro problem mem code
    rw [diagnostics_eq h.indexed] at mem
    rcases List.mem_append.mp mem with before | found
    · rcases List.mem_append.mp before with entry | cycle
      · obtain ⟨call, -, found⟩ := List.mem_flatMap.mp entry
        rw [entryProblems_code found] at code
        exact absurd code (by decide)
      · obtain ⟨cycle, -, rfl⟩ := List.mem_map.mp cycle
        simp [cycleProblem_eq, findingCodes] at code
    · obtain ⟨call, turn, found⟩ := List.mem_flatMap.mp found
      exact ⟨call, (mem_callSequence h.indexed).mp turn, found⟩

/-- Where no finding has a code, filtering by it leaves nothing. -/
theorem filter_code_eq_nil {code : DiagnosticCode} {problems : List Diagnostic}
    (others : ∀ problem ∈ problems, problem.code ≠ code) :
    problems.filter (fun problem => problem.code = code) = [] := by
  rw [List.filter_eq_nil_iff]
  intro problem mem
  simpa using others problem mem

/-- The findings about cycles are those of the cycles that the walk over the mixins reports. -/
theorem cyclic_findings_eq (options : Options) (h : registry.WellFormed) :
    (resolve registry options).diagnostics.filter (fun problem => problem.code = .cyclicMixin) =
      (mixinWalk registry options).cycles.map (cycleProblem registry) := by
  have entries : (registry.calls.flatMap (entryProblems registry options)).filter
      (fun problem => problem.code = .cyclicMixin) = [] := by
    apply filter_code_eq_nil
    intro problem mem code
    obtain ⟨call, -, found⟩ := List.mem_flatMap.mp mem
    rw [entryProblems_code found] at code
    cases code
  have others : ((callSequence registry options).flatMap (findings registry options)).filter
      (fun problem => problem.code = .cyclicMixin) = [] := by
    apply filter_code_eq_nil
    intro problem mem code
    obtain ⟨call, callMem, found⟩ := List.mem_flatMap.mp mem
    have coded := findings_code h ((mem_callSequence h.indexed).mp callMem) found
    rw [code] at coded
    exact absurd coded (by decide)
  have cycles : ∀ problem ∈ (mixinWalk registry options).cycles.map (cycleProblem registry),
      problem.code = .cyclicMixin := by
    intro problem mem
    obtain ⟨cycle, -, rfl⟩ := List.mem_map.mp mem
    rw [cycleProblem_eq]
  rw [diagnostics_eq h.indexed, List.filter_append, List.filter_append, entries, others,
    List.filter_eq_self.mpr (by simpa using cycles), List.nil_append, List.append_nil]

/-- A finding is about a cycle just if it is that of a cycle which the walk reports. -/
theorem mem_cyclic_findings_iff (options : Options) (h : registry.WellFormed)
    {problem : Diagnostic} :
    problem ∈ (resolve registry options).diagnostics ∧ problem.code = .cyclicMixin ↔
      ∃ cycle ∈ (mixinWalk registry options).cycles, cycleProblem registry cycle = problem := by
  rw [← List.mem_map, ← cyclic_findings_eq options h, List.mem_filter, decide_eq_true_eq]

/-! ## Components -/

/-- A component is on no cycle, as no entry leads to it. -/
theorem acyclic_of_component (h : registry.WellFormed) (mem : call ∈ registry.calls)
    (component : call.isComponent = true) :
    call.id ∉ (mixinWalk registry options).cyclic := by
  intro cyclic
  obtain ⟨cycle, closes, onCycle⟩ :=
    (mixinWalk_sound registry options).1.genuine call.id cyclic
  obtain ⟨_, -, leads⟩ := Relation.TransGen.tail'_iff.mp (closes.reaches onCycle onCycle)
  obtain ⟨mixin, mixinMem, isMixin, same⟩ := exists_mixin_of_leads leads
  have found := h.get?_id mixinMem
  rw [same, h.get?_id mem] at found
  obtain rfl := Option.some.inj found
  rw [not_isComponent_iff.mpr isMixin] at component
  cases component

/-- A call on no cycle whose mixins resolved is merged unless one of its entries names no mixin or
something left out of the analysis. -/
theorem mergeable_iff_of_acyclic (h : registry.WellFormed) (mem : call ∈ registry.calls)
    (acyclic : call.id ∉ (mixinWalk registry options).cyclic)
    (resolved : ∀ inner, Leads (edges registry options) call.id inner →
      ∃ surface, (resolve registry options).surface? inner = some surface) :
    Mergeable registry options call ↔
      hasBadEntry registry options call = false ∧
        .leftOut ∉ dependencies registry options call := by
  have isResolved : ∀ inner, Leads (edges registry options) call.id inner →
      ∃ surface, (resolve registry options).get inner = .resolved surface := by
    intro inner leads
    obtain ⟨surface, found⟩ := resolved inner leads
    exact ⟨surface, get_of_get? (Resolutions.surface?_eq_some_iff.mp found)⟩
  constructor
  · intro m
    refine ⟨m.clean.entries, fun entry => ?_⟩
    have incomplete := (incomplete_iff h mem).mpr (.inl entry)
    rw [m.complete] at incomplete
    cases incomplete
  · rintro ⟨entries, complete⟩
    refine ⟨mem, ⟨acyclic, entries⟩, ?_, ?_⟩
    · by_contra failed
      obtain ⟨inner, leads, isFailed⟩ := (unavailable_ne_nil_iff h mem).mp failed
      obtain ⟨surface, isSurface⟩ := isResolved inner leads
      rw [isSurface] at isFailed
      cases isFailed
    · rw [Bool.eq_false_iff]
      intro incomplete
      rcases (incomplete_iff h mem).mp incomplete with entry | ⟨inner, leads, leftOut⟩
      · exact complete entry
      · obtain ⟨surface, isSurface⟩ := isResolved inner leads
        rw [isSurface] at leftOut
        cases leftOut

/-- A component whose mixins resolved is merged unless one of its entries names no mixin or
something left out of the analysis. -/
theorem mergeable_iff (h : registry.WellFormed) (mem : call ∈ registry.calls)
    (component : call.isComponent = true)
    (resolved : ∀ inner, Leads (edges registry options) call.id inner →
      ∃ surface, (resolve registry options).surface? inner = some surface) :
    Mergeable registry options call ↔
      hasBadEntry registry options call = false ∧
        .leftOut ∉ dependencies registry options call :=
  mergeable_iff_of_acyclic h mem (acyclic_of_component h mem component) resolved

end Findings

end ClassFactory
