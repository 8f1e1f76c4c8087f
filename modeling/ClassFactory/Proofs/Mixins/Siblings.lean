/-
Module: ClassFactory.Proofs.Mixins.Siblings
Purpose: Reports of siblings that define one name. A component reports just the names that its
  assembly is left with, each of them once, for ordinary members and for statics alike.
Main exports: ReportsSiblings, ambiguityProblem_inj, exists_pending_iff_rivals,
  exists_siblings_report_iff, siblings_reports_pairwise, siblings_reported_iff
-/
import ClassFactory.Proofs.Mixins.Dominance
import ClassFactory.Proofs.Mixins.Findings

namespace ClassFactory

/-- The finding says that siblings define the ordinary member, or the static, of that name for the
call. -/
def ReportsSiblings (registry : Registry) (call : FactoryCall) (name : String) (isStatic : Bool)
    (problem : Diagnostic) : Prop :=
  ∃ origins, problem = ambiguityProblem registry call ⟨name, isStatic, origins⟩

section Siblings

variable {registry : Registry} {options : Options} {name : String} {isStatic : Bool}
  {call : FactoryCall}

/-! ## Findings about siblings among others -/

/-- The finding for an ambiguity tells its name. -/
theorem ambiguityProblem_inj {one other : Ambiguity}
    (same : ambiguityProblem registry call one = ambiguityProblem registry call other) :
    one.name = other.name ∧ one.isStatic = other.isStatic := by
  rw [ambiguityProblem_eq, ambiguityProblem_eq, Diagnostic.mk.injEq] at same
  obtain ⟨codes, -, messages, -, related⟩ := same
  have kinds : one.isStatic = other.isStatic := by
    split at codes <;> split at codes <;> simp_all
  -- the related places tell the mixins, so what remains of the message is the name
  have names : (one.origins.map fun origin => quoted (registry.nameOf origin.1)) =
      other.origins.map fun origin => quoted (registry.nameOf origin.1) := by
    have texts := congrArg (List.map Related.message) related
    rw [List.map_map, List.map_map] at texts
    have prefixed : ∀ ambiguity : Ambiguity,
        ambiguity.origins.map (Related.message ∘ fun origin =>
          ⟨"defined by " ++ quoted (registry.nameOf origin.1), origin.2⟩) =
        (ambiguity.origins.map fun origin => quoted (registry.nameOf origin.1)).map
          ("defined by " ++ ·) := by
      intro ambiguity
      simp
    rw [prefixed, prefixed] at texts
    exact List.map_injective_iff.mpr (fun _ _ => (String.append_right_inj _).mp) texts
  rw [kinds, names] at messages
  simp only [String.append_left_inj, String.append_right_inj, quoted] at messages
  exact ⟨messages, kinds⟩

/-- A finding about siblings has one of the two codes of ambiguities. -/
theorem ReportsSiblings.code {problem : Diagnostic}
    (reports : ReportsSiblings registry call name isStatic problem) :
    problem.code = .ambiguousMixinMethod ∨ problem.code = .ambiguousMixinStatic := by
  obtain ⟨origins, rfl⟩ := reports
  exact ambiguityProblems_code (List.mem_map_of_mem (List.mem_singleton_self _))

/-- The other findings about an assembly have other codes. -/
theorem not_reportsSiblings_before {assembly : Assembly} {problem : Diagnostic}
    (mem : problem ∈ assembly.conflicts.map (hookProblem registry) ++ renderArityProblem call ++
      pureRenderProblem assembly.surface) :
    ¬ ReportsSiblings registry call name isStatic problem := by
  intro reports
  have code := reports.code
  rcases List.mem_append.mp mem with before | pure
  · rcases List.mem_append.mp before with conflict | arity
    · simp [hookProblems_code conflict] at code
    · simp [renderArityProblem_code arity] at code
  · simp [pureRenderProblem_code pure] at code

theorem not_reportsSiblings_render {surface : Surface} {problem : Diagnostic}
    (mem : problem ∈ renderProblem registry call surface) :
    ¬ ReportsSiblings registry call name isStatic problem := by
  intro reports
  have code := reports.code
  rcases renderProblem_code mem with missing | conflict
  · simp [missing] at code
  · simp [conflict] at code

/-- A component reports just the names that its assembly is left with. -/
theorem exists_siblings_report_iff (component : call.isComponent = true) {assembly : Assembly} :
    (∃ problem ∈ assemblyProblems registry call assembly,
        ReportsSiblings registry call name isStatic problem) ↔
      ∃ ambiguity ∈ assembly.pending,
        ambiguity.name = name ∧ ambiguity.isStatic = isStatic := by
  unfold assemblyProblems
  rw [if_pos component]
  constructor
  · rintro ⟨problem, mem, reports⟩
    rcases List.mem_append.mp mem with before | rest
    · exact absurd reports (not_reportsSiblings_before before)
    · rcases List.mem_append.mp rest with pending | render
      · obtain ⟨ambiguity, isPending, rfl⟩ := List.mem_map.mp pending
        obtain ⟨origins, same⟩ := reports
        exact ⟨ambiguity, isPending, ambiguityProblem_inj same⟩
      · exact absurd reports (not_reportsSiblings_render render)
  · rintro ⟨⟨_, _, origins⟩, isPending, rfl, rfl⟩
    refine ⟨_, List.mem_append_right _ (List.mem_append_left _ (List.mem_map_of_mem isPending)), ?_⟩
    exact ⟨origins, rfl⟩

theorem pairwise_of_none {α : Type} {holds : α → Prop} {items : List α}
    (none : ∀ item ∈ items, ¬ holds item) :
    items.Pairwise fun one other => ¬ (holds one ∧ holds other) :=
  List.Pairwise.imp_of_mem (fun one _ _ both => none _ one both.1)
    (List.pairwise_of_forall (R := fun _ _ => True) fun _ _ => trivial)

/-- A name is reported once at most. -/
theorem siblings_reports_pairwise (component : call.isComponent = true) {assembly : Assembly}
    (distinct : Ambiguity.Distinct assembly.pending) :
    (assemblyProblems registry call assembly).Pairwise fun one other =>
      ¬ (ReportsSiblings registry call name isStatic one ∧
        ReportsSiblings registry call name isStatic other) := by
  unfold assemblyProblems
  rw [if_pos component]
  refine List.pairwise_append.mpr ⟨pairwise_of_none fun _ => not_reportsSiblings_before,
    List.pairwise_append.mpr ⟨?_, pairwise_of_none fun _ => not_reportsSiblings_render, ?_⟩, ?_⟩
  · rw [List.pairwise_map]
    have names := List.pairwise_map.mp distinct.names
    refine names.imp fun differ ⟨⟨_, sameOne⟩, ⟨_, sameOther⟩⟩ => differ ?_
    obtain ⟨oneName, oneKind⟩ := ambiguityProblem_inj sameOne
    obtain ⟨otherName, otherKind⟩ := ambiguityProblem_inj sameOther
    rw [oneName, oneKind, otherName, otherKind]
  · exact fun _ _ _ render both => not_reportsSiblings_render render both.2
  · exact fun _ before _ _ both => not_reportsSiblings_before before both.1

/-! ## Findings about siblings of a call -/

/-- An assembly is left with the names of which somebody is noted as a rival. -/
theorem exists_pending_iff_rivals {assembly : Assembly} (sound : assembly.Sound) :
    (∃ ambiguity ∈ assembly.pending, ambiguity.name = name ∧ ambiguity.isStatic = isStatic) ↔
      (assembly.seat name isStatic).standing.rivals.Nonempty := by
  constructor
  · rintro ⟨ambiguity, mem, concerned⟩
    obtain ⟨⟨origin, site⟩, originMem⟩ :=
      List.exists_mem_of_ne_nil _ (sound.pending.origins ambiguity mem)
    refine ⟨origin, (Assembly.mem_contested_iff sound.pending).mpr ⟨ambiguity, mem, ?_, ?_⟩⟩
    · exact Assembly.concerns_iff.mpr concerned
    · exact List.mem_map_of_mem originMem
  · rintro ⟨origin, isRival⟩
    obtain ⟨ambiguity, mem, concerned, -⟩ :=
      (Assembly.mem_contested_iff sound.pending).mp isRival
    exact ⟨ambiguity, mem, Assembly.concerns_iff.mp concerned⟩

/-- Nothing is found about a call whose mixins all resolved and which is not merged even so. -/
theorem findings_of_not_mergeable (h : registry.WellFormed) (mem : call ∈ registry.calls)
    (resolved : ∀ inner, Leads (edges registry options) call.id inner →
      ∃ surface, (resolve registry options).surface? inner = some surface)
    (unmerged : ¬ Mergeable registry options call) : findings registry options call = [] := by
  obtain ⟨_, _, -, reported, verdict⟩ := exists_verdict options h mem
  rw [reported]
  cases verdict with
  | flawed => rfl
  | unavailable _ failed =>
      obtain ⟨inner, leads, isFailed⟩ := (unavailable_ne_nil_iff h mem).mp failed
      obtain ⟨surface, found⟩ := resolved inner leads
      rw [get_of_get? (Resolutions.surface?_eq_some_iff.mp found)] at isFailed
      cases isFailed
  | incomplete => rfl
  | merged clean available complete => exact absurd ⟨mem, clean, available, complete⟩ unmerged
  | problems clean available complete => exact absurd ⟨mem, clean, available, complete⟩ unmerged

/-- For a component whose mixins all resolved, siblings are reported under a name just if its
assembly is left with rivals, provided that every entry is looked at; and they are reported once at
most. The resolution reports just that of the component in its turn. -/
theorem siblings_reported_iff (h : registry.WellFormed) (mem : call ∈ registry.calls)
    (component : call.isComponent = true)
    (resolved : ∀ inner, Leads (edges registry options) call.id inner →
      ∃ surface, (resolve registry options).surface? inner = some surface)
    {unsettled : Prop} (decided : Mergeable registry options call →
      (((assembled registry options call).seat name isStatic).standing.rivals.Nonempty ↔
        unsettled)) :
    ((∃ problem ∈ findings registry options call,
        ReportsSiblings registry call name isStatic problem) ↔
      hasBadEntry registry options call = false ∧
        .leftOut ∉ dependencies registry options call ∧ unsettled) ∧
    ((findings registry options call).Pairwise fun one other =>
      ¬ (ReportsSiblings registry call name isStatic one ∧
        ReportsSiblings registry call name isStatic other)) ∧
    ReportsByCall registry options := by
  have sound : (assembled registry options call).Sound := assembled_sound h call
  refine ⟨?_, ?_, reportsByCall options h⟩
  · rw [← and_assoc, ← mergeable_iff h mem component resolved]
    by_cases merged : Mergeable registry options call
    · rw [findings_of_mergeable h merged, exists_siblings_report_iff component,
        exists_pending_iff_rivals sound, decided merged]
      simp [merged]
    · rw [findings_of_not_mergeable h mem resolved merged]
      simp [merged]
  · by_cases merged : Mergeable registry options call
    · rw [findings_of_mergeable h merged]
      exact siblings_reports_pairwise component sound.pending
    · rw [findings_of_not_mergeable h mem resolved merged]
      exact List.Pairwise.nil

end Siblings

end ClassFactory
