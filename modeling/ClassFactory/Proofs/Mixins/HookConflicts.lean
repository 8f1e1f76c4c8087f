/-
Module: ClassFactory.Proofs.Mixins.HookConflicts
Purpose: Conflicting definitions of a hook. While a call is merged each new link of a chain is
  compared with those before it, and the first conflict of each hook is kept; in the end a hook is
  reported, once, just if somewhere along its chain a later definition declares a signature of other
  types, or with other parameter names, than an earlier one.
Main exports: Signature.Alike, Signature.same_iff, MemberDefinition.Clashes, ReportsConflict,
  hook_conflict_reported_iff
-/
import ClassFactory.Proofs.Component.Render
import ClassFactory.Proofs.Mixins.Propagation

namespace ClassFactory

/-! ## Signatures -/

/-- Two parameters take the same arguments; their names do not count. -/
structure Param.Alike (one other : Param) : Prop where
  type : one.type.same other.type = true
  optional : one.optional = other.optional
  rest : one.rest = other.rest

/-- Two signatures take the same arguments and return the same; the names of their parameters do not
count. -/
structure Signature.Alike (one other : Signature) : Prop where
  params : List.Forall₂ Param.Alike one.params other.params
  returns : one.returns.same other.returns = true

/-- The names of the parameters. -/
def Signature.paramNames (signature : Signature) : List String :=
  signature.params.map Param.name

/-- Parameters are the same if they are alike and have one name. -/
theorem sameParam_iff {one other : Param} :
    sameParam one other = true ↔ one.Alike other ∧ one.name = other.name := by
  cases one with
  | mk name type optional rest =>
      cases other with
      | mk otherName otherType otherOptional otherRest =>
          simp only [sameParam, Bool.and_eq_true, decide_eq_true_eq]
          constructor
          · rintro ⟨⟨⟨names, types⟩, optionals⟩, rests⟩
            exact ⟨⟨types, optionals, rests⟩, names⟩
          · rintro ⟨⟨types, optionals, rests⟩, names⟩
            exact ⟨⟨⟨names, types⟩, optionals⟩, rests⟩

/-- Parameter lists are the same if they are alike, name by name. -/
theorem sameParams_iff {ones others : List Param} :
    sameParams ones others = true ↔
      List.Forall₂ Param.Alike ones others ∧ ones.map Param.name = others.map Param.name := by
  induction ones generalizing others with
  | nil =>
      cases others with
      | nil => simp [sameParams]
      | cons other rest => simp [sameParams]
  | cons one ones ih =>
      cases others with
      | nil => simp [sameParams]
      | cons other others =>
          rw [sameParams, Bool.and_eq_true, sameParam_iff, ih, List.forall₂_cons, List.map_cons,
            List.map_cons, List.cons_eq_cons]
          constructor
          · rintro ⟨⟨alike, name⟩, rest, names⟩
            exact ⟨⟨alike, rest⟩, name, names⟩
          · rintro ⟨⟨alike, rest⟩, name, names⟩
            exact ⟨⟨alike, name⟩, rest, names⟩

/-- Equal signatures are alike and name their parameters in the same way. -/
theorem Signature.same_iff {one other : Signature} :
    one.same other = true ↔ one.Alike other ∧ one.paramNames = other.paramNames := by
  rw [Signature.same, Bool.and_eq_true, sameParams_iff]
  constructor
  · rintro ⟨⟨params, names⟩, returns⟩
    exact ⟨⟨params, returns⟩, names⟩
  · rintro ⟨⟨params, returns⟩, names⟩
    exact ⟨⟨params, names⟩, returns⟩

theorem hook_name_injective {one other : Hook} (same : one.name = other.name) : one = other := by
  have named := one.ofName?_name
  rw [same, other.ofName?_name, Option.some.injEq] at named
  exact named.symm

/-! ## Conflicts of a chain -/

/-- The later definition declares a signature that is not like the one that the earlier definition
declares, or that names its parameters in another way. -/
def MemberDefinition.Clashes (earlier later : MemberDefinition) : Prop :=
  ∃ one other, earlier.signature? = some one ∧ later.signature? = some other ∧
    (¬ one.Alike other ∨ one.paramNames ≠ other.paramNames)

/-- Two links of a chain clash. -/
def HasClash (chain : List MemberDefinition) : Prop :=
  ∃ earlier later, Precedes chain earlier later ∧ earlier.Clashes later

/-- At the end of a list the last item comes behind all others. -/
theorem precedes_concat {α : Type} {items : List α} {last first second : α} :
    Precedes (items ++ [last]) first second ↔
      Precedes items first second ∨ first ∈ items ∧ second = last := by
  constructor
  · rintro ⟨before, after, split, mem⟩
    rcases List.eq_nil_or_concat after with rfl | ⟨rest, final, rfl⟩
    · have whole := List.append_inj' split rfl
      rcases whole with ⟨rfl, same⟩
      cases same
      exact .inr ⟨mem, rfl⟩
    · rw [List.concat_eq_append, ← List.cons_append, ← List.append_assoc] at split
      exact .inl ⟨before, rest, (List.append_inj' split rfl).1, mem⟩
  · rintro (⟨before, after, rfl, mem⟩ | ⟨mem, rfl⟩)
    · exact ⟨before, after ++ [last], by simp, mem⟩
    · exact ⟨items, [], rfl, mem⟩

/-- A chain clashes once its last link clashes with an earlier one, if it did not before. -/
theorem hasClash_concat {chain : List MemberDefinition} {last : MemberDefinition} :
    HasClash (chain ++ [last]) ↔
      HasClash chain ∨ ∃ earlier ∈ chain, earlier.Clashes last := by
  constructor
  · rintro ⟨earlier, later, order, clashes⟩
    rcases precedes_concat.mp order with before | ⟨mem, rfl⟩
    · exact .inl ⟨earlier, later, before, clashes⟩
    · exact .inr ⟨earlier, mem, clashes⟩
  · rintro (⟨earlier, later, order, clashes⟩ | ⟨earlier, mem, clashes⟩)
    · exact ⟨earlier, later, precedes_concat.mpr (.inl order), clashes⟩
    · exact ⟨earlier, last, precedes_concat.mpr (.inr ⟨mem, rfl⟩), clashes⟩

/-- What the merge looks for in the earlier links. -/
theorem clashes_iff {earlier later : MemberDefinition} {other : Signature}
    (declares : later.signature? = some other) :
    (earlier.signature?.any fun one => !one.same other) = true ↔ earlier.Clashes later := by
  have differs : ∀ one : Signature, (!one.same other) = true ↔
      ¬ one.Alike other ∨ one.paramNames ≠ other.paramNames := by
    intro one
    rw [Bool.not_eq_true', Bool.eq_false_iff, ne_eq, Signature.same_iff, not_and_or]
  rw [Option.any_eq_true]
  constructor
  · rintro ⟨one, declared, unequal⟩
    exact ⟨one, other, declared, declares, (differs one).mp unequal⟩
  · rintro ⟨one, again, declared, declaresAgain, apart⟩
    cases declares.symm.trans declaresAgain
    exact ⟨one, declared, (differs one).mpr apart⟩

namespace Assembly

variable {assembly : Assembly}

/-- The conflict that is found is with an earlier link, and the two clash. -/
theorem conflicting?_eq_some {chain : List MemberDefinition} {earlier last : MemberDefinition}
    (found : conflicting? chain last = some earlier) : earlier ∈ chain ∧ earlier.Clashes last := by
  rcases Option.bind_eq_some_iff.mp found with ⟨other, declares, first⟩
  have unequal : (earlier.signature?.any fun one => !one.same other) = true := by
    simpa using List.find?_some first
  exact ⟨List.mem_of_find?_eq_some first, (clashes_iff declares).mp unequal⟩

/-- Where no conflict is found no earlier link clashes. -/
theorem conflicting?_eq_none {chain : List MemberDefinition} {last : MemberDefinition}
    (found : conflicting? chain last = none) : ¬ ∃ earlier ∈ chain, earlier.Clashes last := by
  rintro ⟨earlier, mem, clashes⟩
  rcases clashes with ⟨one, other, declared, declares, differs⟩
  have missed : chain.find? (fun link => link.signature?.any fun one => !one.same other) = none := by
    rw [conflicting?, declares] at found
    exact found
  exact List.find?_eq_none.mp missed earlier mem
    ((clashes_iff declares).mpr ⟨one, other, declared, declares, differs⟩)

/-- The conflict is a clash of the chain that it names. -/
def Shown (assembly : Assembly) (conflict : HookConflict) : Prop :=
  ∃ hook : Hook, conflict.name = hook.name ∧
    Precedes (assembly.surface.hookChain hook) conflict.earlier conflict.later ∧
    conflict.earlier.Clashes conflict.later

/-- The conflicts that are kept are those of the chains, one for each hook whose chain has a clash. -/
structure WatchesChains (assembly : Assembly) : Prop where
  distinct : (assembly.conflicts.map HookConflict.name).Nodup
  genuine : ∀ conflict ∈ assembly.conflicts, assembly.Shown conflict
  complete : ∀ hook : Hook, HasClash (assembly.surface.hookChain hook) →
    hook.name ∈ assembly.conflicts.map HookConflict.name

/-- A hook with a conflict that is noted gets no other one. -/
theorem addConflict_of_mem {conflicts : List HookConflict} {name : String}
    (known : name ∈ conflicts.map HookConflict.name) (earlier later : MemberDefinition) :
    addConflict conflicts name earlier later = conflicts := by
  rcases List.mem_map.mp known with ⟨conflict, mem, same⟩
  rw [addConflict, if_pos (List.any_eq_true.mpr ⟨conflict, mem, by simpa using same⟩)]

theorem addConflict_of_notMem {conflicts : List HookConflict} {name : String}
    (fresh : name ∉ conflicts.map HookConflict.name) (earlier later : MemberDefinition) :
    addConflict conflicts name earlier later =
      conflicts ++ [{ name := name, earlier := earlier, later := later }] := by
  rw [addConflict, if_neg]
  intro known
  rcases List.any_eq_true.mp known with ⟨conflict, mem, same⟩
  exact fresh (List.mem_map.mpr ⟨conflict, mem, by simpa using same⟩)

section Links

variable {hook : Hook} {definition : MemberDefinition}

theorem any_definition_iff {chain : List MemberDefinition} :
    (chain.any fun link => link.definition = definition.definition) = true ↔
      definition.definition ∈ chain.map MemberDefinition.definition := by
  rw [List.any_eq_true, List.mem_map]
  simp only [decide_eq_true_eq]

/-- Chaining a definition that is linked already changes nothing. -/
theorem chain_of_mem (known : definition.definition ∈
      (assembly.surface.hookChain hook).map MemberDefinition.definition) :
    assembly.chain hook.name hook definition = assembly := by
  rw [← any_definition_iff] at known
  revert known
  unfold Surface.hookChain Assembly.chain
  cases assembly.surface.member? hook.name with
  | none =>
      intro known
      cases known
  | some member =>
      intro known
      simp only [Option.map_some, Option.getD_some] at known ⊢
      rw [if_pos known]

/-- Chaining a new definition adds its first conflict, if there is one. -/
theorem conflicts_chain (fresh : definition.definition ∉
      (assembly.surface.hookChain hook).map MemberDefinition.definition) :
    (assembly.chain hook.name hook definition).conflicts =
      match conflicting? (assembly.surface.hookChain hook) definition with
      | some earlier => addConflict assembly.conflicts hook.name earlier definition
      | none => assembly.conflicts := by
  rw [← any_definition_iff] at fresh
  revert fresh
  unfold Surface.hookChain Assembly.chain
  cases assembly.surface.member? hook.name with
  | none =>
      intro fresh
      rfl
  | some member =>
      intro fresh
      simp only [Option.map_some, Option.getD_some] at fresh ⊢
      exact congrArg Assembly.conflicts (if_neg fresh)

/-- A new link adds its first conflict, unless the hook has one already. -/
theorem conflicts_chain_cases (fresh : definition.definition ∉
      (assembly.surface.hookChain hook).map MemberDefinition.definition) :
    ((assembly.chain hook.name hook definition).conflicts = assembly.conflicts ∧
      (hook.name ∈ assembly.conflicts.map HookConflict.name ∨
        ¬ ∃ earlier ∈ assembly.surface.hookChain hook, earlier.Clashes definition)) ∨
    (hook.name ∉ assembly.conflicts.map HookConflict.name ∧
      ∃ earlier ∈ assembly.surface.hookChain hook, earlier.Clashes definition ∧
        (assembly.chain hook.name hook definition).conflicts =
          assembly.conflicts ++ [{ name := hook.name, earlier := earlier, later := definition }]) := by
  rw [conflicts_chain fresh]
  cases found : conflicting? (assembly.surface.hookChain hook) definition with
  | none => exact .inl ⟨rfl, .inr (conflicting?_eq_none found)⟩
  | some earlier =>
      rcases conflicting?_eq_some found with ⟨mem, clashes⟩
      by_cases noted : hook.name ∈ assembly.conflicts.map HookConflict.name
      · exact .inl ⟨addConflict_of_mem noted earlier definition, .inl noted⟩
      · exact .inr ⟨noted, earlier, mem, clashes, addConflict_of_notMem noted earlier definition⟩

end Links

namespace WatchesChains

/-- A change that leaves conflicts and chains as they are. -/
theorem of_unchanged (watches : assembly.WatchesChains) {after : Assembly}
    (conflicts : after.conflicts = assembly.conflicts)
    (chains : ∀ hook, after.surface.hookChain hook = assembly.surface.hookChain hook) :
    after.WatchesChains where
  distinct := conflicts ▸ watches.distinct
  genuine := by
    intro conflict mem
    rcases watches.genuine conflict (conflicts ▸ mem) with ⟨hook, named, order, clashes⟩
    exact ⟨hook, named, (chains hook).symm ▸ order, clashes⟩
  complete := by
    intro hook clash
    rw [conflicts]
    exact watches.complete hook (chains hook ▸ clash)

theorem empty (pureRender : Bool) : (Assembly.empty pureRender).WatchesChains where
  distinct := List.nodup_nil
  genuine := fun _ mem => absurd mem List.not_mem_nil
  complete := by
    rintro hook ⟨earlier, later, ⟨before, after, split, mem⟩, -⟩
    have nothing : (Assembly.empty pureRender).surface.hookChain hook = [] := rfl
    rw [nothing] at split
    simp at split

/-- A new link is compared with those before it. -/
theorem chain (watches : assembly.WatchesChains) (hook : Hook) (definition : MemberDefinition) :
    (assembly.chain hook.name hook definition).WatchesChains := by
  by_cases known : definition.definition ∈
      (assembly.surface.hookChain hook).map MemberDefinition.definition
  · rw [chain_of_mem known]
    exact watches
  have here : (assembly.chain hook.name hook definition).surface.hookChain hook =
      assembly.surface.hookChain hook ++ [definition] := by
    rw [hookChain_chain_self, link_of_notMem known]
  have elsewhere : ∀ other, other ≠ hook →
      (assembly.chain hook.name hook definition).surface.hookChain other =
        assembly.surface.hookChain other := by
    intro other differs
    have concerns : (Write.chain hook.name hook definition).Concerns hook.name false :=
      .chain hook.ofName?_name definition
    apply hookChain_apply concerns
    rintro ⟨same, -⟩
    exact differs (hook_name_injective same).symm
  have old : ∀ conflict ∈ assembly.conflicts,
      (assembly.chain hook.name hook definition).Shown conflict := by
    intro conflict mem
    rcases watches.genuine conflict mem with ⟨other, named, order, clashes⟩
    refine ⟨other, named, ?_, clashes⟩
    by_cases same : other = hook
    · rw [same, here]
      exact precedes_concat.mpr (.inl (same ▸ order))
    · rw [elsewhere other same]
      exact order
  rcases conflicts_chain_cases known with ⟨same, settled⟩ | ⟨fresh, earlier, mem, clashes, added⟩
  · refine ⟨same ▸ watches.distinct, same ▸ old, ?_⟩
    intro other clash
    rw [same]
    by_cases isHook : other = hook
    · rw [isHook, here, hasClash_concat] at clash
      rw [isHook]
      rcases clash with before | new
      · exact watches.complete hook before
      · exact settled.resolve_right (not_not_intro new)
    · exact watches.complete other (elsewhere other isHook ▸ clash)
  · refine ⟨?_, ?_, ?_⟩
    · rw [added, List.map_append, List.map_singleton, ← List.concat_eq_append]
      exact List.Nodup.concat fresh watches.distinct
    · intro conflict listed
      rw [added] at listed
      rcases List.mem_append.mp listed with before | new
      · exact old conflict before
      · cases List.mem_singleton.mp new
        exact ⟨hook, rfl, here ▸ precedes_concat.mpr (.inr ⟨mem, rfl⟩), clashes⟩
    · intro other clash
      rw [added, List.map_append, List.map_singleton, List.mem_append]
      by_cases isHook : other = hook
      · exact .inr (List.mem_singleton.mpr (congrArg Hook.name isHook))
      · exact .inl (watches.complete other (elsewhere other isHook ▸ clash))

/-- Every write notes the clashes that it brings about. -/
theorem apply (write : Write) (name : String) (isStatic : Bool)
    (concerns : write.Concerns name isStatic) (watches : assembly.WatchesChains) :
    (write.apply assembly).WatchesChains := by
  cases concerns with
  | chain named definition =>
      cases Hook.name_of_ofName? named
      exact watches.chain _ definition
  | note name isStatic origin site =>
      apply watches.of_unchanged
      · simp only [Write.apply, note]
        split
        · rfl
        · rfl
      · intro hook
        simp only [Write.apply, note_surface]
  | settle name isStatic => exact watches.of_unchanged rfl fun _ => rfl
  | set ordinary definition =>
      refine watches.of_unchanged rfl fun hook => ?_
      apply hookChain_apply (.set ordinary definition)
      rintro ⟨rfl, -⟩
      rw [hook.ofName?_name] at ordinary
      cases ordinary
  | setStatic entry => exact watches.of_unchanged rfl fun _ => rfl

/-- Merging a mixin notes the clashes between its chains and those that there were. -/
theorem addMixin (watches : assembly.WatchesChains) (includes : Includes) (target : Nat)
    {included : Surface} (fitting : included.Fitting) :
    (assembly.addMixin includes target included).WatchesChains :=
  addMixin_keeps WatchesChains (fun _ => apply) includes fitting
    (watches.of_unchanged rfl fun _ => rfl)

/-- The own members of a call are watched as those of mixins are. -/
theorem own (watches : assembly.WatchesChains) (spec : FactorySpec) :
    (assembly.own spec).WatchesChains :=
  own_keeps WatchesChains (fun _ => apply) spec watches

end WatchesChains

end Assembly

/-! ## Reports -/

/-- The finding says that definitions of the hook declare different signatures. -/
def ReportsConflict (registry : Registry) (hook : Hook) (problem : Diagnostic) : Prop :=
  ∃ earlier later, problem = hookProblem registry ⟨hook.name, earlier, later⟩

section Reports

variable {registry : Registry} {options : Options} {call : FactoryCall} {hook : Hook}

/-- In the assembly of every call each clash of a chain is noted. -/
theorem assembled_watchesChains (h : registry.WellFormed) (options : Options)
    (call : FactoryCall) : (assembled registry options call).WatchesChains :=
  assembled_keeps Assembly.WatchesChains Assembly.WatchesChains.empty
    (fun _ watches entry mem => watches.addMixin _ _ (merged_fitting h entry mem))
    (fun _ watches => watches.own _)

/-- No quoted hook begins like another one. -/
theorem hook_eq_of_quoted {one other : Hook}
    (start : (quoted one.name).toList <+: (quoted other.name).toList) : one = other := by
  have apart : ∀ one ∈ Hook.all, ∀ other ∈ Hook.all,
      (quoted one.name).toList <+: (quoted other.name).toList → one = other := by decide
  exact apart one one.mem_all other other.mem_all start

/-- The finding for a conflict tells the hook. -/
theorem hookProblem_inj {one other : Hook} {earlier later otherEarlier otherLater : MemberDefinition}
    (same : hookProblem registry ⟨one.name, earlier, later⟩ =
      hookProblem registry ⟨other.name, otherEarlier, otherLater⟩) : one = other := by
  have messages := congrArg (String.toList ∘ Diagnostic.message) same
  simp only [hookProblem, Diagnostic.withRelated, Diagnostic.error, Function.comp_apply,
    String.toList_append, List.append_assoc] at messages
  rcases List.prefix_or_prefix_of_prefix (List.prefix_append _ _)
    (messages ▸ List.prefix_append _ _) with forward | backward
  · exact (hook_eq_of_quoted forward).symm
  · exact hook_eq_of_quoted backward

/-- The findings with the code of conflicts are those of the conflicts that an assembly keeps. -/
theorem conflict_findings_eq (call : FactoryCall) (assembly : Assembly) :
    (assemblyProblems registry call assembly).filter
        (fun problem => problem.code = .hookSignatureConflict) =
      assembly.conflicts.map (hookProblem registry) := by
  have conflicts : (assembly.conflicts.map (hookProblem registry)).filter
      (fun problem => problem.code = .hookSignatureConflict) =
      assembly.conflicts.map (hookProblem registry) := by
    rw [List.filter_eq_self]
    intro problem mem
    simpa using hookProblems_code mem
  have arity : (renderArityProblem call).filter
      (fun problem => problem.code = .hookSignatureConflict) = [] := by
    apply filter_code_eq_nil
    intro problem mem
    simp [renderArityProblem_code mem]
  have pureRender : (pureRenderProblem assembly.surface).filter
      (fun problem => problem.code = .hookSignatureConflict) = [] := by
    apply filter_code_eq_nil
    intro problem mem
    simp [pureRenderProblem_code mem]
  have ambiguities : (assembly.pending.map (ambiguityProblem registry call)).filter
      (fun problem => problem.code = .hookSignatureConflict) = [] := by
    apply filter_code_eq_nil
    intro problem mem
    rcases ambiguityProblems_code mem with method | static
    · simp [method]
    · simp [static]
  have render : (renderProblem registry call assembly.surface).filter
      (fun problem => problem.code = .hookSignatureConflict) = [] := by
    apply filter_code_eq_nil
    intro problem mem
    rcases renderProblem_code mem with missing | conflict
    · simp [missing]
    · simp [conflict]
  rw [assemblyProblems, List.filter_append, List.filter_append, List.filter_append, conflicts,
    arity, pureRender]
  split
  · simp [ambiguities, render]
  · simp

/-- A finding about a hook in an assembly is that of a conflict noted for the hook. -/
theorem mem_conflict_reports_iff {assembly : Assembly} (watches : assembly.WatchesChains)
    {problem : Diagnostic} :
    problem ∈ assemblyProblems registry call assembly ∧ ReportsConflict registry hook problem ↔
      ∃ conflict ∈ assembly.conflicts, conflict.name = hook.name ∧
        hookProblem registry conflict = problem := by
  constructor
  · rintro ⟨mem, earlier, later, rfl⟩
    have coded : hookProblem registry ⟨hook.name, earlier, later⟩ ∈
        assembly.conflicts.map (hookProblem registry) := by
      rw [← conflict_findings_eq call, List.mem_filter]
      exact ⟨mem, rfl⟩
    rcases List.mem_map.mp coded with ⟨⟨name, _, _⟩, kept, same⟩
    rcases watches.genuine _ kept with ⟨other, named, -⟩
    cases named
    exact ⟨_, kept, congrArg Hook.name (hookProblem_inj same), same⟩
  · rintro ⟨⟨name, earlier, later⟩, kept, named, rfl⟩
    cases named
    have listed : hookProblem registry ⟨hook.name, earlier, later⟩ ∈
        assembly.conflicts.map (hookProblem registry) := List.mem_map_of_mem kept
    rw [← conflict_findings_eq call, List.mem_filter] at listed
    exact ⟨listed.1, earlier, later, rfl⟩

/-- A hook is reported just if its chain has a clash. -/
theorem exists_conflict_report_iff {assembly : Assembly} (watches : assembly.WatchesChains) :
    (∃ problem ∈ assemblyProblems registry call assembly,
        ReportsConflict registry hook problem) ↔
      HasClash (assembly.surface.hookChain hook) := by
  constructor
  · rintro ⟨problem, reports⟩
    rcases (mem_conflict_reports_iff watches).mp reports with ⟨conflict, kept, named, -⟩
    rcases watches.genuine conflict kept with ⟨other, again, order, clashes⟩
    cases hook_name_injective (named.symm.trans again)
    exact ⟨conflict.earlier, conflict.later, order, clashes⟩
  · intro clash
    rcases List.mem_map.mp (watches.complete hook clash) with ⟨conflict, kept, named⟩
    exact ⟨_, (mem_conflict_reports_iff watches).mpr ⟨conflict, kept, named, rfl⟩⟩

/-- A hook is reported once at most. -/
theorem conflict_reports_pairwise {assembly : Assembly} (watches : assembly.WatchesChains) :
    (assemblyProblems registry call assembly).Pairwise fun one other =>
      ¬ (ReportsConflict registry hook one ∧ ReportsConflict registry hook other) := by
  have distinct : (assembly.conflicts.map (hookProblem registry)).Pairwise fun one other =>
      ¬ (ReportsConflict registry hook one ∧ ReportsConflict registry hook other) := by
    rw [List.pairwise_map]
    refine (List.pairwise_map.mp watches.distinct).imp_of_mem ?_
    rintro ⟨oneName, _, _⟩ ⟨otherName, _, _⟩ one other differ ⟨⟨_, _, oneSame⟩, _, _, otherSame⟩
    rcases watches.genuine _ one with ⟨oneHook, oneNamed, -⟩
    rcases watches.genuine _ other with ⟨otherHook, otherNamed, -⟩
    cases oneNamed
    cases otherNamed
    cases hookProblem_inj oneSame
    cases hookProblem_inj otherSame
    exact differ rfl
  rw [← conflict_findings_eq call, List.pairwise_filter] at distinct
  refine distinct.imp fun apart both => apart ?_ ?_ both
  · rcases both with ⟨⟨_, _, rfl⟩, -⟩
    rfl
  · rcases both with ⟨-, _, _, rfl⟩
    rfl

/-- A call whose entries name mixins that resolved is merged: it is on no cycle. -/
theorem Mergeable.of_namesResolved (h : registry.WellFormed) (mem : call ∈ registry.calls)
    (entries : ∀ entry ∈ call.spec.mixins, NamesResolved registry options entry) :
    Mergeable registry options call := by
  have resolved : ∀ inner, Leads (edges registry options) call.id inner →
      ∃ surface, (resolve registry options).surface? inner = some surface :=
    fun _ => exists_surface_of_namesResolved h mem entries
  refine (mergeable_iff_of_acyclic h mem ?_ resolved).mpr (sound_of_namesResolved entries)
  intro cyclic
  rcases (mixinWalk_sound registry options).1.genuine call.id cyclic with ⟨cycle, closes, onCycle⟩
  rcases Relation.TransGen.head'_iff.mp (closes.reaches onCycle onCycle) with ⟨inner, leads, covers⟩
  rcases resolved inner leads with ⟨surface, found⟩
  have failed : (resolve registry options).get inner = .failed :=
    failed_of_covers_cycle h .refl (Relation.TransGen.tail' covers leads)
  rw [get_of_get? (Resolutions.surface?_eq_some_iff.mp found)] at failed
  cases failed

end Reports

/-- A call whose entries all name mixins that resolved, or the library mixin, is told of a hook, once,
just if along the chain that it obtains a later annotated definition declares a signature with other
types or marks, or with other names of parameters, than an earlier one. The resolution reports the
findings of each call in its one turn. -/
theorem hook_conflict_reported_iff {registry : Registry} {options : Options}
    (h : registry.WellFormed) {call : FactoryCall} (mem : call ∈ registry.calls)
    (entries : ∀ entry ∈ call.spec.mixins, NamesResolved registry options entry) (hook : Hook) :
    ((∃ problem ∈ findings registry options call, ReportsConflict registry hook problem) ↔
      ∃ earlier later,
        Precedes ((assembled registry options call).surface.hookChain hook) earlier later ∧
        ∃ one other, earlier.signature? = some one ∧ later.signature? = some other ∧
          (¬ one.Alike other ∨ one.paramNames ≠ other.paramNames)) ∧
    ((findings registry options call).Pairwise fun one other =>
      ¬ (ReportsConflict registry hook one ∧ ReportsConflict registry hook other)) ∧
    ReportsByCall registry options := by
  have merged : Mergeable registry options call := .of_namesResolved h mem entries
  have watches := assembled_watchesChains h options call
  rw [findings_of_mergeable h merged]
  exact ⟨exists_conflict_report_iff watches, conflict_reports_pairwise watches,
    reportsByCall options h⟩

/-- The signature of a method that takes a number under that name. -/
def takesNumber (name : String) : Signature :=
  { params := [.mk name .number false false], returns := .unknown }

/-- A component whose own `componentWillUpdate` takes what that of its mixin takes, under another
name. -/
def renamedRegistry : Registry :=
  memberRegistry
    [⟨.mixin, "Base", [],
        [("componentWillUpdate", .method (some (takesNumber "next")) 1 default)]⟩,
      ⟨.component, "Panel", ["Base"],
        [("componentWillUpdate", .method (some (takesNumber "upcoming")) 1 default),
          ("render", .method none 0 default)]⟩]

/-- The component is told of the hook although both signatures are alike. -/
theorem hook_conflict_reported_iff_renamed :
    (takesNumber "next").Alike (takesNumber "upcoming") ∧
    ∃ call ∈ renamedRegistry.calls, call.name = "Panel" ∧
      ∃ problem ∈ findings renamedRegistry .standard call,
        ReportsConflict renamedRegistry .componentWillUpdate problem := by
  have alike : (takesNumber "next").Alike (takesNumber "upcoming") :=
    ⟨.cons ⟨rfl, rfl, rfl⟩ .nil, rfl⟩
  have resolved : classify renamedRegistry .standard ⟨"Base", default⟩ = .mixin 0 default := by
    decide
  have base : NamesResolved renamedRegistry .standard ⟨"Base", default⟩ :=
    namesResolved_of_mixin resolved (by decide)
  obtain ⟨call, panel⟩ : ∃ call, renamedRegistry.get? 1 = some call := ⟨_, rfl⟩
  have mem : call ∈ renamedRegistry.calls := Registry.mem_of_get? panel
  cases panel
  refine ⟨alike, _, mem, rfl, ?_⟩
  have entries : ∀ entry ∈ [(⟨"Base", default⟩ : MixinRef)],
      NamesResolved renamedRegistry .standard entry := by
    intro entry listed
    rw [List.mem_singleton.mp listed]
    exact base
  apply (hook_conflict_reported_iff (memberRegistry_wellFormed _) mem entries
    .componentWillUpdate).1.mpr
  refine ⟨⟨⟨0, 0⟩, 0, default, .method (some (takesNumber "next")) 1 default, false⟩,
    ⟨⟨1, 0⟩, 1, default, .method (some (takesNumber "upcoming")) 1 default, false⟩, ?_, _, _, rfl,
    rfl, .inr (by decide)⟩
  exact ⟨[_], [], rfl, List.mem_singleton_self _⟩

end ClassFactory
