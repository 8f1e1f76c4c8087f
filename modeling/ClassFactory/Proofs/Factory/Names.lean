/-
Module: ClassFactory.Proofs.Factory.Names
Purpose: What a name stands for after operations on a registry. The first call that is recorded for
  it stays the one it stands for, and a call that is left out first marks the name for good. Recording
  does not look at the mark, so that a name can have both.
Main exports: Registry.Operation.concerns, Registry.bound_run, Registry.isOpaque_run,
  Registry.bound_and_opaque_iff
-/
import ClassFactory.Proofs.Factory.Operations

namespace ClassFactory

namespace Registry

/-! ## Calls of a name -/

namespace Operation

/-- The call of that name that the operation enters. -/
def inserted? (name : String) : Operation → Option FactoryCall
  | .insert call => if call.name = name then some call else none
  | _ => none

/-- Whether the operation leaves out a call of that name. -/
def setsAside (name : String) : Operation → Bool
  | .recordOpaque call => call.name = some name
  | _ => false

/-- Whether the operation is about a call of that name. -/
def concerns (name : String) (operation : Operation) : Bool :=
  (operation.inserted? name).isSome || operation.setsAside name

theorem concerns_recordOpaque (name : String) (call : OpaqueCall) :
    (Operation.recordOpaque call).concerns name = decide (call.name = some name) := by
  simp [concerns, inserted?, setsAside]

/-- A name is set aside only by leaving out a call of that name. -/
theorem exists_of_setsAside {name : String} {operation : Operation}
    (aside : operation.setsAside name = true) :
    ∃ call : OpaqueCall, operation = .recordOpaque call ∧ call.name = some name := by
  cases operation with
  | recordOpaque call => exact ⟨call, rfl, by simpa [setsAside] using aside⟩
  | insert | addAbstract | report | finish | takeDiagnostics => cases aside

/-- A call enters under a name only by recording it, and under its own. -/
theorem exists_of_inserted? {name : String} {operation : Operation} {call : FactoryCall}
    (entered : operation.inserted? name = some call) :
    operation = .insert call ∧ call.name = name := by
  cases operation with
  | insert other =>
      rw [inserted?, Option.ite_none_right_eq_some] at entered
      obtain ⟨named, same⟩ := entered
      cases same
      exact ⟨rfl, named⟩
  | recordOpaque | addAbstract | report | finish | takeDiagnostics => cases entered

end Operation

/-! ## Calls that are recorded -/

/-- Both names are free, or they stand for calls that differ at most in members. -/
abbrev Bound (first second : Option FactoryCall) : Prop :=
  Option.Rel FactoryCall.Alike first second

theorem Bound.refl : (found : Option FactoryCall) → Bound found found
  | none => .none
  | some call => .some (.refl call)

theorem Bound.trans {first second third : Option FactoryCall} (before : Bound first second)
    (after : Bound second third) : Bound first third := by
  cases before with
  | none => exact after
  | some here =>
      cases after with
      | some there => exact .some (here.trans there)

/-- A name that is free is so on both sides. -/
theorem Bound.isSome_eq {first second : Option FactoryCall} (found : Bound first second) :
    first.isSome = second.isSome := by
  cases found <;> rfl

/-- A call that comes later is not looked at where there is a first. -/
theorem Bound.or {first second : Option FactoryCall} (found : Bound first second)
    (later : Option FactoryCall) : Bound (first.or later) (second.or later) := by
  cases found with
  | none => exact .refl later
  | some here => exact .some here

/-- A change of calls that keeps their names changes what each name stands for. -/
theorem find?_name_map (change : FactoryCall → FactoryCall)
    (names : ∀ call, (change call).name = call.name) (calls : List FactoryCall) (name : String) :
    (calls.map change).find? (·.name = name) = (calls.find? (·.name = name)).map change := by
  have tests : (fun call : FactoryCall => decide (call.name = name)) ∘ change =
      fun call => decide (call.name = name) := by
    funext call
    rw [Function.comp_apply, names]
  rw [List.find?_map, tests]

/-- Attaching a declaration leaves bound what was bound, up to the members of the call. -/
theorem bound_attach (registry : Registry) (declaration : AbstractDecl) (name : String) :
    Bound (registry.lookup? name) ((registry.attach declaration).lookup? name) := by
  unfold attach
  split
  next owner _ =>
    split
    next =>
      have names : ∀ call : FactoryCall,
          (if call.id = owner.id then declareIn declaration call else call).name = call.name := by
        intro call
        split
        · exact declareIn_name declaration call
        · rfl
      rw [lookup?, lookup?, find?_name_map _ names]
      cases registry.calls.find? (·.name = name) with
      | none => exact .none
      | some call =>
          refine .some ?_
          dsimp only
          split
          · exact (FactoryCall.declares_declareIn declaration call).alike
          · exact .refl call
    next => exact .refl _
  next => exact .refl _

/-- Finishing leaves bound what was bound, up to the members of the calls. -/
theorem bound_finish (registry : Registry) (name : String) :
    Bound (registry.lookup? name) (registry.finish.lookup? name) := by
  have start : Bound (registry.lookup? name)
      (({ registry with pending := [] } : Registry).lookup? name) :=
    .refl _
  exact List.foldlRecOn registry.pending Registry.attach
    (motive := fun middle => Bound (registry.lookup? name) (middle.lookup? name)) start
    fun middle keeps declaration _ => keeps.trans (bound_attach middle declaration name)

/-- A call that is recorded takes its name if that is free. -/
theorem lookup?_insert (registry : Registry) (call : FactoryCall) (name : String) :
    (registry.insert call).1.lookup? name =
      (registry.lookup? name).or (if call.name = name then some call else none) := by
  unfold Registry.insert
  split
  next first bound =>
    have unchanged : ∀ {aside : OpaqueCall} {warning : Diagnostic},
        ((registry.report warning).recordOpaque aside).lookup? name = registry.lookup? name := rfl
    rw [unchanged]
    split
    next same =>
      rw [← same, bound, Option.some_or]
    next => rw [Option.or_none]
  next unbound =>
    rw [lookup?, List.find?_append, lookup?]
    by_cases same : call.name = name
    · rw [List.find?_cons_of_pos (by simpa using same), if_pos same]
    · rw [List.find?_cons_of_neg (by simpa using same), List.find?_nil, if_neg same]

/-- A name that is bound keeps its call, and entering a call binds a name that is free. -/
theorem bound_apply (registry : Registry) (operation : Operation) (name : String) :
    Bound ((registry.lookup? name).or (operation.inserted? name))
      ((registry.apply operation).lookup? name) := by
  have kept : ∀ found : Option FactoryCall, found.or none = found := fun _ => Option.or_none
  cases operation with
  | insert call =>
      rw [Registry.apply, lookup?_insert]
      exact .refl _
  | finish => exact (kept _).symm ▸ bound_finish registry name
  | recordOpaque | addAbstract | report | takeDiagnostics => exact (kept _).symm ▸ .refl _

/-- A name stands for the first call of that name that was entered. -/
theorem bound_run (registry : Registry) (operations : List Operation) (name : String) :
    Bound ((registry.lookup? name).or (operations.findSome? (·.inserted? name)))
      ((registry.run operations).lookup? name) := by
  induction operations generalizing registry with
  | nil =>
      rw [List.findSome?_nil, Option.or_none]
      exact .refl _
  | cons operation rest ih =>
      have split : (operation :: rest).findSome? (·.inserted? name) =
          (operation.inserted? name).or (rest.findSome? (·.inserted? name)) := by
        rw [List.findSome?_cons]
        cases operation.inserted? name <;> rfl
      rw [split, ← Option.or_assoc]
      exact ((bound_apply registry operation name).or _).trans (ih (registry.apply operation))

/-! ## Calls that are left out -/

theorem opaqueNames_attach (registry : Registry) (declaration : AbstractDecl) :
    (registry.attach declaration).opaqueNames = registry.opaqueNames := by
  unfold attach
  split
  · split <;> rfl
  · rfl

theorem opaqueNames_finish (registry : Registry) :
    registry.finish.opaqueNames = registry.opaqueNames := by
  have start : ({ registry with pending := [] } : Registry).opaqueNames = registry.opaqueNames := rfl
  exact List.foldlRecOn registry.pending Registry.attach
    (motive := fun middle => middle.opaqueNames = registry.opaqueNames) start
    fun middle keeps declaration _ => (opaqueNames_attach middle declaration).trans keeps

/-- A call that is left out marks its name, unless a call was recorded for it. -/
theorem isOpaque_recordOpaque (registry : Registry) (call : OpaqueCall) (name : String) :
    (registry.recordOpaque call).isOpaque name =
      (registry.isOpaque name ||
        ((registry.lookup? name).isNone && decide (call.name = some name))) := by
  unfold recordOpaque isOpaque
  dsimp only
  cases call.name with
  | none => simp
  | some own =>
      dsimp only
      by_cases same : own = name
      · subst same
        cases registry.lookup? own <;> simp
      · split <;> simp [same, Ne.symm same]

/-- Recording a call takes no name out of the analysis. -/
theorem isOpaque_insert (registry : Registry) (call : FactoryCall) (name : String) :
    (registry.insert call).1.isOpaque name = registry.isOpaque name := by
  unfold Registry.insert
  split
  next first bound =>
    dsimp only
    rw [isOpaque_recordOpaque]
    by_cases same : call.name = name
    · subst same
      have still : ((registry.report (duplicateWarning call first)).lookup? call.name) =
          some first := bound
      rw [still, Option.isNone_some, Bool.false_and, Bool.or_false]
      rfl
    · rw [decide_eq_false (by simpa using same), Bool.and_false, Bool.or_false]
      rfl
  next => rfl

/-- A name is taken out by a call that is left out, unless it is bound already. -/
theorem isOpaque_apply (registry : Registry) (operation : Operation) (name : String) :
    (registry.apply operation).isOpaque name =
      (registry.isOpaque name || ((registry.lookup? name).isNone && operation.setsAside name)) := by
  have kept : (registry.isOpaque name || ((registry.lookup? name).isNone && false)) =
      registry.isOpaque name := by rw [Bool.and_false, Bool.or_false]
  cases operation with
  | insert call => exact (isOpaque_insert registry call name).trans kept.symm
  | recordOpaque call => exact isOpaque_recordOpaque registry call name
  | finish =>
      refine Eq.trans ?_ kept.symm
      rw [Registry.apply, isOpaque, opaqueNames_finish, isOpaque]
  | addAbstract | report | takeDiagnostics => exact kept.symm

/-- A name is marked just if its mark was there, or if it was free and the first call of the name is
one that was left out. -/
theorem isOpaque_run (registry : Registry) (operations : List Operation) (name : String) :
    (registry.run operations).isOpaque name =
      (registry.isOpaque name || ((registry.lookup? name).isNone &&
        (operations.find? (·.concerns name)).any (·.setsAside name))) := by
  induction operations generalizing registry with
  | nil => simp [run]
  | cons operation rest ih =>
      have free : ((registry.apply operation).lookup? name).isNone =
          ((registry.lookup? name).isNone && (operation.inserted? name).isNone) := by
        rw [← Option.not_isSome, ← (bound_apply registry operation name).isSome_eq,
          Option.not_isSome, Option.isNone_or]
      have first : ((operation :: rest).find? (·.concerns name)).any (·.setsAside name) =
          bif operation.concerns name then operation.setsAside name
          else (rest.find? (·.concerns name)).any (·.setsAside name) := by
        rw [List.find?_cons]
        cases operation.concerns name <;> rfl
      rw [run, List.foldl_cons, ← run, ih, isOpaque_apply, free, first, Operation.concerns]
      cases registry.isOpaque name <;> cases (registry.lookup? name).isNone <;>
        cases operation.inserted? name <;> cases operation.setsAside name <;> simp

/-! ## Both -/

/-- A name is out of the analysis just if the first call that has it was left out. -/
theorem isOpaque_run_empty (operations : List Operation) (name : String) :
    (Registry.empty.run operations).isOpaque name = true ↔
      ∃ call, operations.find? (·.concerns name) = some (.recordOpaque call) := by
  have nothing : Registry.empty.isOpaque name = false := rfl
  have free : (Registry.empty.lookup? name).isNone = true := rfl
  rw [isOpaque_run, nothing, free, Bool.false_or, Bool.true_and, Option.any_eq_true]
  constructor
  · rintro ⟨operation, first, aside⟩
    obtain ⟨call, rfl, -⟩ := Operation.exists_of_setsAside aside
    exact ⟨call, first⟩
  · rintro ⟨call, first⟩
    exact ⟨_, first, (Operation.concerns_recordOpaque name call).symm.trans (List.find?_some first)⟩

/-- Whatever operations a registry went through, a name stands for the first call of that name that
was entered; it is marked as left out just if the first call of the name was, and stays so; and a
name is bound and marked just if a call of it is entered after the first one was left out. -/
theorem bound_and_opaque_iff (operations : List Operation) (name : String) :
    let registry := Registry.empty.run operations
    Bound (operations.findSome? (·.inserted? name)) (registry.lookup? name) ∧
    (registry.isOpaque name = true ↔
      ∃ call, operations.find? (·.concerns name) = some (.recordOpaque call)) ∧
    (registry.isOpaque name = true → ∀ later, (registry.run later).isOpaque name = true) ∧
    ((registry.lookup? name).isSome = true ∧ registry.isOpaque name = true ↔
      ∃ before aside after call,
        operations = before ++ .recordOpaque aside :: after ∧ aside.name = some name ∧
        (∀ operation ∈ before, operation.concerns name = false) ∧
        .insert call ∈ after ∧ call.name = name) := by
  intro registry
  have bound : Bound (operations.findSome? (·.inserted? name)) (registry.lookup? name) :=
    bound_run .empty operations name
  have marked := isOpaque_run_empty operations name
  refine ⟨bound, marked, ?_, ?_⟩
  · intro mark later
    rw [isOpaque_run, mark, Bool.true_or]
  rw [marked, ← bound.isSome_eq, List.findSome?_isSome_iff]
  constructor
  · rintro ⟨⟨operation, mem, entered⟩, aside, first⟩
    obtain ⟨call, found⟩ := Option.isSome_iff_exists.mp entered
    obtain ⟨rfl, named⟩ := Operation.exists_of_inserted? found
    obtain ⟨about, before, after, rfl, others⟩ := List.find?_eq_some_iff_append.mp first
    have others : ∀ operation ∈ before, operation.concerns name = false := by simpa using others
    refine ⟨before, aside, after, call, rfl, ?_, others, ?_, named⟩
    · simpa [Operation.concerns_recordOpaque] using about
    · rcases List.mem_append.mp mem with earlier | later
      · have here := others _ earlier
        rw [Operation.concerns, entered, Bool.true_or] at here
        cases here
      · exact (List.mem_cons.mp later).resolve_left nofun
  · rintro ⟨before, aside, after, call, rfl, named, others, mem, same⟩
    refine ⟨⟨.insert call, List.mem_append_right _ (List.mem_cons_of_mem _ mem), ?_⟩, aside, ?_⟩
    · rw [Operation.inserted?, if_pos same, Option.isSome_some]
    · refine List.find?_eq_some_iff_append.mpr ⟨?_, before, after, rfl, ?_⟩
      · simpa [Operation.concerns_recordOpaque] using named
      · simpa using others

/-- A call of the name `Panel` that has no readable specification. -/
def computedPanel : OpaqueCall :=
  { name := some "Panel", kind := .component, site := ⟨0, 12, 43⟩, reason := .nonLiteralSpec }

/-- A component of the name `Panel`. -/
def literalPanel : FactoryCall :=
  { id := 0, kind := .component, name := "Panel", site := ⟨0, 53, 110⟩, declSite := ⟨0, 45, 50⟩,
    specSite := ⟨0, 71, 109⟩, exported := false, spec := .empty }

/-- A name that was marked first is bound all the same. -/
theorem bound_and_opaque_iff_panel :
    let registry := Registry.empty.run [.recordOpaque computedPanel, .insert literalPanel]
    registry.isOpaque "Panel" = true ∧ registry.idOf? "Panel" = some 0 ∧
      (registry.lookup? "Panel").isSome = true := by
  intro registry
  obtain ⟨-, -, -, both⟩ :=
    bound_and_opaque_iff [.recordOpaque computedPanel, .insert literalPanel] "Panel"
  obtain ⟨bound, marked⟩ := both.mpr
    ⟨[], computedPanel, [.insert literalPanel], literalPanel, rfl, rfl, by simp, by simp, rfl⟩
  exact ⟨marked, rfl, bound⟩

end Registry

end ClassFactory
