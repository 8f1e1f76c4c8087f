/-
Module: ClassFactory.Proofs.Factory.Specified
Purpose: Where the calls of a compilation come from. Each was recorded at a node of some file that binds
  a factory call to its name, with the specification that its properties give; all that came to it
  later are methods that are declared apart.
Main exports: Binds, SourceUnit.Specifies, SourceUnit.Performs, collected_keeps,
  ParsedFile.Specifies, exists_specifies
-/
import ClassFactory.Proofs.Factory.Operations
import ClassFactory.Proofs.Factory.Recording

namespace ClassFactory

open Script (Expr Item Property Node)

/-! ## Specifications in a file -/

/-- The node binds a value to a name, or to a dotted name. -/
inductive Binds : Node → String → Expr → Prop where
  | declarator (name : String) (span : Span) (value : Expr) :
      Binds (.declarator (.initialized (.name name span) value)) name value
  | name (name : String) (span : Span) (value : Expr) (place : Span) :
      Binds (.expr (.assign (.ident name span) value place)) name value
  | member {owner : Expr} {name : String} (property : String) (propertySpan span : Span)
      (value : Expr) (place : Span) (named : owner.qualifiedName? = some name) :
      Binds (.expr (.assign (.member owner property propertySpan span) value place))
        (name ++ "." ++ property) value

/-- The call is what is recorded where the node binds a factory call to its name; the properties are
those of the specification. -/
structure SourceUnit.Specifies (unit : SourceUnit) (node : Node) (properties : List Property)
    (call : FactoryCall) : Prop where
  binds : ∃ value callee args span place,
    Binds node call.name value ∧ value.unparen = .call callee args span ∧
      unit.factoryKind? callee = some call.kind ∧ call.site = unit.site span ∧
      specification? args = some (properties, place) ∧ call.specSite = unit.site place
  reads : buildSpec unit call.id call.kind properties = .ok call.spec

/-! ## What a node does to the registry -/

/-- What the registry may be made to do at the node. A call that is recorded there is specified
there. -/
inductive SourceUnit.Performs (unit : SourceUnit) (node : Node) : Registry.Operation → Prop where
  | report (found : FactoryUse) : Performs unit node (.report (arityError found))
  | leaveOut (call : OpaqueCall) : Performs unit node (.recordOpaque call)
  | declare (declaration : AbstractDecl) : Performs unit node (.addAbstract declaration)
  | insert {call : FactoryCall} {properties : List Property}
      (specifies : unit.Specifies node properties call) : Performs unit node (.insert call)

/-- One registry comes of the other by what is done at the node. -/
inductive SourceUnit.Runs (unit : SourceUnit) (node : Node) : Registry → Registry → Prop where
  | done (registry : Registry) : Runs unit node registry registry
  | next {before middle : Registry} {operation : Registry.Operation}
      (runs : Runs unit node before middle) (performs : unit.Performs node operation) :
      Runs unit node before (middle.apply operation)

section Nodes

variable {unit : SourceUnit} {node : Node} {collection : Collection} {name : String} {value : Expr}

/-- What every operation keeps a run of them keeps. -/
theorem SourceUnit.Runs.keeps {holds : Registry → Prop} {before after : Registry}
    (runs : unit.Runs node before after)
    (step : ∀ registry operation, unit.Performs node operation → holds registry →
      holds (registry.apply operation)) (start : holds before) : holds after := by
  induction runs with
  | done => exact start
  | next _ performs ih => exact step _ _ performs ih

namespace Collection

/-- Recording a use is a run of operations at its node. -/
theorem record_runs {callee : Expr} {args : List Item} {span : Span} {kind : FactoryKind}
    (binds : Binds node name value) (isCall : value.unparen = .call callee args span)
    (creates : unit.factoryKind? callee = some kind) (declSpan : Span) :
    unit.Runs node collection.registry
      (collection.record unit name declSpan ⟨kind, args, unit.site span⟩).registry := by
  unfold Collection.record
  generalize started : (if args.length = 1 then collection
    else collection.update (·.report (arityError ⟨kind, args, unit.site span⟩))) = start
  have runs : unit.Runs node collection.registry start.registry := by
    rw [← started]
    split
    · exact .done _
    · exact .next (.done _) (.report _)
  dsimp only
  split
  · exact .next runs (.leaveOut _)
  next properties place specified =>
    split
    · exact .next runs (.leaveOut _)
    next spec built =>
      refine .next runs (.insert ⟨?_, built⟩)
      exact ⟨value, callee, args, span, place, binds, isCall, creates, rfl, specified, rfl⟩

/-- Binding a value is a run of operations at its node. -/
theorem bind_runs (binds : Binds node name value) (declSpan : Span) :
    unit.Runs node collection.registry (collection.bind unit name declSpan value).registry := by
  unfold Collection.bind
  split
  next callee args span isCall =>
    split
    next kind creates =>
      let marked : Collection :=
        { collection with boundCalls := span.start :: collection.boundCalls }
      have runs : unit.Runs node marked.registry
          (marked.record unit name declSpan ⟨kind, args, unit.site span⟩).registry :=
        record_runs binds isCall creates declSpan
      exact runs
    · exact .done _
  · exact .done _

/-- Whatever is done at a node is a run of operations. -/
theorem enterNode_runs (node : Node) :
    unit.Runs node collection.registry (collection.enterNode unit node).registry := by
  unfold Collection.enterNode
  split
  · unfold Collection.enterStmt
    split
    · exact .done _
    · split
      · exact .next (.done _) (.declare _)
      · exact .done _
    · exact .done _
  · exact bind_runs (.declarator _ _ _) _
  · unfold Collection.enterExpr
    split
    · exact bind_runs (.name _ _ _ _) _
    · split
      next named => exact bind_runs (.member _ _ _ _ _ named) _
      · exact .done _
    · split
      · exact .done _
      · split
        · exact .next (.done _) (.leaveOut _)
        · exact .done _
    · exact .done _
  · exact .done _

end Collection

end Nodes

/-- What everything that is done at the nodes of some programs keeps holds once they are read. -/
theorem collected_keeps {options : Options} {files : List ParsedFile} {holds : Registry → Prop}
    (start : holds Registry.empty)
    (step : ∀ parsed ∈ files, ∀ node ∈ parsed.program.nodes, ∀ registry operation,
      (parsed.unit options).Performs node operation → holds registry →
        holds (registry.apply operation)) :
    holds (files.foldl (fun registry parsed =>
      collectProgram options parsed.file parsed.text parsed.program registry) Registry.empty) := by
  apply List.foldlRecOn files _ (motive := holds) start
  intro registry before parsed isFile
  apply List.foldlRecOn parsed.program.nodes _
    (motive := fun state : Collection => holds state.registry) before
  intro collection before node isNode
  have runs : (parsed.unit options).Runs node collection.registry
      (collection.enterNode (parsed.unit options) node).registry :=
    Collection.enterNode_runs node
  exact runs.keeps (step parsed isFile node isNode) before

/-! ## Specifications in a compilation -/

/-- The call stands for a specification in the file: it was recorded at a node of the program, and
methods that are declared apart were added to it. -/
def ParsedFile.Specifies (options : Options) (parsed : ParsedFile) (properties : List Property)
    (call : FactoryCall) : Prop :=
  ∃ node ∈ parsed.program.nodes, ∃ collected declarations,
    (parsed.unit options).Specifies node properties collected ∧
      collected.DeclaresAll declarations call

/-- Recording a call adds no other one. -/
theorem Registry.mem_insert {registry : Registry} {call other : FactoryCall}
    (mem : other ∈ (registry.insert call).1.calls) : other ∈ registry.calls ∨ other = call := by
  unfold Registry.insert at mem
  split at mem
  · exact .inl mem
  · exact (List.mem_append.mp mem).imp_right List.mem_singleton.mp

/-- Every call of a compilation stands for a specification in one of its files. -/
theorem exists_specifies {options : Options} {files : List ParsedFile} {call : FactoryCall}
    (recorded : call ∈ (collectAll options files).calls) :
    ∃ parsed ∈ files, ∃ properties, parsed.Specifies options properties call := by
  let Known (registry : Registry) : Prop := ∀ call ∈ registry.calls,
    ∃ parsed ∈ files, ∃ node ∈ parsed.program.nodes, ∃ properties,
      (parsed.unit options).Specifies node properties call
  have known : Known (files.foldl (fun registry parsed =>
      collectProgram options parsed.file parsed.text parsed.program registry) Registry.empty) := by
    apply collected_keeps (fun call none => absurd none List.not_mem_nil)
    intro parsed isFile node isNode registry operation performs before
    cases performs with
    | report | leaveOut | declare => exact before
    | @insert added properties specifies =>
        intro call mem
        rcases Registry.mem_insert mem with earlier | rfl
        · exact before call earlier
        · exact ⟨parsed, isFile, node, isNode, properties, specifies⟩
  obtain ⟨collected, mem, declares⟩ := exists_left_of_forall₂
    (collected_wellFormed options files).indexed.finish_calls recorded
  obtain ⟨parsed, isFile, node, isNode, properties, specifies⟩ := known collected mem
  exact ⟨parsed, isFile, properties, node, isNode, collected, _, specifies, declares⟩

end ClassFactory
