/-
Module: ClassFactory.Proofs.Factory.Recording
Purpose: What a collection records at each node of a program. A call that is bound is recorded where
  it is bound, and known from then on by where it begins; any other call is recorded at itself,
  unless one that begins there is bound already.
Main exports: SourceUnit.factoryCalls, SourceUnit.boundCalls, Registry.recorded,
  Collection.recordedCalls, Collection.foldl_recorded
-/
import ClassFactory.Compilation

namespace ClassFactory

open Script (Expr Item Property Key Binding Parameter Declarator Attribute Child Stmt Part Node
  Program Tag)

/-! ## Calls and records -/

/-- A factory call: what it creates, and where it stands. -/
abbrev CallPlace := FactoryKind × Span

/-- What the calls of a file are read with. -/
def ParsedFile.unit (options : Options) (parsed : ParsedFile) : SourceUnit :=
  { file := parsed.file, text := parsed.text.toList, comments := parsed.program.comments.toArray,
    options := options }

/-- The factory call that an expression is. -/
def SourceUnit.factoryCall? (unit : SourceUnit) : Expr → Option CallPlace
  | .call callee _ span => (unit.factoryKind? callee).map fun kind => (kind, span)
  | _ => none

/-- The factory call that a node is. -/
def SourceUnit.nodeCall? (unit : SourceUnit) : Node → Option CallPlace
  | .expr e => unit.factoryCall? e
  | _ => none

/-- The factory calls among nodes. -/
def SourceUnit.factoryCalls (unit : SourceUnit) (nodes : List Node) : List CallPlace :=
  nodes.filterMap unit.nodeCall?

/-- The factory call that a node binds to a name. -/
def SourceUnit.boundCall? (unit : SourceUnit) : Node → Option CallPlace
  | .declarator (.initialized (.name _ _) value) => unit.factoryCall? value.unparen
  | .expr (.assign (.ident _ _) value _) => unit.factoryCall? value.unparen
  | .expr (.assign (.member owner _ _ _) value _) =>
    if owner.qualifiedName?.isSome then unit.factoryCall? value.unparen else none
  | _ => none

/-- The factory calls that nodes bind to names. -/
def SourceUnit.boundCalls (unit : SourceUnit) (nodes : List Node) : List CallPlace :=
  nodes.filterMap unit.boundCall?

/-- The places of calls in a compilation. -/
def SourceUnit.places (unit : SourceUnit) (calls : List CallPlace) : List (FactoryKind × Site) :=
  calls.map fun call => (call.1, unit.site call.2)

/-- What a registry has recorded, the calls that were left out of the analysis included. -/
def Registry.recorded (registry : Registry) : List (FactoryKind × Site) :=
  registry.calls.map (fun call => (call.kind, call.site)) ++
    registry.opaqueCalls.map fun call => (call.kind, call.site)

/-! ## What the registry records -/

namespace Registry

/-- A call that is left out is recorded once, at its place. -/
theorem recorded_recordOpaque (registry : Registry) (call : OpaqueCall) :
    (registry.recordOpaque call).recorded = registry.recorded ++ [(call.kind, call.site)] := by
  simp [recorded, recordOpaque]

theorem recorded_report (registry : Registry) (problem : Diagnostic) :
    (registry.report problem).recorded = registry.recorded := rfl

/-- A call that is inserted is recorded, among the calls or, as a duplicate, among those left
out. -/
theorem recorded_insert (registry : Registry) (call : FactoryCall) :
    (registry.insert call).1.recorded.Perm (registry.recorded ++ [(call.kind, call.site)]) := by
  unfold insert
  split
  · rw [recorded_recordOpaque, recorded_report]
  · rw [recorded, recorded, List.map_append, List.append_assoc, List.append_assoc]
    exact List.perm_append_comm.append_left _

/-- Declarations are attached to recorded calls, which stay where they are. -/
theorem recorded_attach (registry : Registry) (declaration : AbstractDecl) :
    (registry.attach declaration).recorded = registry.recorded := by
  unfold attach
  split
  next owner found =>
    split
    · have kept : ∀ call : FactoryCall,
          (if call.id = owner.id then declareIn declaration call else call).kind = call.kind ∧
          (if call.id = owner.id then declareIn declaration call else call).site = call.site := by
        intro call
        split
        · unfold declareIn
          dsimp only
          split <;> exact ⟨rfl, rfl⟩
        · exact ⟨rfl, rfl⟩
      rw [recorded, recorded, List.map_map]
      congr 1
      apply List.map_congr_left
      intro call _
      exact Prod.ext (kept call).1 (kept call).2
    · rfl
  · rfl

/-- Finishing records nothing. -/
theorem recorded_finish (registry : Registry) : registry.finish.recorded = registry.recorded := by
  exact List.foldlRecOn (motive := fun later : Registry => later.recorded = registry.recorded)
    registry.pending attach rfl fun later same declaration _ =>
      (recorded_attach later declaration).trans same

end Registry

/-! ## What the collection records -/

namespace Collection

variable (unit : SourceUnit) (collection : Collection)

/-- Recording a use records it once, whatever becomes of it. -/
theorem record_recorded (name : String) (declSpan : Span) (found : FactoryUse) :
    (collection.record unit name declSpan found).registry.recorded.Perm
      (collection.registry.recorded ++ [(found.kind, found.site)]) ∧
    (collection.record unit name declSpan found).boundCalls = collection.boundCalls := by
  unfold record
  generalize started : (if found.args.length = 1 then collection
    else collection.update (·.report (arityError found))) = start
  have same : start.registry.recorded = collection.registry.recorded ∧
      start.boundCalls = collection.boundCalls := by
    rw [← started]
    split <;> exact ⟨rfl, rfl⟩
  rw [← same.1, ← same.2]
  dsimp only
  split
  · exact ⟨.of_eq (Registry.recorded_recordOpaque _ _), rfl⟩
  · split
    · exact ⟨.of_eq (Registry.recorded_recordOpaque _ _), rfl⟩
    · exact ⟨Registry.recorded_insert _ _, rfl⟩

/-- A call that is bound is recorded, and known by where it begins. -/
theorem bind_recorded (name : String) (declSpan : Span) (value : Expr) :
    (collection.bind unit name declSpan value).registry.recorded.Perm
      (collection.registry.recorded ++ unit.places (unit.factoryCall? value.unparen).toList) ∧
    (collection.bind unit name declSpan value).boundCalls =
      ((unit.factoryCall? value.unparen).toList.map fun call => call.2.start) ++
        collection.boundCalls := by
  unfold bind
  cases value.unparen with
  | call callee args span =>
      dsimp only [SourceUnit.factoryCall?]
      cases unit.factoryKind? callee with
      | none => simp [SourceUnit.places]
      | some kind => exact record_recorded unit { collection with
          boundCalls := span.start :: collection.boundCalls } name declSpan _
  | _ => simp [SourceUnit.factoryCall?, SourceUnit.places]

/-- The call that a node is, unless a call that begins there is bound already. -/
def freeCall (bound : List Nat) (node : Node) : List CallPlace :=
  (unit.nodeCall? node).toList.filter fun call => !bound.contains call.2.start

/-- What a node records by itself: the call that it binds, and the call that it is. -/
def nodeCalls (bound : List Nat) (node : Node) : List CallPlace :=
  (unit.boundCall? node).toList ++ freeCall unit bound node

/-- Nothing changes at a node that neither binds a call nor is one. -/
theorem unchanged {next : Collection} {node : Node}
    (same : next.registry.recorded = collection.registry.recorded ∧
      next.boundCalls = collection.boundCalls)
    (binds : unit.boundCall? node = none) (calls : unit.nodeCall? node = none) :
    next.registry.recorded.Perm (collection.registry.recorded ++
      unit.places (nodeCalls unit collection.boundCalls node)) ∧
    next.boundCalls =
      ((unit.boundCall? node).toList.map fun call => call.2.start) ++ collection.boundCalls := by
  rw [same.1, same.2, nodeCalls, freeCall, binds, calls]
  exact ⟨.of_eq (List.append_nil _).symm, rfl⟩

/-- A node that binds a value records the call that it binds. -/
theorem binds {node : Node} (name : String) (declSpan : Span) {value : Expr}
    (binds : unit.boundCall? node = unit.factoryCall? value.unparen)
    (calls : unit.nodeCall? node = none) :
    (collection.bind unit name declSpan value).registry.recorded.Perm
      (collection.registry.recorded ++
        unit.places (nodeCalls unit collection.boundCalls node)) ∧
    (collection.bind unit name declSpan value).boundCalls =
      ((unit.boundCall? node).toList.map fun call => call.2.start) ++ collection.boundCalls := by
  have recorded := bind_recorded unit collection name declSpan value
  rw [← binds] at recorded
  rw [nodeCalls, freeCall, calls]
  simpa using recorded

/-- What one node records: the call that it binds, or the call that it is, unless one that begins
there is bound already. -/
theorem enterNode_recorded (node : Node) :
    (collection.enterNode unit node).registry.recorded.Perm (collection.registry.recorded ++
      unit.places (nodeCalls unit collection.boundCalls node)) ∧
    (collection.enterNode unit node).boundCalls =
      ((unit.boundCall? node).toList.map fun call => call.2.start) ++ collection.boundCalls := by
  cases node with
  | stmt s =>
      apply unchanged unit collection _ rfl rfl
      unfold enterNode enterStmt
      dsimp only
      split
      · exact ⟨rfl, rfl⟩
      · split <;> exact ⟨rfl, rfl⟩
      · exact ⟨rfl, rfl⟩
  | declarator d =>
      cases d with
      | bare binding => exact unchanged unit collection ⟨rfl, rfl⟩ rfl rfl
      | initialized binding value =>
          cases binding with
          | name bound span => exact binds unit collection bound span rfl rfl
          | pattern parts => exact unchanged unit collection ⟨rfl, rfl⟩ rfl rfl
  | tag t => exact unchanged unit collection ⟨rfl, rfl⟩ rfl rfl
  | expr e =>
      cases e with
      | call callee args span =>
          unfold enterNode enterExpr
          dsimp only
          cases creates : unit.factoryKind? callee with
          | none =>
              apply unchanged unit collection _ rfl (by
                simp [SourceUnit.nodeCall?, SourceUnit.factoryCall?, creates])
              split <;> exact ⟨rfl, rfl⟩
          | some kind =>
              simp only [nodeCalls, freeCall, SourceUnit.boundCall?, SourceUnit.nodeCall?,
                SourceUnit.factoryCall?, creates, Option.map_some, Option.toList_some,
                Option.toList_none, List.nil_append, List.map_nil]
              by_cases bound : span.start ∈ collection.boundCalls
              · simp [bound, SourceUnit.places]
              · have recorded := Registry.recorded_recordOpaque collection.registry
                  { name := none, kind := kind, site := unit.site span, reason := .unbound }
                simpa [bound, SourceUnit.places, List.filter_cons, update] using
                  List.Perm.of_eq recorded
      | assign target value place =>
          cases target with
          | ident name span => exact binds unit collection name span rfl rfl
          | member owner property propertySpan span =>
              cases named : owner.qualifiedName? with
              | none =>
                  apply unchanged unit collection _ (by simp [SourceUnit.boundCall?, named]) rfl
                  simp [enterNode, enterExpr, named]
              | some name =>
                  simp only [enterNode, enterExpr, named]
                  exact binds unit collection _ span (by simp [SourceUnit.boundCall?, named]) rfl
          | _ => exact unchanged unit collection ⟨rfl, rfl⟩ rfl rfl
      | _ => exact unchanged unit collection ⟨rfl, rfl⟩ rfl rfl

/-- What nodes record one after another, where calls that begin in the given places are bound. -/
def recordedCalls : List Nat → List Node → List CallPlace
  | _, [] => []
  | bound, node :: rest =>
    nodeCalls unit bound node ++
      recordedCalls (((unit.boundCall? node).toList.map fun call => call.2.start) ++ bound) rest

/-- Entering nodes one after another records the calls that are not skipped, each once. -/
theorem foldl_recorded (nodes : List Node) :
    (nodes.foldl (enterNode unit) collection).registry.recorded.Perm
      (collection.registry.recorded ++
        unit.places (recordedCalls unit collection.boundCalls nodes)) := by
  induction nodes generalizing collection with
  | nil => exact .of_eq (List.append_nil _).symm
  | cons node rest ih =>
      have first := enterNode_recorded unit collection node
      refine (ih (collection.enterNode unit node)).trans ?_
      rw [first.2, recordedCalls, SourceUnit.places, SourceUnit.places, List.map_append,
        ← List.append_assoc]
      exact first.1.append_right _

end Collection

end ClassFactory
