/-
Module: ClassFactory.Proofs.Registry
Purpose: What holds of every registry that is collected from programs: calls are numbered by their
  position, names are bound once, and every member and static of a specification stands under its
  own name with a definition that the call owns.
Main exports: FactorySpec.WellFormed, Registry.Indexed, Registry.WellFormed, SourceUnit.Enters,
  collectAll_wellFormed
-/
import ClassFactory.Compilation
import ClassFactory.Proofs.Keyed

namespace ClassFactory

open Script (Expr Key Property)

/-- Members and statics stand under their own names, and the call of that number owns them. -/
structure FactorySpec.WellFormed (owner : Nat) (spec : FactorySpec) : Prop where
  members : spec.members.Sound fun name member =>
    member.name = name ∧ member.definition.owner = owner
  statics : spec.statics.Sound fun name entry =>
    entry.name = name ∧ entry.definition.owner = owner

/-- What every operation on a registry keeps. -/
structure Registry.WellFormed (registry : Registry) : Prop where
  /-- A call's number is its position. -/
  numbered : ∀ (index : Nat) (call : FactoryCall),
    registry.calls[index]? = some call → call.id = index
  named : (registry.calls.map FactoryCall.name).Nodup
  specs : ∀ call ∈ registry.calls, call.spec.WellFormed call.id

/-- What does not depend on the specifications: numbers and names stand for calls. -/
structure Registry.Indexed (registry : Registry) : Prop where
  /-- A call's number is its position. -/
  numbered : ∀ (index : Nat) (call : FactoryCall),
    registry.calls[index]? = some call → call.id = index
  named : (registry.calls.map FactoryCall.name).Nodup

namespace FactorySpec.WellFormed

variable {owner : Nat} {spec : FactorySpec}

theorem empty : FactorySpec.empty.WellFormed owner :=
  ⟨Keyed.Sound.empty, Keyed.Sound.empty⟩

/-- A member that is added stands under its own name and belongs to the call. -/
theorem addMember (h : spec.WellFormed owner) (name : String) (site : Site) (kind : MemberKind)
    (isPrivate : Bool) : (spec.addMember owner name site kind isPrivate).WellFormed owner :=
  ⟨h.members.insert ⟨rfl, rfl⟩, h.statics⟩

/-- A static that is added stands under its own name and belongs to the call. -/
theorem addStatic (h : spec.WellFormed owner) (name : String) (site : Site) (type : Ty) :
    (spec.addStatic owner name site type).WellFormed owner :=
  ⟨h.members, h.statics.insert ⟨rfl, rfl⟩⟩

end FactorySpec.WellFormed

/-- What every step of a run that may stop keeps holds of its result. -/
theorem foldlM_preserves {σ ι ε : Type} {step : σ → ι → Except ε σ} {holds : σ → Prop}
    (keeps : ∀ state item result, holds state → step state item = .ok result → holds result)
    {items : List ι} {state result : σ} (start : holds state)
    (run : items.foldlM step state = .ok result) : holds result := by
  induction items generalizing state with
  | nil =>
      simp only [List.foldlM_nil, pure, Except.pure, Except.ok.injEq] at run
      exact run ▸ start
  | cons item rest ih =>
      rw [List.foldlM_cons] at run
      cases next : step state item with
      | error reason => simp [next, bind, Except.bind] at run
      | ok middle =>
          simp only [next, bind, Except.bind] at run
          exact ih (keeps state item middle start next) run

/-! ## Reading a specification -/

/-- The one specification is the other with more statics. -/
inductive FactorySpec.AddsStatics (owner : Nat) (spec : FactorySpec) : FactorySpec → Prop where
  | done : AddsStatics owner spec spec
  | next {state : FactorySpec} (adds : AddsStatics owner spec state) (name : String) (site : Site)
      (type : Ty) : AddsStatics owner spec (state.addStatic owner name site type)

/-- What a property that is read makes of a specification. -/
inductive SourceUnit.Enters (unit : SourceUnit) (owner : Nat) (spec : FactorySpec) :
    Property → FactorySpec → Prop where
  | mixins {key : Key} {value : Expr} {span : Span} (named : key.name? = some "mixins")
      (entries : List MixinRef) :
      Enters unit owner spec (.entry key value span)
        { spec with mixins := spec.mixins ++ entries }
  | statics {key : Key} {value : Expr} {span : Span} (named : key.name? = some "statics")
      {result : FactorySpec} (adds : spec.AddsStatics owner result) :
      Enters unit owner spec (.entry key value span) result
  | propTypes {key : Key} {value : Expr} {span : Span} (named : key.name? = some "propTypes") :
      Enters unit owner spec (.entry key value span)
        { spec with propTypes := declaredProps? unit value.unparen }
  | displayName {key : Key} {value : Expr} {span : Span} (named : key.name? = some "displayName")
      (text : String) :
      Enters unit owner spec (.entry key value span) { spec with displayName := some text }
  /-- The props of a mixin and a computed display name say nothing. -/
  | ignored {key : Key} {value : Expr} {span : Span}
      (named : key.name? = some "propTypes" ∨ key.name? = some "displayName") :
      Enters unit owner spec (.entry key value span) spec
  | member {key : Key} {name : String} (value : Expr) (span : Span)
      (named : key.name? = some name) :
      Enters unit owner spec (.entry key value span)
        (enterMember unit owner spec name value.unparen span)

section Specifications

variable {unit : SourceUnit} {owner : Nat} {spec result : FactorySpec}

/-- Reading the mixins only adds to them. -/
theorem enterMixins_ok {value : Expr} (ok : enterMixins unit spec value = .ok result) :
    ∃ entries, result = { spec with mixins := spec.mixins ++ entries } := by
  unfold enterMixins at ok
  split at ok
  next items _ =>
    cases refs : items.mapM (mixinRef unit) with
    | error reason =>
        rw [refs] at ok
        cases ok
    | ok entries =>
        rw [refs] at ok
        cases ok
        exact ⟨entries, rfl⟩
  · cases ok

/-- Reading the statics only adds to them. -/
theorem enterStatics_ok {value : Expr} (ok : enterStatics unit owner spec value = .ok result) :
    spec.AddsStatics owner result := by
  unfold enterStatics at ok
  split at ok
  · refine foldlM_preserves ?_ .done ok
    intro state property next adds entered
    unfold enterStatic at entered
    split at entered
    · split at entered
      · cases entered
        exact .next adds _ _ _
      · cases entered
    · cases entered
  · cases ok

/-- A property that is read makes of a specification one of the things that properties can. -/
theorem enterProperty_ok {kind : FactoryKind} {property : Property}
    (ok : enterProperty unit owner kind spec property = .ok result) :
    unit.Enters owner spec property result := by
  unfold enterProperty at ok
  split at ok
  · cases ok
  · dsimp only at ok
    split at ok
    next => cases ok
    next named =>
      obtain ⟨entries, rfl⟩ := enterMixins_ok ok
      exact .mixins named entries
    next named => exact .statics named (enterStatics_ok ok)
    next named =>
      split at ok
      · cases ok
        exact .propTypes named
      · cases ok
        exact .ignored (.inl named)
    next named =>
      split at ok
      · cases ok
        exact .displayName named _
      · cases ok
        exact .ignored (.inr named)
    next named =>
      cases ok
      exact .member _ _ named

/-! ## Specifications that are well formed -/

/-- Statics keep a specification well-formed. -/
theorem FactorySpec.AddsStatics.wellFormed (adds : spec.AddsStatics owner result)
    (h : spec.WellFormed owner) : result.WellFormed owner := by
  induction adds with
  | done => exact h
  | next _ name site type ih => exact ih.addStatic name site type

/-- The hints that a member gives keep a specification well-formed. -/
theorem enterHints_wellFormed (h : spec.WellFormed owner) (name : String) (doc : DocBlock)
    (value : Expr) (span : Span) : (enterHints unit spec name doc value span).WellFormed owner := by
  unfold enterHints
  split
  · split
    · exact ⟨h.members, h.statics⟩
    · exact h
  · exact ⟨h.members, h.statics⟩
  · exact h

/-- Whatever a property makes of a specification is well-formed. -/
theorem SourceUnit.Enters.wellFormed {property : Property}
    (enters : unit.Enters owner spec property result) (h : spec.WellFormed owner) :
    result.WellFormed owner := by
  cases enters with
  | statics _ adds => exact adds.wellFormed h
  | member value span => exact (enterHints_wellFormed h _ _ _ _).addMember _ _ _ _
  | ignored => exact h
  | mixins | propTypes | displayName => exact ⟨h.members, h.statics⟩

/-- A specification that was read is well formed. -/
theorem buildSpec_wellFormed {kind : FactoryKind} {properties : List Property}
    (ok : buildSpec unit owner kind properties = .ok result) : result.WellFormed owner :=
  foldlM_preserves (fun _ _ _ h entered => (enterProperty_ok entered).wellFormed h) .empty ok

end Specifications

namespace Registry

variable {registry : Registry}

theorem WellFormed.empty : Registry.empty.WellFormed :=
  ⟨by simp [Registry.empty], by simp [Registry.empty], by simp [Registry.empty]⟩

/-- Only the calls matter. -/
theorem WellFormed.of_calls {other : Registry} (h : registry.WellFormed)
    (same : other.calls = registry.calls) : other.WellFormed :=
  ⟨same ▸ h.numbered, same ▸ h.named, same ▸ h.specs⟩

/-- What stands under a number is a call of the registry. -/
theorem mem_of_get? {id : Nat} {call : FactoryCall} (found : registry.get? id = some call) :
    call ∈ registry.calls :=
  List.mem_of_getElem? found

/-- What is bound to a name is a call of the registry. -/
theorem mem_of_lookup? {name : String} {call : FactoryCall}
    (found : registry.lookup? name = some call) : call ∈ registry.calls :=
  List.mem_of_find?_eq_some found

/-- A call is bound to its own name only. -/
theorem name_of_lookup? {name : String} {call : FactoryCall}
    (found : registry.lookup? name = some call) : call.name = name := by
  simpa using List.find?_some found

namespace Indexed

variable {call : FactoryCall}

theorem empty : Registry.empty.Indexed := ⟨by simp [Registry.empty], by simp [Registry.empty]⟩

theorem of_calls {other : Registry} (h : registry.Indexed) (same : other.calls = registry.calls) :
    other.Indexed :=
  ⟨same ▸ h.numbered, same ▸ h.named⟩

/-- A call is found under its number. -/
theorem get?_id (h : registry.Indexed) (mem : call ∈ registry.calls) :
    registry.get? call.id = some call := by
  obtain ⟨index, found⟩ := List.getElem?_of_mem mem
  rw [h.numbered index call found]
  exact found

/-- A call stands under its own number. -/
theorem id_of_get? (h : registry.Indexed) {id : Nat} (found : registry.get? id = some call) :
    call.id = id :=
  h.numbered id call found

/-- The numbers of the calls are those of their positions. -/
theorem ids_eq_range (h : registry.Indexed) :
    registry.calls.map FactoryCall.id = List.range registry.calls.length := by
  refine List.ext_getElem (by simp) ?_
  intro index inCalls _
  rw [List.getElem_map, List.getElem_range]
  exact h.numbered index _ (List.getElem?_eq_getElem (by simpa using inCalls))

/-- Numbers tell calls apart. -/
theorem ids_nodup (h : registry.Indexed) : (registry.calls.map FactoryCall.id).Nodup := by
  rw [h.ids_eq_range]
  exact List.nodup_range

/-- Components are numbered in order. -/
theorem pairwise_components (h : registry.Indexed) :
    registry.components.Pairwise (·.id < ·.id) := by
  refine List.Pairwise.filter _ (List.pairwise_map.mp ?_)
  rw [h.ids_eq_range]
  exact List.pairwise_lt_range

/-- The name of a call stands for it. -/
theorem lookup?_name (h : registry.Indexed) (mem : call ∈ registry.calls) :
    registry.lookup? call.name = some call := by
  cases found : registry.lookup? call.name with
  | none =>
      have other := List.find?_eq_none.mp found call mem
      simp at other
  | some other =>
      have same : other = call :=
        List.inj_on_of_nodup_map h.named (mem_of_lookup? found) mem (name_of_lookup? found)
      rw [same]

/-- Recording a call under the next number keeps numbers and names in order. -/
theorem insert (h : registry.Indexed) (next : call.id = registry.nextId) :
    (registry.insert call).1.Indexed := by
  unfold Registry.insert
  split
  · exact h.of_calls rfl
  · rename_i unbound
    have fresh : call.name ∉ registry.calls.map FactoryCall.name := by
      intro mem
      obtain ⟨other, otherMem, same⟩ := List.mem_map.mp mem
      exact (List.find?_eq_none.mp unbound) other otherMem (by simpa using same)
    constructor
    · intro index other found
      rcases Nat.lt_or_ge index registry.calls.length with earlier | later
      · exact h.numbered index other (by rwa [List.getElem?_append_left earlier] at found)
      · rw [List.getElem?_append_right later] at found
        rw [List.getElem?_singleton, Option.ite_none_right_eq_some] at found
        obtain ⟨here, same⟩ := found
        rw [← Option.some.inj same, next, Registry.nextId]
        omega
    · rw [List.map_append, List.nodup_append]
      refine ⟨h.named, by simp, ?_⟩
      rintro name mem _ here rfl
      exact fresh (by simpa [List.mem_singleton.mp here] using mem)

/-- A change of calls that keeps their numbers and names keeps both in order. -/
theorem map (h : registry.Indexed) (change : FactoryCall → FactoryCall)
    (ids : ∀ call, (change call).id = call.id) (names : ∀ call, (change call).name = call.name)
    {other : Registry} (same : other.calls = registry.calls.map change) : other.Indexed where
  numbered := by
    intro index call found
    rw [same, List.getElem?_map, Option.map_eq_some_iff] at found
    obtain ⟨old, oldFound, rfl⟩ := found
    rw [ids]
    exact h.numbered index old oldFound
  named := by
    have unchanged : other.calls.map FactoryCall.name = registry.calls.map FactoryCall.name := by
      rw [same, List.map_map]
      exact List.map_congr_left fun call _ => names call
    rw [unchanged]
    exact h.named

end Indexed

theorem WellFormed.indexed (h : registry.WellFormed) : registry.Indexed := ⟨h.numbered, h.named⟩

/-- In a well-formed registry a call is found under its number. -/
theorem WellFormed.get?_id (h : registry.WellFormed) {call : FactoryCall}
    (mem : call ∈ registry.calls) : registry.get? call.id = some call :=
  h.indexed.get?_id mem

theorem WellFormed.id_of_get? (h : registry.WellFormed) {id : Nat} {call : FactoryCall}
    (found : registry.get? id = some call) : call.id = id :=
  h.indexed.id_of_get? found

/-- In a well-formed registry numbers tell calls apart. -/
theorem WellFormed.ids_nodup (h : registry.WellFormed) :
    (registry.calls.map FactoryCall.id).Nodup :=
  h.indexed.ids_nodup

/-- In a well-formed registry the name of a call stands for it. -/
theorem WellFormed.lookup?_name (h : registry.WellFormed) {call : FactoryCall}
    (mem : call ∈ registry.calls) : registry.lookup? call.name = some call :=
  h.indexed.lookup?_name mem

/-- Recording a call under the next number keeps a registry well formed. -/
theorem WellFormed.insert (h : registry.WellFormed) {call : FactoryCall}
    (next : call.id = registry.nextId) (spec : call.spec.WellFormed call.id) :
    (registry.insert call).1.WellFormed := by
  have indexed := h.indexed.insert next
  refine ⟨indexed.numbered, indexed.named, ?_⟩
  unfold Registry.insert
  split
  · exact h.specs
  · intro other mem
    rcases List.mem_append.mp mem with earlier | here
    · exact h.specs other earlier
    · obtain rfl := List.mem_singleton.mp here
      exact spec

/-- A change of calls that keeps their numbers and names keeps a registry well formed. -/
theorem WellFormed.map (h : registry.WellFormed) (change : FactoryCall → FactoryCall)
    (ids : ∀ call, (change call).id = call.id) (names : ∀ call, (change call).name = call.name)
    (specs : ∀ call, call.spec.WellFormed call.id → (change call).spec.WellFormed call.id)
    {other : Registry} (same : other.calls = registry.calls.map change) : other.WellFormed where
  numbered := (h.indexed.map change ids names same).numbered
  named := (h.indexed.map change ids names same).named
  specs := by
    intro call mem
    rw [same] at mem
    obtain ⟨old, oldMem, rfl⟩ := List.mem_map.mp mem
    rw [ids]
    exact specs old (h.specs old oldMem)

theorem declareIn_id (declaration : AbstractDecl) (call : FactoryCall) :
    (declareIn declaration call).id = call.id := by
  unfold declareIn
  dsimp only
  split <;> rfl

theorem declareIn_name (declaration : AbstractDecl) (call : FactoryCall) :
    (declareIn declaration call).name = call.name := by
  unfold declareIn
  dsimp only
  split <;> rfl

/-- Declaring a member keeps the specification of a call well-formed. -/
theorem declareIn_wellFormed (declaration : AbstractDecl) (call : FactoryCall)
    (h : call.spec.WellFormed call.id) :
    (declareIn declaration call).spec.WellFormed call.id := by
  unfold declareIn
  dsimp only
  split
  · rename_i member found
    have fits := h.members.of_get? found
    exact ⟨h.members.insert fits, h.statics⟩
  · exact h.addMember _ _ _ _

/-- Attaching a declaration keeps a registry well-formed. -/
theorem WellFormed.attach (h : registry.WellFormed) (declaration : AbstractDecl) :
    (registry.attach declaration).WellFormed := by
  unfold Registry.attach
  split
  · rename_i owner _
    split
    · refine h.map (fun call => if call.id = owner.id then declareIn declaration call else call)
        ?_ ?_ ?_ rfl
      · intro call
        split
        · exact declareIn_id declaration call
        · rfl
      · intro call
        split
        · exact declareIn_name declaration call
        · rfl
      · intro call spec
        split
        · exact declareIn_wellFormed declaration call spec
        · exact spec
    · exact h
  · exact h

/-- Attaching the declarations that wait keeps a registry well formed. -/
theorem WellFormed.finish (h : registry.WellFormed) : registry.finish.WellFormed := by
  exact List.foldlRecOn registry.pending Registry.attach (h.of_calls rfl)
    fun _ keeps declaration _ => keeps.attach declaration

end Registry

namespace Collection

variable {unit : SourceUnit} {collection : Collection}

/-- Recording a use keeps a registry well-formed. -/
theorem record_wellFormed (h : collection.registry.WellFormed) (name : String) (declSpan : Span)
    (found : FactoryUse) : (collection.record unit name declSpan found).registry.WellFormed := by
  unfold Collection.record
  have reported : (if found.args.length = 1 then collection
      else collection.update (·.report (arityError found))).registry.WellFormed := by
    split
    · exact h
    · exact h.of_calls rfl
  dsimp only
  split
  · exact reported.of_calls rfl
  · split
    · exact reported.of_calls rfl
    · rename_i spec built
      exact reported.insert rfl (buildSpec_wellFormed built)

/-- Binding a value keeps a registry well-formed. -/
theorem bind_wellFormed (h : collection.registry.WellFormed) (name : String) (declSpan : Span)
    (value : Script.Expr) : (collection.bind unit name declSpan value).registry.WellFormed := by
  unfold Collection.bind
  split
  · split
    · refine record_wellFormed ?_ _ _ _
      exact h
    · exact h
  · exact h

/-- Whatever is done at a node keeps a registry well-formed. -/
theorem enterNode_wellFormed (h : collection.registry.WellFormed) (node : Script.Node) :
    (collection.enterNode unit node).registry.WellFormed := by
  unfold Collection.enterNode
  split
  · unfold Collection.enterStmt
    split
    · exact h
    · split
      · exact h.of_calls rfl
      · exact h
    · exact h
  · exact bind_wellFormed h _ _ _
  · unfold Collection.enterExpr
    split
    · exact bind_wellFormed h _ _ _
    · split
      · exact bind_wellFormed h _ _ _
      · exact h
    · split
      · exact h
      · split
        · exact h.of_calls rfl
        · exact h
    · exact h
  · exact h

end Collection

/-- Collecting a program keeps a registry well-formed. -/
theorem collectProgram_wellFormed {registry : Registry} (h : registry.WellFormed)
    (options : Options) (file : Nat) (source : String) (program : Script.Program) :
    (collectProgram options file source program registry).WellFormed := by
  exact List.foldlRecOn (motive := fun state : Collection => state.registry.WellFormed)
    program.nodes _ h fun _ keeps node _ => Collection.enterNode_wellFormed keeps node

/-- The calls of some programs, before methods that are declared apart are attached. -/
theorem collected_wellFormed (options : Options) (files : List ParsedFile) :
    (files.foldl (fun registry parsed =>
      collectProgram options parsed.file parsed.text parsed.program registry)
        Registry.empty).WellFormed :=
  List.foldlRecOn files _ Registry.WellFormed.empty
    fun _ keeps _ _ => collectProgram_wellFormed keeps _ _ _ _

/-- Whatever programs are collected, the registry that comes of it is well formed. -/
theorem collectAll_wellFormed (options : Options) (files : List ParsedFile) :
    (collectAll options files).WellFormed :=
  (collected_wellFormed options files).finish

end ClassFactory
