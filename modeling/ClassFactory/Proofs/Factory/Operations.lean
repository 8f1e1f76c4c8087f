/-
Module: ClassFactory.Proofs.Factory.Operations
Purpose: A registry as what a sequence of operations makes of it. Numbers and names stand for calls
  throughout, and a call that is recorded stays what it is: finishing alone changes calls, and only by
  the methods that it declares in mixins.
Main exports: Registry.Operation, Registry.run, FactoryCall.Declares, FactoryCall.Alike,
  Registry.finish_calls, Registry.Insertion, Registry.run_orderly
-/
import ClassFactory.Proofs.Correspondence
import ClassFactory.Proofs.Registry

namespace ClassFactory

/-! ## Operations -/

namespace Registry

/-- An operation on a registry. -/
inductive Operation where
  | insert (call : FactoryCall)
  | recordOpaque (call : OpaqueCall)
  | addAbstract (declaration : AbstractDecl)
  | report (diagnostic : Diagnostic)
  | finish
  | takeDiagnostics

/-- The registry after an operation. -/
def apply (registry : Registry) : Operation → Registry
  | .insert call => (registry.insert call).1
  | .recordOpaque call => registry.recordOpaque call
  | .addAbstract declaration => registry.addAbstract declaration
  | .report diagnostic => registry.report diagnostic
  | .finish => registry.finish
  | .takeDiagnostics => registry.takeDiagnostics.2

/-- The registry after operations, one after another. -/
def run (registry : Registry) (operations : List Operation) : Registry :=
  operations.foldl apply registry

/-- Every call that is inserted carries the number that is next. -/
def Numbered : Registry → List Operation → Prop
  | _, [] => True
  | registry, operation :: rest =>
    (∀ call, operation = .insert call → call.id = registry.nextId) ∧
      Numbered (registry.apply operation) rest

end Registry

/-! ## Declared methods -/

/-- How a declaration changes the call of the mixin that it names: a method is declared under a name
that was free, or a method without a signature takes the declared one. -/
inductive FactoryCall.Declares (declaration : AbstractDecl) : FactoryCall → FactoryCall → Prop where
  | adds {call : FactoryCall} (fresh : declaration.name ∉ call.spec.members.keys) :
      Declares declaration call
        { call with
          spec :=
            { call.spec with
              members :=
                ⟨call.spec.members.entries ++
                  [(declaration.name,
                    { definition := ⟨call.id, call.spec.definitionCount⟩, name := declaration.name,
                      site := declaration.site,
                      kind := .declared declaration.doc.abstractSignature,
                      isPrivate := declaration.doc.isPrivate })]⟩
              definitionCount := call.spec.definitionCount + 1 } }
  | fills {call : FactoryCall} {before after : List (String × SpecMember)} {member : SpecMember}
      {arity : Nat} {functionSite : Site}
      (entries : call.spec.members.entries = before ++ (declaration.name, member) :: after)
      (first : declaration.name ∉ before.map Prod.fst)
      (unsigned : member.kind = .method none arity functionSite) :
      Declares declaration call
        { call with
          spec :=
            { call.spec with
              members :=
                ⟨before ++
                  (declaration.name,
                    { member with
                      kind := .method declaration.doc.abstractSignature arity functionSite }) ::
                    after⟩ } }
  | keeps {call : FactoryCall} {member : SpecMember}
      (found : call.spec.member? declaration.name = some member)
      (settled : ∀ arity functionSite, member.kind ≠ .method none arity functionSite) :
      Declares declaration call call

/-- The declarations change the call, one after another. -/
inductive FactoryCall.DeclaresAll : List AbstractDecl → FactoryCall → FactoryCall → Prop where
  | nil (call : FactoryCall) : DeclaresAll [] call call
  | cons {declaration : AbstractDecl} {rest : List AbstractDecl} {call middle last : FactoryCall}
      (here : call.Declares declaration middle) (later : DeclaresAll rest middle last) :
      DeclaresAll (declaration :: rest) call last

namespace Keyed

variable {α : Type} {name : String} {value : α} {entries : List (String × α)}

/-- A value that is found stands in the first entry of its name. -/
theorem exists_split_of_lookup (found : lookup name entries = some value) :
    ∃ before after, entries = before ++ (name, value) :: after ∧ name ∉ before.map Prod.fst := by
  induction entries with
  | nil => cases found
  | cons entry rest ih =>
      obtain ⟨key, old⟩ := entry
      by_cases same : key = name
      · subst same
        rw [lookup, if_pos rfl] at found
        cases found
        exact ⟨[], rest, rfl, List.not_mem_nil⟩
      · rw [lookup, if_neg same] at found
        obtain ⟨before, after, rfl, first⟩ := ih found
        refine ⟨(key, old) :: before, after, rfl, ?_⟩
        rw [List.map_cons, List.mem_cons, not_or]
        exact ⟨Ne.symm same, first⟩

/-- Writing replaces the value of the first entry of the name. -/
theorem write_split {before after : List (String × α)} {old : α}
    (first : name ∉ before.map Prod.fst) :
    write name value (before ++ (name, old) :: after) = before ++ (name, value) :: after := by
  induction before with
  | nil => rw [List.nil_append, write, if_pos rfl, List.nil_append]
  | cons entry rest ih =>
      obtain ⟨key, kept⟩ := entry
      rw [List.map_cons, List.mem_cons, not_or] at first
      rw [List.cons_append, write, if_neg (Ne.symm first.1), ih first.2, List.cons_append]

end Keyed

namespace FactoryCall

variable {declaration : AbstractDecl} {call changed : FactoryCall}

/-- Declaring a member adds it, fills its signature in or leaves the call as it is. -/
theorem declares_declareIn (declaration : AbstractDecl) (call : FactoryCall) :
    call.Declares declaration (Registry.declareIn declaration call) := by
  unfold Registry.declareIn
  dsimp only
  split
  next member found =>
    obtain ⟨before, after, entries, first⟩ := Keyed.exists_split_of_lookup found
    have written : ∀ value : SpecMember, call.spec.members.insert declaration.name value =
        ⟨before ++ (declaration.name, value) :: after⟩ := by
      intro value
      rw [Keyed.insert, entries, Keyed.write_split first]
    rw [written]
    unfold MemberKind.fillSignature
    split
    next arity functionSite unsigned => exact .fills entries first unsigned
    next kind settled =>
      have unchanged : (⟨before ++ (declaration.name, member) :: after⟩ : Keyed SpecMember) =
          call.spec.members := by rw [← entries]
      rw [unchanged]
      exact .keeps found settled
  next absent =>
    have fresh : declaration.name ∉ call.spec.members.keys := by
      rw [Keyed.mem_keys_iff]
      rintro ⟨member, found⟩
      rw [show call.spec.members.get? declaration.name = none from absent] at found
      cases found
    rw [FactorySpec.addMember, Keyed.insert, Keyed.write_of_notMem fresh]
    exact .adds fresh

/-- Declaring members one after another declares them all. -/
theorem declaresAll_foldl (declarations : List AbstractDecl) (call : FactoryCall) :
    DeclaresAll declarations call
      (declarations.foldl (fun call declaration => Registry.declareIn declaration call) call) := by
  induction declarations generalizing call with
  | nil => exact .nil call
  | cons declaration rest ih => exact .cons (declares_declareIn declaration call) (ih _)

/-- The calls differ at most in their specifications' members. -/
def Alike (call other : FactoryCall) : Prop :=
  ∃ members count, other =
    { call with spec := { call.spec with members := members, definitionCount := count } }

theorem Alike.refl (call : FactoryCall) : call.Alike call :=
  ⟨call.spec.members, call.spec.definitionCount, rfl⟩

theorem Alike.trans {other : FactoryCall} (first : call.Alike other) (second : other.Alike changed) :
    call.Alike changed := by
  obtain ⟨_, _, rfl⟩ := first
  obtain ⟨members, count, rfl⟩ := second
  exact ⟨members, count, rfl⟩

/-- A declaration changes nothing but the members of a call. -/
theorem Declares.alike (declares : call.Declares declaration changed) : call.Alike changed := by
  cases declares with
  | adds fresh => exact ⟨_, _, rfl⟩
  | fills entries first unsigned => exact ⟨_, call.spec.definitionCount, rfl⟩
  | keeps found settled => exact .refl call

/-- Declarations change nothing but the members of a call. -/
theorem DeclaresAll.alike {declarations : List AbstractDecl}
    (declares : DeclaresAll declarations call changed) : call.Alike changed := by
  induction declares with
  | nil call => exact .refl call
  | cons here _ ih => exact here.alike.trans ih

/-- The declaration names the call, which creates a mixin. -/
def Owns (call : FactoryCall) (declaration : AbstractDecl) : Bool :=
  call.isMixin && declaration.owner = call.name

/-- Which declarations a call owns does not change with its members. -/
theorem owns_declareIn (declaration other : AbstractDecl) (call : FactoryCall) :
    (Registry.declareIn declaration call).Owns other = call.Owns other := by
  obtain ⟨members, count, changed⟩ := (declares_declareIn declaration call).alike
  rw [changed]
  rfl

end FactoryCall

/-! ## Finishing -/

namespace Registry

variable {registry : Registry}

/-- A declaration changes the mixin that it names and no other call. -/
theorem Indexed.attach_calls (h : registry.Indexed) (declaration : AbstractDecl) :
    (registry.attach declaration).calls = registry.calls.map fun call =>
      if call.Owns declaration then declareIn declaration call else call := by
  have others : (∀ call ∈ registry.calls, call.Owns declaration = false) →
      registry.calls = registry.calls.map fun call =>
        if call.Owns declaration then declareIn declaration call else call := by
    intro none
    have same : ∀ call ∈ registry.calls,
        (if call.Owns declaration then declareIn declaration call else call) = id call := by
      intro call mem
      rw [none call mem, if_neg Bool.false_ne_true, id]
    rw [List.map_congr_left same, List.map_id]
  unfold attach
  split
  next owner found =>
    have recorded := mem_of_lookup? found
    have named := name_of_lookup? found
    have unique : ∀ call ∈ registry.calls, declaration.owner = call.name → call = owner := by
      intro call mem same
      have looked := h.lookup?_name mem
      rw [← same, found] at looked
      exact (Option.some.inj looked).symm
    split
    next isMixin =>
      apply List.map_congr_left
      intro call mem
      have same : call.id = owner.id ↔ call.Owns declaration = true := by
        simp only [FactoryCall.Owns, Bool.and_eq_true, decide_eq_true_eq]
        constructor
        · intro sameId
          have here := h.get?_id mem
          rw [sameId, h.get?_id recorded] at here
          cases here
          exact ⟨isMixin, named.symm⟩
        · rintro ⟨-, sameName⟩
          rw [unique call mem sameName]
      by_cases owns : call.Owns declaration = true
      · rw [if_pos (same.mpr owns), if_pos owns]
      · rw [if_neg fun sameId => owns (same.mp sameId), if_neg owns]
    next notMixin =>
      apply others
      intro call mem
      rw [Bool.eq_false_iff]
      intro owns
      simp only [FactoryCall.Owns, Bool.and_eq_true, decide_eq_true_eq] at owns
      exact notMixin (unique call mem owns.2 ▸ owns.1)
  next unbound =>
    apply others
    intro call mem
    rw [Bool.eq_false_iff]
    intro owns
    simp only [FactoryCall.Owns, Bool.and_eq_true, decide_eq_true_eq] at owns
    rw [owns.2, h.lookup?_name mem] at unbound
    cases unbound

/-- Attaching a declaration keeps numbers and names. -/
theorem Indexed.attach (h : registry.Indexed) (declaration : AbstractDecl) :
    (registry.attach declaration).Indexed := by
  apply h.map _ _ _ (h.attach_calls declaration)
  · intro call
    split
    · exact declareIn_id declaration call
    · rfl
  · intro call
    split
    · exact declareIn_name declaration call
    · rfl

/-- Attaching declarations changes each call by those that it owns. -/
theorem Indexed.attachAll_calls (h : registry.Indexed) (declarations : List AbstractDecl) :
    (declarations.foldl Registry.attach registry).calls = registry.calls.map fun call =>
      (declarations.filter call.Owns).foldl (fun call declaration => declareIn declaration call)
        call := by
  induction declarations generalizing registry with
  | nil => simp
  | cons declaration rest ih =>
      rw [List.foldl_cons, ih (h.attach declaration), h.attach_calls declaration, List.map_map]
      apply List.map_congr_left
      intro call _
      dsimp only [Function.comp_apply]
      by_cases owns : call.Owns declaration = true
      · have same : (declareIn declaration call).Owns = call.Owns :=
          funext fun other => call.owns_declareIn declaration other
        rw [if_pos owns, List.filter_cons_of_pos owns, List.foldl_cons, same]
      · rw [if_neg owns, List.filter_cons_of_neg owns]

/-- Finishing makes every call's own declarations to it. -/
theorem Indexed.finish_calls (h : registry.Indexed) :
    List.Forall₂
      (fun call finished => call.DeclaresAll (registry.pending.filter call.Owns) finished)
      registry.calls registry.finish.calls := by
  have waiting : ({ registry with pending := [] } : Registry).Indexed := h.of_calls rfl
  rw [Registry.finish, waiting.attachAll_calls, List.forall₂_map_right_iff, List.forall₂_same]
  intro call _
  exact FactoryCall.declaresAll_foldl _ call

/-! ## Runs -/

/-- An operation keeps numbers and names, as long as a call it records has the next number. -/
theorem Indexed.apply (h : registry.Indexed) {operation : Operation}
    (numbered : ∀ call, operation = .insert call → call.id = registry.nextId) :
    (registry.apply operation).Indexed := by
  cases operation with
  | insert call => exact h.insert (numbered call rfl)
  | finish =>
      exact List.foldlRecOn registry.pending Registry.attach (h.of_calls rfl)
        fun _ keeps declaration _ => keeps.attach declaration
  | recordOpaque | addAbstract | report | takeDiagnostics => exact h.of_calls rfl

/-- A run of operations keeps numbers and names. -/
theorem Indexed.run {operations : List Operation} (h : registry.Indexed)
    (numbered : Numbered registry operations) : (registry.run operations).Indexed := by
  induction operations generalizing registry with
  | nil => exact h
  | cons operation rest ih => exact ih (h.apply numbered.1) numbered.2

/-- A name stands for a number just if the call there has that name. -/
theorem Indexed.idOf?_eq_some_iff (h : registry.Indexed) {name : String} {index : Nat} :
    registry.idOf? name = some index ↔
      ∃ call, registry.calls[index]? = some call ∧ call.name = name := by
  unfold idOf?
  constructor
  · intro found
    obtain ⟨call, looked, rfl⟩ := Option.map_eq_some_iff.mp found
    exact ⟨call, h.get?_id (mem_of_lookup? looked), name_of_lookup? looked⟩
  · rintro ⟨call, found, rfl⟩
    rw [h.lookup?_name (List.mem_of_getElem? found), Option.map_some, h.numbered index call found]

/-- No operation but finishing changes a recorded call. -/
theorem calls_prefix_apply (registry : Registry) {operation : Operation}
    (other : operation ≠ .finish) : registry.calls <+: (registry.apply operation).calls := by
  cases operation with
  | insert call =>
      change registry.calls <+: (registry.insert call).1.calls
      unfold Registry.insert
      split
      · exact List.prefix_refl _
      · exact List.prefix_append _ _
  | finish => exact absurd rfl other
  | recordOpaque | addAbstract | report | takeDiagnostics => exact List.prefix_refl _

/-- What inserting a call makes of a registry, and the number that it gives. -/
inductive Insertion (registry : Registry) (call : FactoryCall) : Registry × Option Nat → Prop where
  | recorded (unbound : registry.idOf? call.name = none) :
      Insertion registry call
        ({ registry with calls := registry.calls ++ [call] }, some registry.nextId)
  | leftOut {first : FactoryCall} {warning : Diagnostic}
      (bound : registry.lookup? call.name = some first)
      (code : warning.code = .duplicateFactory) (severity : warning.severity = .warning)
      (site : warning.site = call.declSite)
      (related : warning.related = [⟨"first bound here", first.declSite⟩]) :
      Insertion registry call
        ({ registry with
            diagnostics := registry.diagnostics ++ [warning]
            opaqueCalls := registry.opaqueCalls ++
              [⟨some call.name, call.kind, call.site, .duplicate⟩] },
          none)

/-- Recording a call enters it, or reports that its name is taken. -/
theorem insertion_insert (registry : Registry) {call : FactoryCall}
    (next : call.id = registry.nextId) : Insertion registry call (registry.insert call) := by
  unfold Registry.insert
  split
  next first bound =>
    have apart : (registry.report (duplicateWarning call first)).lookup? call.name = some first :=
      bound
    unfold recordOpaque
    dsimp only
    rw [apart, Option.isSome_some, if_pos rfl]
    exact .leftOut bound rfl rfl rfl rfl
  next unbound =>
    rw [next]
    exact .recorded (by rw [idOf?, unbound, Option.map_none])

/-- Whatever operations a registry went through, a call's number is its position, names differ and
stand for the calls that have them; inserting records a call just if its name is free and otherwise
says where the name was bound first; and a recorded call never changes, but that finishing declares
methods in mixins. -/
theorem run_orderly (operations : List Operation) (numbered : Numbered .empty operations) :
    let registry := Registry.empty.run operations
    (∀ (index : Nat) (call : FactoryCall), registry.calls[index]? = some call → call.id = index) ∧
    (registry.calls.map FactoryCall.name).Nodup ∧
    (∀ name index, registry.idOf? name = some index ↔
      ∃ call : FactoryCall, registry.calls[index]? = some call ∧ call.name = name) ∧
    (∀ call : FactoryCall, call.id = registry.nextId →
      Insertion registry call (registry.insert call)) ∧
    (∀ operation, operation ≠ .finish → registry.calls <+: (registry.apply operation).calls) ∧
    List.Forall₂
      (fun call finished => call.DeclaresAll (registry.pending.filter call.Owns) finished)
      registry.calls registry.finish.calls := by
  intro registry
  have indexed : registry.Indexed := Indexed.empty.run numbered
  exact ⟨indexed.numbered, indexed.named, fun _ _ => indexed.idOf?_eq_some_iff,
    fun _ next => registry.insertion_insert next, fun _ other => registry.calls_prefix_apply other,
    indexed.finish_calls⟩

/-- A method of `Sortable` whose signature is declared before the mixin is recorded. -/
def sortableCompare : AbstractDecl :=
  { owner := "Sortable", name := "compare", site := ⟨0, 30, 46⟩,
    doc := { DocBlock.empty with returns := some .number } }

/-- A method of `Sortable` that its specification leaves out. -/
def sortableReset : AbstractDecl :=
  { owner := "Sortable", name := "reset", site := ⟨0, 60, 74⟩, doc := .empty }

/-- A mixin with a method that has no signature. -/
def sortable : FactoryCall :=
  { id := 0, kind := .mixin, name := "Sortable", site := ⟨1, 15, 90⟩, declSite := ⟨1, 4, 12⟩,
    specSite := ⟨1, 33, 89⟩, exported := false,
    spec := FactorySpec.empty.addMember 0 "compare" ⟨1, 35, 87⟩ (.method none 2 ⟨1, 44, 87⟩) false }

/-- A component without contents. -/
def bareTable (id : Nat) : FactoryCall :=
  { id := id, kind := .component, name := "Table", site := ⟨1, 105, 126⟩,
    declSite := ⟨1, 97, 102⟩, specSite := ⟨1, 123, 125⟩, exported := false, spec := .empty }

/-- A declaration stands before its mixin, and a name is bound twice. -/
def sortableOperations : List Operation :=
  [.addAbstract sortableCompare, .insert sortable, .insert (bareTable 1), .insert (bareTable 2),
    .addAbstract sortableReset]

/-- The second table is left out and gets no number; the mixin takes the signature that was declared
before it, and the method that only the declaration knows. -/
theorem run_orderly_sortable :
    let registry := Registry.empty.run sortableOperations
    Numbered .empty sortableOperations ∧
    registry.idOf? "Table" = some 1 ∧
    registry.calls.length = 2 ∧
    ∃ finished, registry.finish.calls[0]? = some finished ∧
      sortable.DeclaresAll [sortableCompare, sortableReset] finished ∧
      finished.spec.members.keys = ["compare", "reset"] := by
  intro registry
  have numbered : Numbered .empty sortableOperations := by
    simp only [sortableOperations, Numbered, Operation.insert.injEq, reduceCtorEq, false_imp_iff,
      implies_true, forall_eq', and_true, true_and]
    exact ⟨rfl, rfl, rfl⟩
  obtain ⟨-, -, bound, -, -, finishes⟩ := run_orderly sortableOperations numbered
  refine ⟨numbered, (bound "Table" 1).mpr ⟨bareTable 1, rfl, rfl⟩, rfl, ?_⟩
  cases finishes with
  | cons here _ => exact ⟨_, rfl, here, rfl⟩

end Registry

end ClassFactory
