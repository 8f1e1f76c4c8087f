/-
Module: ClassFactory.Proofs.Component.State
Purpose: Which field the state of a component has under a name. Records are written one over
  another, so what was written last under a name is what is found.
Main exports: findField_extend, findField_extend_ofList, Initializes, findField_of_initializes
-/
import ClassFactory.Component.Synthesis
import ClassFactory.Factory.Collect

namespace ClassFactory

open Script (Expr Property)

section Fields

variable {fields base later : List Field} {field : Field} {name : String}

/-- A field is found in the front part first. -/
theorem findField_append (front back : List Field) :
    findField name (front ++ back) = (findField name front).or (findField name back) := by
  induction front with
  | nil => rfl
  | cons first rest ih =>
      rw [List.cons_append, findField, findField, ih]
      split
      · rfl
      · rfl

/-- Writing a field changes what is found under its own name only. -/
theorem findField_insert :
    findField name (Fields.insert field fields) =
      if field.name = name then some field else findField name fields := by
  induction fields with
  | nil => rfl
  | cons old rest ih =>
      by_cases same : old.name = field.name
      · rw [Fields.insert, if_pos same, findField, findField, same]
        split
        · rfl
        · rfl
      · rw [Fields.insert, if_neg same, findField, findField, ih]
        by_cases found : old.name = name
        · have other : field.name ≠ name := fun h => same (found.trans h.symm)
          rw [if_pos found, if_neg other, if_pos found]
        · rw [if_neg found, if_neg found]

/-- Of several fields written under one name the last one is found. -/
theorem findField_extend :
    findField name (Fields.extend base later) =
      (findField name later.reverse).or (findField name base) := by
  induction later generalizing base with
  | nil => rfl
  | cons first rest ih =>
      have step : Fields.extend base (first :: rest) =
          Fields.extend (Fields.insert first base) rest := rfl
      rw [step, ih, findField_insert, List.reverse_cons, findField_append, Option.or_assoc,
        findField, findField]
      split
      · rfl
      · rfl

/-- In a record built from a list the later fields count. -/
theorem findField_ofList : findField name (Fields.ofList later) = findField name later.reverse := by
  rw [Fields.ofList, findField_extend, findField, Option.or_none]

/-- No field is found just if the name is not there. -/
theorem findField_eq_none_iff : findField name fields = none ↔ name ∉ fields.map Field.name := by
  induction fields with
  | nil => simp [findField]
  | cons first rest ih =>
      rw [findField, List.map_cons, List.mem_cons, not_or, ← ih]
      by_cases found : first.name = name
      · simp [found]
      · simp [found, Ne.symm found]

/-- Where every name occurs once, it does not matter from which end a field is looked for. -/
theorem findField_reverse (distinct : (fields.map Field.name).Nodup) :
    findField name fields.reverse = findField name fields := by
  induction fields with
  | nil => rfl
  | cons first rest ih =>
      rw [List.map_cons, List.nodup_cons] at distinct
      rw [List.reverse_cons, findField_append, ih distinct.2]
      simp only [findField]
      by_cases found : first.name = name
      · have absent := findField_eq_none_iff.mpr (found ▸ distinct.1)
        rw [if_pos found, if_pos found, absent, Option.none_or]
      · rw [if_neg found, if_neg found, Option.or_none]

/-- Putting a field in adds its name at most. -/
theorem mem_names_insert {other : String} :
    other ∈ (Fields.insert field fields).map Field.name ↔
      other = field.name ∨ other ∈ fields.map Field.name := by
  rw [← Decidable.not_iff_not, not_or, ← findField_eq_none_iff, ← findField_eq_none_iff, findField_insert]
  by_cases same : field.name = other
  · simp [same]
  · simp [same, Ne.symm same]

/-- Putting a field in repeats no name. -/
theorem names_insert_nodup (distinct : (fields.map Field.name).Nodup) :
    ((Fields.insert field fields).map Field.name).Nodup := by
  induction fields with
  | nil => simp [Fields.insert]
  | cons old rest ih =>
      rw [List.map_cons, List.nodup_cons] at distinct
      by_cases same : old.name = field.name
      · rw [Fields.insert, if_pos same, List.map_cons, ← same, List.nodup_cons]
        exact distinct
      · rw [Fields.insert, if_neg same, List.map_cons, List.nodup_cons, mem_names_insert, not_or]
        exact ⟨⟨same, distinct.1⟩, ih distinct.2⟩

/-- A record that is built by writing its fields has each name once. -/
theorem names_extend_nodup (distinct : (base.map Field.name).Nodup) :
    ((Fields.extend base later).map Field.name).Nodup := by
  induction later generalizing base with
  | nil => exact distinct
  | cons first rest ih => exact ih (names_insert_nodup distinct)

/-- Writing the fields of a record that was built from a list is writing the list. -/
theorem findField_extend_ofList :
    findField name (Fields.extend base (Fields.ofList later)) =
      findField name (Fields.extend base later) := by
  have distinct : ((Fields.ofList later).map Field.name).Nodup := names_extend_nodup List.nodup_nil
  rw [findField_extend, findField_reverse distinct, findField_ofList, findField_extend]

end Fields

/-- The name of a property, if it is an entry whose key is known. -/
def Script.Property.name? : Property → Option String
  | .entry key _ _ => key.name?
  | .spread _ _ => none

/-- The specification of a call has an undocumented `getInitialState` that returns an object
literal with these properties. -/
def ReturnsState (registry : Registry) (origin : Nat) (properties : List Property) : Prop :=
  ∃ unit doc value span, registry.stateHint? origin = stateHint? unit doc value span ∧
    doc.returns = none ∧ value.returnedObject? = some properties

/-- The expression is what a state field starts with: the last definition of `getInitialState` in
call order gives it to the name, and nothing else to the name after it. -/
def Initializes (registry : Registry) (surface : Surface) (name : String) (e : Expr) : Prop :=
  ∃ definition before key span after,
    (surface.hookChain .getInitialState).getLast? = some definition ∧
    ReturnsState registry definition.origin (before ++ .entry key e span :: after) ∧
    key.name? = some name ∧ ∀ property ∈ after, property.name? ≠ some name

section State

variable {registry : Registry} {surface : Surface} {state fields : List Field} {name : String}
  {e : Expr}

/-- A property is read as a field of its own name. -/
theorem name_of_stateField? {property : Property} {field : Field}
    (read : stateField? property = some field) : property.name? = some field.name := by
  cases property with
  | entry key value span =>
      rcases Option.map_eq_some_iff.mp read with ⟨known, named, rfl⟩
      exact named
  | spread value span => cases read

/-- What a list yields is split as the list is. -/
theorem exists_split_of_mapM {α β : Type} {read : α → Option β} {front back : List α} {x : α}
    {results : List β} (run : (front ++ x :: back).mapM read = some results) :
    ∃ before y after, front.mapM read = some before ∧ read x = some y ∧
      back.mapM read = some after ∧ results = before ++ y :: after := by
  rw [List.mapM_append, List.mapM_cons] at run
  rcases Option.bind_eq_some_iff.mp run with ⟨before, runFront, runRest⟩
  rcases Option.bind_eq_some_iff.mp runRest with ⟨rest, runTail, whole⟩
  rcases Option.bind_eq_some_iff.mp runTail with ⟨y, runX, runBack⟩
  rcases Option.bind_eq_some_iff.mp runBack with ⟨after, runAfter, tail⟩
  cases tail
  cases whole
  exact ⟨before, y, after, runFront, runX, runAfter, rfl⟩

/-- A name that no property gives is none of the fields that are read off the properties. -/
theorem findField_of_unnamed {properties : List Property}
    (read : properties.mapM stateField? = some fields)
    (unnamed : ∀ property ∈ properties, property.name? ≠ some name) :
    findField name fields = none := by
  induction properties generalizing fields with
  | nil =>
      cases read
      rfl
  | cons property rest ih =>
      rw [List.mapM_cons] at read
      rcases Option.bind_eq_some_iff.mp read with ⟨field, first, runRest⟩
      rcases Option.bind_eq_some_iff.mp runRest with ⟨others, later, whole⟩
      cases whole
      have differs : field.name ≠ name := fun same =>
        unnamed property List.mem_cons_self (same ▸ name_of_stateField? first)
      rw [findField, if_neg differs]
      exact ih later fun other mem => unnamed other (List.mem_cons_of_mem _ mem)

/-- A known state is what the last definition of `getInitialState` returns, written over what the
others return. -/
theorem exists_last_record {definition : MemberDefinition}
    (known : componentState registry surface = some state)
    (lastly : (surface.hookChain .getInitialState).getLast? = some definition) :
    ∃ earlier last, stateFields? registry definition.origin = some last ∧
      state = Fields.extend earlier last := by
  rw [componentState] at known
  split at known
  · cases known
  · rcases List.getLast?_eq_some_iff.mp lastly with ⟨front, whole⟩
    rw [whole] at known
    rcases Option.map_eq_some_iff.mp known with ⟨records, run, written⟩
    rcases exists_split_of_mapM run with ⟨before, last, after, _, returned, runAfter, rfl⟩
    cases runAfter
    rw [List.foldl_append] at written
    exact ⟨before.foldl Fields.extend [], last, returned, written.symm⟩

/-- The fields of an undocumented state are those of the object literal, each of the type that its
value shows. -/
theorem stateFields?_of_returns {origin : Nat} {properties : List Property}
    (returns : ReturnsState registry origin properties)
    (returned : stateFields? registry origin = some fields) :
    ∃ shown, properties.mapM stateField? = some shown ∧ fields = Fields.ofList shown := by
  rcases returns with ⟨unit, doc, value, place, hinted, undocumented, literal⟩
  rw [stateFields?, hinted, stateHint?, undocumented] at returned
  simp only [literal, Option.bind_eq_bind, Option.bind_some] at returned
  cases read : properties.mapM stateField? with
  | none => simp [read] at returned
  | some shown =>
      simp only [read, Option.bind_some, pure, Ty.nonNullish, Option.some.injEq] at returned
      exact ⟨shown, rfl, returned.symm⟩

/-- The object literal of the last definition has the last word on a name. -/
theorem findField_of_initializes (known : componentState registry surface = some state)
    (initial : Initializes registry surface name e) :
    findField name state = some (.mk name e.shownType false) := by
  rcases initial with ⟨definition, before, key, span, after, lastly, returns, named, unnamed⟩
  rcases exists_last_record known lastly with ⟨earlier, last, returned, rfl⟩
  rcases stateFields?_of_returns returns returned with ⟨shown, read, rfl⟩
  rcases exists_split_of_mapM read with ⟨front, field, back, _, first, later, rfl⟩
  have last : field = .mk name e.shownType false := by
    rw [stateField?, named] at first
    exact (Option.some.inj first).symm
  have others : findField name back.reverse = none := by
    rw [findField_eq_none_iff, List.map_reverse, List.mem_reverse, ← findField_eq_none_iff]
    exact findField_of_unnamed later unnamed
  rw [findField_extend_ofList, findField_extend, List.reverse_append, List.reverse_cons,
    List.append_assoc, findField_append, others, Option.none_or, List.singleton_append, findField,
    last, Field.name, if_pos rfl, Option.some_or]

end State

end ClassFactory
