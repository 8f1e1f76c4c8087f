/-
Module: ClassFactory.Proofs.Factory.Overwritten
Purpose: What becomes of properties of a specification whose key a later one repeats. Members,
  `propTypes` and the initial state are always those of the last property of a key. An overwritten
  `mixins`, `statics`, `displayName` or `getDefaultProps`, or one that is at fault, may show all the
  same, and it is told exactly when none does.
Main exports: lastOfEach, FactorySpec.Alike, SameOutcome, Superseded, valuesOf_lastOfEach, alike_iff,
  repeated_keys_superseded_iff
-/
import ClassFactory.Proofs.Factory.Literal

namespace ClassFactory

open Script (Expr Item Key Property)

/-- The properties without those whose key a later one repeats. -/
def lastOfEach : List Property → List Property
  | [] => []
  | property :: rest =>
    if property.name?.any (knownKeys rest).contains then lastOfEach rest
    else property :: lastOfEach rest

/-- The same specification, but for the numbers of its definitions and the order of its entries. -/
structure FactorySpec.Alike (one other : FactorySpec) : Prop where
  members : ∀ name, (one.members.get? name).map SpecMember.unnumbered =
    (other.members.get? name).map SpecMember.unnumbered
  mixins : one.mixins = other.mixins
  statics : ∀ name, (one.statics.get? name).map StaticDef.unnumbered =
    (other.statics.get? name).map StaticDef.unnumbered
  propTypes : one.propTypes = other.propTypes
  displayName : one.displayName = other.displayName
  defaultProps : ∀ prop, prop ∈ one.defaultProps ↔ prop ∈ other.defaultProps
  stateHint : one.stateHint = other.stateHint

/-- Both readings stop for the same reason, or both come to the same specification. -/
inductive SameOutcome :
    Except OpaqueReason FactorySpec → Except OpaqueReason FactorySpec → Prop where
  | leftOut (reason : OpaqueReason) : SameOutcome (.error reason) (.error reason)
  | described {one other : FactorySpec} (alike : one.Alike other) :
      SameOutcome (.ok one) (.ok other)

/-- What overwritten properties give is gone: their lists of mixins are empty, their statics are
defined again, a display name was given anew, and so were default props if there were any. -/
structure Replaced (unit : SourceUnit) (properties : List Property) : Prop where
  mixins : ∀ before last, valuesOf "mixins" properties = before ++ [last] →
    ∀ given ∈ before, mixinsIn unit given = []
  statics : ∀ before last, valuesOf "statics" properties = before ++ [last] →
    ∀ given ∈ before, ∀ name ∈ knownKeys (staticsIn given), name ∈ knownKeys (staticsIn last)
  displayName : ∀ before last, valuesOf "displayName" properties = before ++ [last] →
    text? last = none → ∀ given ∈ before, text? given = none
  defaultProps : ∀ before last, valuesOf "getDefaultProps" properties = before ++ [last] →
    returnedKeys? last = none → ∀ keys, lastTelling? returnedKeys? before = some keys → keys = []

/-- Overwritten properties do not show: either what they give is gone, or the reading stops, and for
a reason that it stops for without them. -/
inductive Superseded (unit : SourceUnit) (properties : List Property) : Prop where
  | replaced (sound : properties.findSome? (fault? unit) = none)
      (replaced : Replaced unit properties)
  | faulty (reason : OpaqueReason) (first : properties.findSome? (fault? unit) = some reason)
      (kept : (lastOfEach properties).findSome? (fault? unit) = some reason)

/-! ## Lists of which the last item counts -/

section Lists

variable {α β : Type} {values before : List α} {last : α}

theorem forall_concat_iff {holds : List α → α → Prop} :
    (∀ front item, before ++ [last] = front ++ [item] → holds front item) ↔ holds before last := by
  constructor
  · intro each
    exact each before last rfl
  · intro here front item same
    obtain ⟨rfl, one⟩ := List.append_inj' same rfl
    obtain rfl := List.singleton_inj.mp one
    exact here

/-- Only the last item counts just if the others give nothing. -/
theorem flatMap_eq_last_iff {gives : α → List β} :
    values.flatMap gives = values.getLast?.toList.flatMap gives ↔
      ∀ before last, values = before ++ [last] → ∀ item ∈ before, gives item = [] := by
  rcases List.eq_nil_or_concat' values with rfl | ⟨front, item, rfl⟩
  · simp
  · rw [forall_concat_iff]
    simp

/-- Nothing is told just if no item tells anything. -/
theorem lastTelling?_eq_none_iff {tells : α → Option β} :
    lastTelling? tells values = none ↔ ∀ item ∈ values, tells item = none := by
  simp [lastTelling?]

theorem lastTelling?_last_concat {tells : α → Option β} :
    lastTelling? tells (before ++ [last]).getLast?.toList = tells last := by
  cases told : tells last <;> simp [lastTelling?, told]

/-- Only the last item counts just if it tells something, or the others tell nothing. -/
theorem lastTelling?_eq_last_iff {tells : α → Option β} :
    lastTelling? tells values = lastTelling? tells values.getLast?.toList ↔
      ∀ before last, values = before ++ [last] → tells last = none →
        ∀ item ∈ before, tells item = none := by
  rcases List.eq_nil_or_concat' values with rfl | ⟨front, item, rfl⟩
  · simp
  · rw [forall_concat_iff, lastTelling?_concat, lastTelling?_last_concat,
      ← lastTelling?_eq_none_iff]
    cases tells item <;> simp

/-- The list that the last item to tell one tells has no other entries than that of the last item just
if it is that of the last item, or empty. -/
theorem mem_lastTelling?_iff {tells : α → Option (List β)} :
    (∀ entry, entry ∈ (lastTelling? tells values).getD [] ↔
        entry ∈ (lastTelling? tells values.getLast?.toList).getD []) ↔
      ∀ before last, values = before ++ [last] → tells last = none →
        ∀ entries, lastTelling? tells before = some entries → entries = [] := by
  rcases List.eq_nil_or_concat' values with rfl | ⟨front, item, rfl⟩
  · simp
  · rw [forall_concat_iff, lastTelling?_concat, lastTelling?_last_concat]
    cases tells item with
    | some entries => simp
    | none => cases lastTelling? tells front <;> simp [List.eq_nil_iff_forall_not_mem]

end Lists

/-! ## Properties of which the last of a key counts -/

section Overwritten

variable {unit : SourceUnit} {kind : FactoryKind} {properties : List Property}
  {spec reduced : FactorySpec}

/-- What is kept of a literal keeps its order. -/
theorem lastOfEach_sublist (properties : List Property) :
    (lastOfEach properties).Sublist properties := by
  induction properties with
  | nil => exact .slnil
  | cons property rest ih =>
      rw [lastOfEach]
      split
      · exact ih.cons property
      · exact ih.cons_cons property

/-- Of the values of a name the last one remains. -/
theorem valuesOf_lastOfEach (name : String) (properties : List Property) :
    valuesOf name (lastOfEach properties) = (valuesOf name properties).getLast?.toList := by
  induction properties with
  | nil => rfl
  | cons property rest ih =>
      cases property with
      | spread e span => simpa [lastOfEach, Property.name?, valuesOf] using ih
      | entry key value span =>
          rw [lastOfEach, Property.name?, valuesOf_cons, List.getLast?_append]
          by_cases again : key.name?.any (knownKeys rest).contains = true
          · rw [if_pos again, ih]
            by_cases named : key.name? = some name
            · have others : valuesOf name rest ≠ [] := by
                rw [valuesOf_ne_nil_iff]
                simpa [named] using again
              obtain ⟨front, last, split⟩ :=
                (List.eq_nil_or_concat' (valuesOf name rest)).resolve_left others
              simp [split]
            · simp [named]
          · rw [if_neg again, valuesOf_cons, ih]
            by_cases named : key.name? = some name
            · have only : valuesOf name rest = [] := by
                rw [← not_ne_iff, valuesOf_ne_nil_iff]
                simpa [named] using again
              simp [named, only]
            · simp [named]

/-- A static is missing just if its name is not among those given. -/
theorem static?_eq_none_iff {name : String} {given : Expr × Span} :
    static? unit name given = none ↔ name ∉ knownKeys (staticsIn given) := by
  rw [static?, Option.map_eq_none_iff, List.getLast?_eq_none_iff, ← valuesOf_ne_nil_iff, not_ne_iff]

/-- Members, `propTypes` and the initial state are those of the last property of a key. -/
theorem last_stands (whole : unit.Describes kind properties spec)
    (last : unit.Describes kind (lastOfEach properties) reduced) :
    (∀ name, (spec.members.get? name).map SpecMember.unnumbered =
        (reduced.members.get? name).map SpecMember.unnumbered) ∧
      spec.propTypes = reduced.propTypes ∧ spec.stateHint = reduced.stateHint := by
  have lastOnly : ∀ name, (valuesOf name (lastOfEach properties)).getLast? =
      (valuesOf name properties).getLast? := by
    intro name
    rw [valuesOf_lastOfEach]
    cases (valuesOf name properties).getLast? <;> rfl
  refine ⟨fun name => ?_, ?_, ?_⟩
  · rw [whole.members, last.members, lastOnly]
  · rw [whole.propTypes, last.propTypes, lastOnly]
  · rw [whole.stateHint, last.stateHint, lastOnly]

/-- What is read agrees with what is read without overwritten properties just if what these give is
gone. -/
theorem alike_iff (whole : unit.Describes kind properties spec)
    (last : unit.Describes kind (lastOfEach properties) reduced) :
    spec.Alike reduced ↔ Replaced unit properties := by
  have mixins := last.mixins
  have statics := last.statics
  have displayName := last.displayName
  have defaultProps := last.defaultProps
  rw [valuesOf_lastOfEach] at mixins displayName defaultProps
  simp only [valuesOf_lastOfEach] at statics
  constructor
  · intro alike
    refine ⟨?_, ?_, ?_, ?_⟩
    · rw [← flatMap_eq_last_iff, ← whole.mixins, ← mixins]
      exact alike.mixins
    · intro before final split given mem name named
      have same := alike.statics name
      rw [whole.statics, statics, lastTelling?_eq_last_iff] at same
      by_contra absent
      have untold := same before final split (static?_eq_none_iff.mpr absent) given mem
      exact static?_eq_none_iff.mp untold named
    · rw [← lastTelling?_eq_last_iff, ← whole.displayName, ← displayName]
      exact alike.displayName
    · rw [← mem_lastTelling?_iff, ← whole.defaultProps, ← defaultProps]
      exact alike.defaultProps
  · intro replaced
    obtain ⟨members, propTypes, stateHint⟩ := last_stands whole last
    refine ⟨members, ?_, ?_, propTypes, ?_, ?_, stateHint⟩
    · rw [whole.mixins, mixins, flatMap_eq_last_iff]
      exact replaced.mixins
    · intro name
      rw [whole.statics, statics, lastTelling?_eq_last_iff]
      intro before final split untold given mem
      rw [static?_eq_none_iff] at untold ⊢
      exact fun named => untold (replaced.statics before final split given mem name named)
    · rw [whole.displayName, displayName, lastTelling?_eq_last_iff]
      exact replaced.displayName
    · rw [whole.defaultProps, defaultProps, mem_lastTelling?_iff]
      exact replaced.defaultProps

end Overwritten

/-- Repeated keys of a specification. For members, `propTypes` and the initial state nothing counts but
the last property of a key. Altogether, reading comes to the same as without overwritten properties
just if what these give is gone, or the reading stops for a reason that remains. -/
theorem repeated_keys_superseded_iff (unit : SourceUnit) (owner : Nat) (kind : FactoryKind)
    (properties : List Property) :
    (∀ spec reduced, buildSpec unit owner kind properties = .ok spec →
      buildSpec unit owner kind (lastOfEach properties) = .ok reduced →
      (∀ name, (spec.members.get? name).map SpecMember.unnumbered =
        (reduced.members.get? name).map SpecMember.unnumbered) ∧
      spec.propTypes = reduced.propTypes ∧ spec.stateHint = reduced.stateHint) ∧
    (SameOutcome (buildSpec unit owner kind properties)
      (buildSpec unit owner kind (lastOfEach properties)) ↔ Superseded unit properties) := by
  refine ⟨fun spec reduced read readLast =>
    last_stands (buildSpec_describes read) (buildSpec_describes readLast), ?_, ?_⟩
  · intro same
    generalize read : buildSpec unit owner kind properties = outcome at same
    generalize readLast : buildSpec unit owner kind (lastOfEach properties) = outcomeLast at same
    cases same with
    | leftOut reason =>
        exact .faulty reason (buildSpec_eq_error_iff.mp read) (buildSpec_eq_error_iff.mp readLast)
    | described alike =>
        exact .replaced (exists_buildSpec_iff.mp ⟨_, read⟩)
          ((alike_iff (buildSpec_describes read) (buildSpec_describes readLast)).mp alike)
  · rintro (⟨sound, replaced⟩ | ⟨reason, first, kept⟩)
    · have soundLast : (lastOfEach properties).findSome? (fault? unit) = none := by
        rw [List.findSome?_eq_none_iff] at sound ⊢
        exact fun property mem => sound property ((lastOfEach_sublist properties).subset mem)
      obtain ⟨spec, read⟩ := exists_buildSpec_iff.mpr sound
      obtain ⟨reduced, readLast⟩ := exists_buildSpec_iff.mpr soundLast
      rw [read, readLast]
      exact .described
        ((alike_iff (buildSpec_describes read) (buildSpec_describes readLast)).mpr replaced)
    · rw [buildSpec_eq_error_iff.mpr first, buildSpec_eq_error_iff.mpr kept]
      exact .leftOut reason

/-- A source of which only the specifications matter. -/
def bareUnit : SourceUnit :=
  { file := 0, text := [], comments := #[], options := .standard }

/-- An entry of a specification; all its places are the same. -/
def Script.Property.bare (name : String) (value : Expr) : Property :=
  .entry (.named name default) value default

/-- The properties of `{ mixins: [A], mixins: [B] }`. -/
def mixedTwice : List Property :=
  [.bare "mixins" (.array [.value (.ident "A" default)] default),
    .bare "mixins" (.array [.value (.ident "B" default)] default)]

/-- The mixin of the first list is included as well, but not if that list is left out. -/
theorem repeated_keys_superseded_iff_mixed :
    (buildSpec bareUnit 0 .component mixedTwice).map FactorySpec.mixins =
        .ok [⟨"A", default⟩, ⟨"B", default⟩] ∧
      (buildSpec bareUnit 0 .component (lastOfEach mixedTwice)).map FactorySpec.mixins =
        .ok [⟨"B", default⟩] ∧
      ¬ SameOutcome (buildSpec bareUnit 0 .component mixedTwice)
        (buildSpec bareUnit 0 .component (lastOfEach mixedTwice)) := by
  refine ⟨rfl, rfl, fun same => ?_⟩
  have superseded :=
    (repeated_keys_superseded_iff bareUnit 0 .component mixedTwice).2.mp same
  have sound : mixedTwice.findSome? (fault? bareUnit) = none := rfl
  rcases superseded with ⟨-, replaced⟩ | ⟨reason, first, -⟩
  · have given : valuesOf "mixins" mixedTwice =
        [(.array [.value (.ident "A" default)] default, default)] ++
          [(.array [.value (.ident "B" default)] default, default)] := rfl
    have gone := replaced.mixins _ _ given _ List.mem_cons_self
    cases gone
  · rw [sound] at first
    cases first

end ClassFactory
