/-
Module: ClassFactory.Proofs.Component.InstanceMembers
Purpose: Which names an instance has as methods and which as fields. The members of the surface are
  divided by whether all their definitions are plain values. The library's methods are entered where
  there is no method of their name, and a field of that name does not keep them out.
Main exports: suppliedMethod?, method?_componentType, fields_get?, ComponentType.Separates,
  members_separated_iff
-/
import ClassFactory.Proofs.Component.Published
import ClassFactory.Proofs.Mixins.Contents
import ClassFactory.Proofs.Mixins.Findings

namespace ClassFactory

/-! ## Methods of the library -/

/-- The methods, and those of a catalogue where there are none of their names. -/
def withSupplied (entries : List (String × String)) (methods : Keyed MethodType) :
    Keyed MethodType :=
  entries.foldl (fun methods entry => methods.insertNew entry.1
    (builtinMethod entry.1 (instanceSignature? entry.1))) methods

/-- A method of the catalogue is found where there is no other one of its name. -/
theorem get?_withSupplied (entries : List (String × String)) (methods : Keyed MethodType)
    (name : String) :
    (withSupplied entries methods).get? name =
      (methods.get? name).or (if name ∈ entries.map Prod.fst then
        some (builtinMethod name (instanceSignature? name)) else none) := by
  induction entries generalizing methods with
  | nil => rw [List.map_nil, if_neg List.not_mem_nil, Option.or_none]; rfl
  | cons entry rest ih =>
      have stepped : withSupplied (entry :: rest) methods =
          withSupplied rest (methods.insertNew entry.1
            (builtinMethod entry.1 (instanceSignature? entry.1))) := rfl
      rw [stepped, ih, Keyed.get?_insertNew, Option.or_assoc, List.map_cons]
      congr 1
      by_cases same : entry.1 = name
      · subst same
        simp
      · have later : name ∈ entry.1 :: rest.map Prod.fst ↔ name ∈ rest.map Prod.fst :=
          List.mem_cons.trans (or_iff_right (Ne.symm same))
        simp only [if_neg same, Option.none_or, later]

/-- The method that the library supplies under a name. -/
def suppliedMethod? (pureRender : Bool) (name : String) : Option MethodType :=
  if name ∈ instanceMethods.map Prod.fst then some (builtinMethod name (instanceSignature? name))
  else if pureRender = true ∧ name = "shouldComponentUpdate" then
    some (builtinMethod name (standardSignature? name))
  else none

/-- The methods that a surface defines or declares. -/
def surfaceMethods (surface : Surface) : Keyed MethodType :=
  { entries := surface.members.entries.filterMap fun entry =>
      (memberMethod? entry.1 entry.2).map fun method => (entry.1, method) }

section Members

variable {registry : Registry} {options : Options} {call : FactoryCall} {surface : Surface}
  {name : String} {member : SurfaceMember}

/-- An instance has the methods of the surface, and those of the library under other names. -/
theorem method?_componentType :
    (componentType registry options call surface).method? name =
      ((surfaceMethods surface).get? name).or (suppliedMethod? surface.pureRender name) := by
  have noUpdate : "shouldComponentUpdate" ∉ instanceMethods.map Prod.fst := by decide
  have made : (componentType registry options call surface).method? name =
      (if surface.pureRender then
        (withSupplied instanceMethods (surfaceMethods surface)).insertNew "shouldComponentUpdate"
          (builtinMethod "shouldComponentUpdate" (standardSignature? "shouldComponentUpdate"))
      else withSupplied instanceMethods (surfaceMethods surface)).get? name := rfl
  rw [made, suppliedMethod?]
  cases surface.pureRender with
  | false => simp [get?_withSupplied]
  | true =>
      rw [if_pos rfl, Keyed.get?_insertNew, get?_withSupplied, Option.or_assoc]
      congr 1
      by_cases update : name = "shouldComponentUpdate"
      · subst update
        simp [noUpdate]
      · simp [update, Ne.symm update]

/-! ## Members of the surface -/

/-- A member is a method unless it is a plain value. -/
theorem surfaceMethods_get? (distinct : surface.members.keys.Nodup) :
    (surfaceMethods surface).get? name = (surface.member? name).bind (memberMethod? name) :=
  Keyed.lookup_filterMap distinct

/-- The fields are the members that are plain values. -/
theorem fields_get? (distinct : surface.members.keys.Nodup) :
    (componentType registry options call surface).fields.get? name =
      (surface.member? name).bind memberField? := by
  have looked : ∀ change : String → SurfaceMember → Option Ty,
      Keyed.lookup name (surface.members.entries.filterMap fun entry =>
          (change entry.1 entry.2).map fun type => (entry.1, type)) =
        (Keyed.lookup name surface.members.entries).bind (change name) :=
    fun _ => Keyed.lookup_filterMap distinct
  exact looked fun _ => memberField?

/-- A member with a definition gives a method just if it is not a value. -/
theorem memberMethod?_isSome (some : member.definitions ≠ []) :
    (memberMethod? name member).isSome = !member.isValue := by
  obtain ⟨first, rest, definitions⟩ := List.exists_cons_of_ne_nil some
  unfold memberMethod? SurfaceMember.primary?
  rw [definitions]
  cases member.isValue <;> rfl

/-- What the surface shows as a method is no method of the library. -/
theorem memberMethod?_source {method : MethodType} (shown : memberMethod? name member = some method) :
    method.source ≠ .builtin := by
  unfold memberMethod? at shown
  split at shown
  · cases shown
  · obtain ⟨primary, -, rfl⟩ := Option.map_eq_some_iff.mp shown
    unfold methodSource
    split
    · simp
    · simp

/-- A member with a definition gives a field just if it is a value. -/
theorem memberField?_isSome (some : member.definitions ≠ []) :
    (memberField? member).isSome = member.isValue := by
  obtain ⟨first, rest, definitions⟩ := List.exists_cons_of_ne_nil some
  unfold memberField? SurfaceMember.valueType? SurfaceMember.primary?
  rw [definitions]
  cases isValue : member.isValue with
  | false => rfl
  | true =>
      unfold SurfaceMember.isValue at isValue
      rw [definitions, List.all_cons, Bool.and_eq_true] at isValue
      have ofFirst := isValue.1
      rw [List.head?_cons, Option.map_some]
      cases kind : first.kind with
      | value type => rfl
      | method signature arity site => simp [kind, MemberKind.isValue] at ofFirst
      | declared signature => simp [kind, MemberKind.isValue] at ofFirst

end Members

/-! ## Published components -/

/-- Methods and fields are told apart: no name is both, each member of the surface is one of them, a
field if all its definitions are plain values, and all else is the library's. -/
structure ComponentType.Separates (type : ComponentType) (surface : Surface) : Prop where
  apart : ∀ name, ¬ (type.methods.contains name = true ∧ type.fields.contains name = true)
  shown : ∀ name member, surface.member? name = some member →
    (type.fields.contains name = true ↔ member.isValue = true) ∧
      (type.methods.contains name = true ↔ member.isValue = false)
  others : ∀ name, surface.member? name = none → type.fields.contains name = false ∧
    ∀ method, type.method? name = some method → method.source = .builtin

/-- A plain value goes by the name of a method that the library supplies. -/
def Surface.Shadows (surface : Surface) (name : String) : Prop :=
  name ∈ instanceMethods.map Prod.fst ∧
    ∃ member, surface.member? name = some member ∧ member.isValue = true

section Published

variable {registry : Registry} {options : Options} {call : FactoryCall} {surface : Surface}
  {name : String}

/-- A component that a library mixin keeps from updating has no member to decide on updates: it would
not have resolved. -/
theorem member?_update_of_pureRender (h : registry.WellFormed) {id : Nat}
    (found : (resolve registry options).surface? id = some surface)
    (pure : surface.pureRender = true) : surface.member? "shouldComponentUpdate" = none := by
  have stocked : surface.Stocked := surface_stocked h found
  obtain ⟨call, -, -, sound, rfl⟩ := exists_mergeable h found
  have noProblem : pureRenderProblem (exposed call (assembled registry options call)) = [] := by
    rw [exposed_view pureRenderProblem fun _ _ => rfl]
    exact (List.append_eq_nil_iff.mp (List.append_eq_nil_iff.mp sound).1).2
  generalize exposed call (assembled registry options call) = surface at *
  cases has : surface.member? "shouldComponentUpdate" with
  | none => rfl
  | some member =>
      obtain ⟨first, rest, definitions⟩ := List.exists_cons_of_ne_nil (stocked.of_get? has).1
      simp [pureRenderProblem, pure, Surface.primary?, has, SurfaceMember.primary?, definitions]
        at noProblem

/-- The library supplies the methods of instances, and one more to what renders purely. -/
theorem isSome_suppliedMethod?_iff {pureRender : Bool} :
    (suppliedMethod? pureRender name).isSome = true ↔
      name ∈ instanceMethods.map Prod.fst ∨
        (pureRender = true ∧ name = "shouldComponentUpdate") := by
  unfold suppliedMethod?
  split
  next listed => simp [listed]
  next other =>
    split
    next update => simp [update]
    next => simp_all

/-- What the library supplies is marked as its own. -/
theorem source_of_suppliedMethod? {pureRender : Bool} {method : MethodType}
    (supplied : suppliedMethod? pureRender name = some method) : method.source = .builtin := by
  unfold suppliedMethod? at supplied
  split at supplied
  · cases supplied
    rfl
  · split at supplied
    · cases supplied
      rfl
    · cases supplied

section Stocked

variable (stocked : surface.Stocked)

include stocked

/-- The fields of an instance are the values of the surface. -/
theorem fields_contains_iff :
    (componentType registry options call surface).fields.contains name = true ↔
      ∃ member, surface.member? name = some member ∧ member.isValue = true := by
  rw [Keyed.contains, fields_get? stocked.distinct, Option.isSome_bind]
  cases has : surface.member? name with
  | none => simp
  | some member => simp [memberField?_isSome (stocked.of_get? has).1]

/-- The methods of an instance are those of the surface and those that the library supplies. -/
theorem methods_contains_iff :
    (componentType registry options call surface).methods.contains name = true ↔
      (∃ member, surface.member? name = some member ∧ member.isValue = false) ∨
        (suppliedMethod? surface.pureRender name).isSome = true := by
  have looked : (componentType registry options call surface).methods.get? name = _ :=
    method?_componentType
  rw [Keyed.contains, looked, surfaceMethods_get? stocked.distinct, Option.isSome_or,
    Bool.or_eq_true]
  cases has : surface.member? name with
  | none => simp
  | some member => simp [memberMethod?_isSome (stocked.of_get? has).1]

variable (pure : surface.pureRender = true → surface.member? "shouldComponentUpdate" = none)

include pure

/-- The names that are both are those of plain values that the library has a method for. -/
theorem shows_twice_iff :
    ((componentType registry options call surface).methods.contains name = true ∧
        (componentType registry options call surface).fields.contains name = true) ↔
      surface.Shadows name := by
  rw [methods_contains_iff stocked, fields_contains_iff stocked, isSome_suppliedMethod?_iff]
  constructor
  · rintro ⟨⟨member, has, isMethod⟩ | listed | ⟨isPure, rfl⟩, again, hasAgain, isValue⟩
    · obtain rfl := Option.some.inj (has.symm.trans hasAgain)
      rw [isMethod] at isValue
      cases isValue
    · exact ⟨listed, again, hasAgain, isValue⟩
    · rw [pure isPure] at hasAgain
      cases hasAgain
  · rintro ⟨listed, member, has, isValue⟩
    exact ⟨.inr (.inl listed), member, has, isValue⟩

omit pure

/-- A method of the surface goes before one of the library; a plain value does not. -/
theorem method?_of_member {member : SurfaceMember} (has : surface.member? name = some member) :
    (componentType registry options call surface).method? name =
      (memberMethod? name member).or (suppliedMethod? surface.pureRender name) := by
  rw [method?_componentType, surfaceMethods_get? stocked.distinct, has, Option.bind_some]

/-- A method of the surface stands in the instance as defined by it. -/
theorem exists_own_method {member : SurfaceMember} (has : surface.member? name = some member)
    (isMethod : member.isValue = false) :
    ∃ method, (componentType registry options call surface).method? name = some method ∧
      method.source ≠ .builtin := by
  have some : (memberMethod? name member).isSome = true := by
    rw [memberMethod?_isSome (stocked.of_get? has).1, isMethod]
    rfl
  obtain ⟨method, shown⟩ := Option.isSome_iff_exists.mp some
  refine ⟨method, ?_, memberMethod?_source shown⟩
  rw [method?_of_member stocked has, shown, Option.some_or]

/-- A method of the library that a value shadows is there even so. -/
theorem method?_of_shadows (shadows : surface.Shadows name) :
    (componentType registry options call surface).method? name =
      some (builtinMethod name (instanceSignature? name)) := by
  obtain ⟨listed, member, has, isValue⟩ := shadows
  rw [method?_of_member stocked has, memberMethod?, isValue, if_pos rfl, Option.none_or,
    suppliedMethod?, if_pos listed]

/-- Nothing but what the library supplies stands under a name that the surface does not have. -/
theorem shown_of_absent (absent : surface.member? name = none) :
    (componentType registry options call surface).fields.contains name = false ∧
      ∀ method, (componentType registry options call surface).method? name = some method →
        method.source = .builtin := by
  constructor
  · rw [Bool.eq_false_iff, ne_eq, fields_contains_iff stocked, absent]
    simp
  · intro method shown
    rw [method?_componentType, surfaceMethods_get? stocked.distinct, absent, Option.bind_none,
      Option.none_or] at shown
    exact source_of_suppliedMethod? shown

include pure in
/-- Fields and methods are apart just if no value shadows a method of the library. -/
theorem separates_iff :
    (componentType registry options call surface).Separates surface ↔
      ∀ name, ¬ surface.Shadows name := by
  constructor
  · intro separates name shadows
    exact separates.apart name ((shows_twice_iff stocked pure).mpr shadows)
  · intro none
    have apart : ∀ name, ¬ ((componentType registry options call surface).methods.contains name =
        true ∧ (componentType registry options call surface).fields.contains name = true) :=
      fun name => mt (shows_twice_iff stocked pure).mp (none name)
    refine ⟨apart, fun name member has => ?_, fun name absent => shown_of_absent stocked absent⟩
    have isField : (componentType registry options call surface).fields.contains name = true ↔
        member.isValue = true := by
      rw [fields_contains_iff stocked, has]
      simp
    refine ⟨isField, fun isMethod => ?_, fun isMethod => ?_⟩
    · rw [Bool.eq_false_iff, ne_eq, ← isField]
      exact fun field => apart name ⟨isMethod, field⟩
    · exact (methods_contains_iff stocked).mpr (.inl ⟨member, has, isMethod⟩)

end Stocked

end Published

/-- Methods and fields of a published component are told apart, with each member of its surface in one
of them and the library's methods beside, just if no plain value goes by the name of one of the
methods that the library supplies. The names of those are both: the field has the type of the value
and the method is the library's. Whatever their names, the fields are the members that are plain
values, all other members are methods with a source of their own, and what is no member is the
library's. -/
theorem members_separated_iff {registry : Registry} {options : Options} (h : registry.WellFormed) :
    ∀ type ∈ (synthesize registry options (resolve registry options)).table.components,
      ∃ surface, (resolve registry options).surface? type.id = some surface ∧
        (type.Separates surface ↔ ∀ name, ¬ surface.Shadows name) ∧
        (∀ name, (type.methods.contains name = true ∧ type.fields.contains name = true) ↔
          surface.Shadows name) ∧
        (∀ name, surface.Shadows name →
          type.method? name = some (builtinMethod name (instanceSignature? name))) ∧
        (∀ name member, surface.member? name = some member →
          (type.fields.contains name = true ↔ member.isValue = true) ∧
            (member.isValue = false →
              ∃ method, type.method? name = some method ∧ method.source ≠ .builtin)) ∧
        ∀ name, surface.member? name = none → type.fields.contains name = false ∧
          ∀ method, type.method? name = some method → method.source = .builtin := by
  intro type published
  obtain ⟨call, -, surface, found, rfl⟩ := (mem_components_iff h).mp published
  have stocked : surface.Stocked := surface_stocked h found
  have pure := member?_update_of_pureRender h found
  refine ⟨surface, found, separates_iff stocked pure, fun name => shows_twice_iff stocked pure,
    fun name => method?_of_shadows stocked, fun name member has => ⟨?_, ?_⟩,
    fun name => shown_of_absent stocked⟩
  · rw [fields_contains_iff stocked, has]
    simp
  · exact exists_own_method stocked has

/-- A component with a plain value of its own name, and one whose plain value is called as a method of
the library is. -/
def shadowingRegistry : Registry :=
  memberRegistry [
    ⟨.component, "Clean", [], [("count", .value .number), ("render", .method none 0 default)]⟩,
    ⟨.component, "Box", [], [("setState", .value .number), ("render", .method none 0 default)]⟩]

/-- The first component keeps the two apart, and the second one has `setState` as both. -/
theorem members_separated_iff_box :
    shadowingRegistry.WellFormed ∧
      (∃ type ∈ (synthesize shadowingRegistry .standard
          (resolve shadowingRegistry .standard)).table.components,
        type.name = "Clean" ∧ ∃ surface,
          (resolve shadowingRegistry .standard).surface? type.id = some surface ∧
            type.Separates surface) ∧
      ∃ type ∈ (synthesize shadowingRegistry .standard
          (resolve shadowingRegistry .standard)).table.components,
        type.name = "Box" ∧ type.methods.contains "setState" = true ∧
          type.fields.contains "setState" = true := by
  have sound : shadowingRegistry.WellFormed := memberRegistry_wellFormed _
  have shown := @members_separated_iff shadowingRegistry .standard sound
  have published : ∀ call ∈ shadowingRegistry.components, ∀ surface,
      (resolve shadowingRegistry .standard).surface? call.id = some surface →
      componentType shadowingRegistry .standard call surface ∈ (synthesize shadowingRegistry
        .standard (resolve shadowingRegistry .standard)).table.components :=
    fun call mem surface found => (mem_components_iff sound).mpr ⟨call, mem, surface, found, rfl⟩
  have both : ∃ clean ∈ shadowingRegistry.components, ∃ box ∈ shadowingRegistry.components,
      clean.name = "Clean" ∧ box.name = "Box" ∧
        ((resolve shadowingRegistry .standard).surface? clean.id).map (fun surface =>
          (instanceMethods.map Prod.fst).all fun name => (surface.member? name).isNone) =
            some true ∧
        ((resolve shadowingRegistry .standard).surface? box.id).map (fun surface =>
          (surface.member? "setState").map SurfaceMember.isValue) = some (some true) :=
    ⟨_, .head _, _, .tail _ (.head _), by decide, by decide, by decide, by decide⟩
  obtain ⟨clean, cleanMem, box, boxMem, cleanNamed, boxNamed, none, value⟩ := both
  obtain ⟨cleanSurface, cleanFound, free⟩ := Option.map_eq_some_iff.mp none
  obtain ⟨boxSurface, boxFound, taken⟩ := Option.map_eq_some_iff.mp value
  obtain ⟨member, has, isValue⟩ := Option.map_eq_some_iff.mp taken
  refine ⟨sound, ⟨_, published clean cleanMem cleanSurface cleanFound, cleanNamed, ?_⟩,
    ⟨_, published box boxMem boxSurface boxFound, boxNamed, ?_⟩⟩
  · obtain ⟨surface, found, separates, -⟩ := shown _ (published clean cleanMem _ cleanFound)
    refine ⟨surface, found, separates.mpr ?_⟩
    rintro name ⟨listed, member, has, -⟩
    obtain rfl := Option.some.inj (cleanFound.symm.trans found)
    have absent := List.all_eq_true.mp free name listed
    rw [has] at absent
    cases absent
  · obtain ⟨surface, found, -, twice, -⟩ := shown _ (published box boxMem _ boxFound)
    obtain rfl := Option.some.inj (boxFound.symm.trans found)
    exact (twice "setState").mpr ⟨by decide, member, has, isValue⟩

end ClassFactory
