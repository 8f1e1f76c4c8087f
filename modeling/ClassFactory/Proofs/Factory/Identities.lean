/-
Module: ClassFactory.Proofs.Factory.Identities
Purpose: Definitions keep apart. Within a specification every member and every static is entered under
  a number that was not given out before, and a call owns what its specification holds; so across all
  calls of a compilation no definition stands for two members or statics.
Main exports: FactorySpec.definitions, FactorySpec.Distinct, Keyed.exists_values_insert,
  definitions_distinct
-/
import ClassFactory.Proofs.Factory.Specified
import Mathlib.Data.List.Nodup

namespace ClassFactory

open Script (Property)

/-! ## Definitions of a specification -/

/-- The definitions that a specification holds: those of its members, then those of its statics. -/
def FactorySpec.definitions (spec : FactorySpec) : List DefinitionId :=
  spec.members.values.map SpecMember.definition ++ spec.statics.values.map StaticDef.definition

/-- No two definitions of the specification are the same, the call of that number owns them all, and
their numbers were given out. -/
structure FactorySpec.Distinct (owner : Nat) (spec : FactorySpec) : Prop where
  nodup : spec.definitions.Nodup
  owned : ∀ definition ∈ spec.definitions, definition.owner = owner
  numbered : ∀ definition ∈ spec.definitions, definition.index < spec.definitionCount

/-- The values after writing one: some of the earlier values, in their order, and among them the new
one. -/
theorem Keyed.exists_values_insert {α : Type} (map : Keyed α) (name : String) (value : α) :
    ∃ before after, (map.insert name value).values = before ++ value :: after ∧
      (before ++ after).Sublist map.values := by
  obtain ⟨entries⟩ := map
  unfold Keyed.insert Keyed.values
  dsimp only
  induction entries with
  | nil => exact ⟨[], [], rfl, .refl []⟩
  | cons entry rest ih =>
      obtain ⟨key, old⟩ := entry
      rw [write]
      split
      · exact ⟨[], rest.map Prod.snd, rfl, List.sublist_cons_self ..⟩
      · obtain ⟨before, after, written, kept⟩ := ih
        exact ⟨old :: before, after, by rw [List.map_cons, written, List.cons_append],
          kept.cons_cons old⟩

namespace FactorySpec

variable {owner : Nat} {spec result : FactorySpec}

theorem Distinct.empty : FactorySpec.empty.Distinct owner :=
  ⟨List.nodup_nil, fun _ none => absurd none List.not_mem_nil,
    fun _ none => absurd none List.not_mem_nil⟩

/-- Only the definitions and how many were numbered matter. -/
theorem Distinct.of_same (distinct : spec.Distinct owner)
    (definitions : result.definitions = spec.definitions)
    (count : result.definitionCount = spec.definitionCount) : result.Distinct owner :=
  ⟨definitions ▸ distinct.nodup, definitions ▸ distinct.owned,
    definitions ▸ count ▸ distinct.numbered⟩

/-- A definition under the next number may be put anywhere among those that are there, and take the
place of some. -/
theorem Distinct.add (distinct : spec.Distinct owner) (before after : List DefinitionId)
    (definitions : result.definitions = before ++ ⟨owner, spec.definitionCount⟩ :: after)
    (kept : (before ++ after).Sublist spec.definitions)
    (count : result.definitionCount = spec.definitionCount + 1) : result.Distinct owner := by
  have cases : ∀ definition ∈ result.definitions,
      definition = ⟨owner, spec.definitionCount⟩ ∨ definition ∈ spec.definitions := by
    intro definition mem
    rw [definitions, List.mem_append, List.mem_cons] at mem
    rcases mem with front | rfl | back
    · exact .inr (kept.subset (List.mem_append_left _ front))
    · exact .inl rfl
    · exact .inr (kept.subset (List.mem_append_right _ back))
  refine ⟨?_, ?_, ?_⟩
  · -- the number was not given out before
    have fresh : ⟨owner, spec.definitionCount⟩ ∉ spec.definitions := fun mem =>
      Nat.lt_irrefl _ (distinct.numbered _ mem)
    rw [definitions, List.nodup_middle, List.nodup_cons]
    exact ⟨fun mem => fresh (kept.subset mem), distinct.nodup.sublist kept⟩
  · intro definition mem
    rcases cases definition mem with rfl | earlier
    · rfl
    · exact distinct.owned definition earlier
  · intro definition mem
    rw [count]
    rcases cases definition mem with rfl | earlier
    · exact Nat.lt_succ_self _
    · exact Nat.lt_succ_of_lt (distinct.numbered definition earlier)

/-- A member that is added is told from all the others. -/
theorem Distinct.addMember (distinct : spec.Distinct owner) (name : String) (site : Site)
    (kind : MemberKind) (isPrivate : Bool) :
    (spec.addMember owner name site kind isPrivate).Distinct owner := by
  let member : SpecMember :=
    { definition := ⟨owner, spec.definitionCount⟩, name := name, site := site, kind := kind,
      isPrivate := isPrivate }
  obtain ⟨before, after, written, kept⟩ := spec.members.exists_values_insert name member
  refine distinct.add (before.map SpecMember.definition)
    (after.map SpecMember.definition ++ spec.statics.values.map StaticDef.definition) ?_ ?_ rfl
  · have held : (spec.addMember owner name site kind isPrivate).definitions =
        (spec.members.insert name member).values.map SpecMember.definition ++
          spec.statics.values.map StaticDef.definition := rfl
    rw [held, written, List.map_append, List.map_cons, List.append_assoc, List.cons_append]
  · rw [← List.append_assoc, ← List.map_append]
    exact (kept.map SpecMember.definition).append_right _

/-- A static that is added is told from all the others. -/
theorem Distinct.addStatic (distinct : spec.Distinct owner) (name : String) (site : Site)
    (type : Ty) : (spec.addStatic owner name site type).Distinct owner := by
  let entry : StaticDef :=
    { definition := ⟨owner, spec.definitionCount⟩, name := name, site := site, type := type }
  obtain ⟨before, after, written, kept⟩ := spec.statics.exists_values_insert name entry
  refine distinct.add
    (spec.members.values.map SpecMember.definition ++ before.map StaticDef.definition)
    (after.map StaticDef.definition) ?_ ?_ rfl
  · have held : (spec.addStatic owner name site type).definitions =
        spec.members.values.map SpecMember.definition ++
          (spec.statics.insert name entry).values.map StaticDef.definition := rfl
    rw [held, written, List.map_append, List.map_cons, List.append_assoc]
  · rw [List.append_assoc, ← List.map_append]
    exact (kept.map StaticDef.definition).append_left _

/-- Statics that are added one after another are told apart. -/
theorem AddsStatics.distinct (adds : spec.AddsStatics owner result)
    (distinct : spec.Distinct owner) : result.Distinct owner := by
  induction adds with
  | done => exact distinct
  | next _ name site type ih => exact ih.addStatic name site type

end FactorySpec

/-! ## Reading and declaring -/

section Reading

variable {unit : SourceUnit} {owner : Nat} {spec result : FactorySpec}

/-- Hints add no definitions. -/
theorem enterHints_distinct (distinct : spec.Distinct owner) (name : String) (doc : DocBlock)
    (value : Script.Expr) (span : Span) :
    (enterHints unit spec name doc value span).Distinct owner := by
  unfold enterHints
  split
  · split
    · exact distinct.of_same rfl rfl
    · exact distinct
  · exact distinct.of_same rfl rfl
  · exact distinct

/-- Whatever a property makes of a specification has definitions that differ. -/
theorem SourceUnit.Enters.distinct {property : Property}
    (enters : unit.Enters owner spec property result) (distinct : spec.Distinct owner) :
    result.Distinct owner := by
  cases enters with
  | statics _ adds => exact adds.distinct distinct
  | member value span => exact (enterHints_distinct distinct _ _ _ _).addMember _ _ _ _
  | ignored => exact distinct
  | mixins | propTypes | displayName => exact distinct.of_same rfl rfl

/-- The definitions of a specification that was read differ, whatever was entered over. -/
theorem buildSpec_distinct {kind : FactoryKind} {properties : List Property}
    (built : buildSpec unit owner kind properties = .ok spec) : spec.Distinct owner :=
  foldlM_preserves (fun _ _ _ distinct entered => (enterProperty_ok entered).distinct distinct)
    .empty built

/-- A method that is declared apart gets a definition of its own, or leaves all definitions as they
are. -/
theorem FactoryCall.Declares.distinct {declaration : AbstractDecl} {call changed : FactoryCall}
    (declares : call.Declares declaration changed) (distinct : call.spec.Distinct call.id) :
    changed.spec.Distinct changed.id := by
  cases declares with
  | adds fresh =>
      refine distinct.add (call.spec.members.values.map SpecMember.definition)
        (call.spec.statics.values.map StaticDef.definition) ?_ (.refl _) rfl
      simp [FactorySpec.definitions, Keyed.values]
  | fills entries first unsigned =>
      refine distinct.of_same ?_ rfl
      simp [FactorySpec.definitions, Keyed.values, entries]
  | keeps found settled => exact distinct

/-- Declarations that are attached are told apart from the definitions and from each other. -/
theorem FactoryCall.DeclaresAll.distinct {declarations : List AbstractDecl}
    {call changed : FactoryCall} (declares : call.DeclaresAll declarations changed)
    (distinct : call.spec.Distinct call.id) : changed.spec.Distinct changed.id := by
  induction declares with
  | nil call => exact distinct
  | cons here _ ih => exact ih (here.distinct distinct)

end Reading

/-! ## Calls of a compilation -/

/-- The specification of every call holds definitions that differ and that the call owns. -/
theorem distinct_of_collected {options : Options} {files : List ParsedFile} {call : FactoryCall}
    (recorded : call ∈ (collectAll options files).calls) : call.spec.Distinct call.id := by
  obtain ⟨parsed, -, properties, node, -, collected, declarations, specifies, declares⟩ :=
    exists_specifies recorded
  exact declares.distinct (buildSpec_distinct specifies.reads)

/-- Whatever programs are collected, all members and statics of all calls have definitions that
differ, and each is owned by the call whose specification holds it. -/
theorem definitions_distinct (options : Options) (files : List ParsedFile) :
    ((collectAll options files).calls.flatMap fun call => call.spec.definitions).Nodup ∧
    ∀ call ∈ (collectAll options files).calls, ∀ definition ∈ call.spec.definitions,
      definition.owner = call.id := by
  refine ⟨?_, fun call recorded => (distinct_of_collected recorded).owned⟩
  rw [List.nodup_flatMap]
  refine ⟨fun call recorded => (distinct_of_collected recorded).nodup, ?_⟩
  have apart := List.pairwise_map.mp (collectAll_wellFormed options files).ids_nodup
  refine apart.imp_of_mem fun {one other} oneRecorded otherRecorded differ => ?_
  intro definition inOne inOther
  apply differ
  rw [← (distinct_of_collected oneRecorded).owned definition inOne,
    ← (distinct_of_collected otherRecorded).owned definition inOther]

/-- A mixin with repeated keys, two blocks of statics and a method that is declared apart; a second
call of its name, and a component. -/
def repeatedText : String :=
  "var S = React.createMixin(\x7bf() \x7b\x7d, f() \x7b\x7d, statics: \x7ba: 1\x7d, " ++
    "statics: \x7ba: 2, b: 3\x7d\x7d); S = React.createClass(\x7b\x7d); " ++
    "/** @return \x7bT\x7d */ S.g; U = React.createClass(\x7bf() \x7b\x7d\x7d)"

/-- The mixin keeps the last of each repeated key and gives what is declared apart the next number;
the component has the next number of a call that is recorded. -/
theorem definitions_distinct_repeated :
    ∃ program, Script.parseProgram? repeatedText = some program ∧
      ((collectAll .standard [⟨0, repeatedText, program⟩]).calls.map fun call =>
        call.spec.definitions) = [[⟨0, 1⟩, ⟨0, 5⟩, ⟨0, 3⟩, ⟨0, 4⟩], [⟨1, 0⟩]] ∧
      ((collectAll .standard [⟨0, repeatedText, program⟩]).calls.flatMap fun call =>
        call.spec.definitions).Nodup := by
  have collected : (Script.parseProgram? repeatedText).map (fun program =>
      (collectAll .standard [⟨0, repeatedText, program⟩]).calls.map fun call =>
        call.spec.definitions) = some [[⟨0, 1⟩, ⟨0, 5⟩, ⟨0, 3⟩, ⟨0, 4⟩], [⟨1, 0⟩]] := by
    decide +kernel
  obtain ⟨program, parses, definitions⟩ := Option.map_eq_some_iff.mp collected
  exact ⟨program, parses, definitions,
    (definitions_distinct .standard [⟨0, repeatedText, program⟩]).1⟩

end ClassFactory
