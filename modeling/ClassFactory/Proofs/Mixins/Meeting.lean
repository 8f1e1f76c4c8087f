/-
Module: ClassFactory.Proofs.Mixins.Meeting
Purpose: What becomes of a signature while definitions of an ordinary member meet. A declaration lends
  its signature to the definition that it meets, and what a definition was lent is lost with it as
  soon as another one takes its place. So what counts is the mixin that brought the definition in
  place for the last time, the declaration that it met there, and the declarations after it.
Main exports: MemberDefinition.meet, Meets, Overrides, Admitted.meets, meetAll, Challenges, Seats,
  Opens, exists_opens_iff, BroughtLast.exists_seats, Seats.signed_iff
-/
import ClassFactory.Proofs.Mixins.Contest
import Mathlib.Data.List.Induction

namespace ClassFactory

/-! ## A definition meets another one -/

namespace MemberDefinition

/-- What is in place of an ordinary member after a definition has come to the one that was there. -/
def meet (includes : Includes) (existing incoming : MemberDefinition) : MemberDefinition :=
  if existing.definition = incoming.definition then existing
  else if incoming.isDeclared then
    if existing.isDeclared then existing else existing.inherit incoming
  else if existing.isDeclared then incoming.inherit existing
  else if includes incoming.origin existing.origin then incoming
  else if includes existing.origin incoming.origin then existing
  else incoming

/-- What is in place of an ordinary member after an own definition is written over it. -/
def overriddenBy (existing own : MemberDefinition) : MemberDefinition :=
  if own.isDeclared then if existing.isDeclared then own else existing.inherit own
  else if existing.isDeclared then own.inherit existing
  else own

/-- What is in place after something may have come to what may be there. -/
def meet? (includes : Includes) :
    Option MemberDefinition → Option MemberDefinition → Option MemberDefinition
  | none, incoming => incoming
  | some existing, none => some existing
  | some existing, some incoming => some (existing.meet includes incoming)

/-- What is in place after an own definition may have been written over what may be there. -/
def overriddenBy? : Option MemberDefinition → Option MemberDefinition → Option MemberDefinition
  | none, own => own
  | some existing, none => some existing
  | some existing, some own => some (existing.overriddenBy own)

/-- Whether the definition carries a signature. -/
def IsSigned (definition : MemberDefinition) : Prop := definition.signature? ≠ none

variable {definition declared : MemberDefinition}

/-- A declaration is not a value. -/
theorem isValue_of_isDeclared (isDeclared : definition.isDeclared = true) :
    definition.kind.isValue = false := by
  rw [MemberDefinition.isDeclared] at isDeclared
  cases isKind : definition.kind with
  | declared => rfl
  | method => rfl
  | value => simp [isKind, MemberKind.isDeclared] at isDeclared

theorem inherit_isDeclared : (definition.inherit declared).isDeclared = definition.isDeclared :=
  congrArg Holder.isDeclared (holder_inherit definition declared)

theorem inherit_isValue :
    (definition.inherit declared).kind.isValue = definition.kind.isValue := by
  rw [inherit]
  cases definition.kind with
  | method signature => cases signature <;> rfl
  | declared => rfl
  | value => rfl

/-- A method carries a signature after it met a declaration just if one of the two did before. -/
theorem inherit_isSigned (concrete : definition.isDeclared = false)
    (method : definition.kind.isValue = false) :
    (definition.inherit declared).IsSigned ↔ definition.IsSigned ∨ declared.IsSigned := by
  simp only [isDeclared, IsSigned, inherit, signature?] at concrete ⊢
  cases isKind : definition.kind with
  | method signature => cases signature <;> simp [MemberKind.fillSignature, MemberKind.signature?]
  | declared => simp [isKind, MemberKind.isDeclared] at concrete
  | value => simp [isKind, MemberKind.isValue] at method

end MemberDefinition

/-- What comes of a definition in place and a newcomer. -/
inductive Meets (edges : Nat → List (Nat × Site)) (existing incoming : MemberDefinition) :
    MemberDefinition → Prop where
  /-- Of two declarations the first one stays. -/
  | keeps (held : existing.isDeclared = true) (declared : incoming.isDeclared = true) :
      Meets edges existing incoming existing
  | lends (held : existing.isDeclared = false) (declared : incoming.isDeclared = true) :
      Meets edges existing incoming (existing.inherit incoming)
  | completes (held : existing.isDeclared = true) (concrete : incoming.isDeclared = false) :
      Meets edges existing incoming (incoming.inherit existing)
  | stays (held : existing.isDeclared = false) (concrete : incoming.isDeclared = false)
      (covers : Covers edges existing.origin incoming.origin) :
      Meets edges existing incoming existing
  | replaces (held : existing.isDeclared = false) (concrete : incoming.isDeclared = false)
      (apart : ¬ Covers edges existing.origin incoming.origin) :
      Meets edges existing incoming incoming

/-- What comes of a definition in place and an own one that is written over it. -/
inductive Overrides (existing own : MemberDefinition) : MemberDefinition → Prop where
  | repeats (held : existing.isDeclared = true) (declared : own.isDeclared = true) :
      Overrides existing own own
  | lends (held : existing.isDeclared = false) (declared : own.isDeclared = true) :
      Overrides existing own (existing.inherit own)
  | completes (held : existing.isDeclared = true) (concrete : own.isDeclared = false) :
      Overrides existing own (own.inherit existing)
  | replaces (held : existing.isDeclared = false) (concrete : own.isDeclared = false) :
      Overrides existing own own

/-- What remains of a definition that an own one overrides is an override of it. -/
theorem MemberDefinition.overrides (existing own : MemberDefinition) :
    Overrides existing own (existing.overriddenBy own) := by
  unfold overriddenBy
  cases held : existing.isDeclared <;> cases declared : own.isDeclared
  · exact .replaces held declared
  · exact .lends held declared
  · exact .completes held declared
  · exact .repeats held declared

/-- The definition is that of its origin, and of an origin that does not only declare the member it
is known what it includes. -/
structure Admitted (registry : Registry) (edges : Nat → List (Nat × Site)) (includes : Includes)
    (name : String) (definition : MemberDefinition) : Prop where
  rightful : definition.holder.Rightful registry name false
  informed : definition.isDeclared = false →
    ∀ inner, includes definition.origin inner = true ↔ Reaches edges definition.origin inner
  acyclic : definition.isDeclared = false → ¬ Reaches edges definition.origin definition.origin

section Meeting

variable {registry : Registry} {edges : Nat → List (Nat × Site)} {includes : Includes}
  {name : String} {existing incoming : MemberDefinition}

/-- An inherited signature does not change who is admitted. -/
theorem Admitted.inherit (admitted : Admitted registry edges includes name existing)
    (declared : MemberDefinition) :
    Admitted registry edges includes name (existing.inherit declared) where
  rightful := by
    rw [holder_inherit]
    exact admitted.rightful
  informed := by
    rw [MemberDefinition.inherit_isDeclared]
    exact admitted.informed
  acyclic := by
    rw [MemberDefinition.inherit_isDeclared]
    exact admitted.acyclic

/-- Under one name a definition is told by its origin. -/
theorem Admitted.definition_eq_iff (h : registry.WellFormed)
    (admitted : Admitted registry edges includes name existing)
    (other : Admitted registry edges includes name incoming) :
    existing.definition = incoming.definition ↔ existing.origin = incoming.origin :=
  ⟨fun same => congrArg Holder.origin
      (admitted.rightful.eq_of_definition h other.rightful same),
    fun same => congrArg Holder.definition (admitted.rightful.eq_of_origin other.rightful same)⟩

/-- Two definitions of one origin are both declarations or neither is. -/
theorem Admitted.isDeclared_eq (admitted : Admitted registry edges includes name existing)
    (other : Admitted registry edges includes name incoming)
    (same : existing.origin = incoming.origin) : existing.isDeclared = incoming.isDeclared :=
  congrArg Holder.isDeclared (admitted.rightful.eq_of_origin other.rightful same)

/-- The step: what a meeting can come to. -/
theorem Admitted.meets (h : registry.WellFormed)
    (held : Admitted registry edges includes name existing)
    (new : Admitted registry edges includes name incoming) :
    Meets edges existing incoming (existing.meet includes incoming) := by
  have sameKind := held.isDeclared_eq new
  simp only [MemberDefinition.meet, held.definition_eq_iff h new]
  cases isHeld : existing.isDeclared <;> cases isNew : incoming.isDeclared <;>
    rw [isHeld, isNew] at sameKind
  · -- two definitions: the newcomer gives way just if it is covered
    by_cases covers : Covers edges existing.origin incoming.origin
    · have stays := Meets.stays isHeld isNew covers
      rcases Relation.reflTransGen_iff_eq_or_transGen.mp covers with same | reaches
      · simpa [same] using stays
      · have under : includes incoming.origin existing.origin = false := by
          rw [Bool.eq_false_iff, Ne, new.informed isNew]
          exact fun back => held.acyclic isHeld (reaches.trans back)
        simpa [under, (held.informed isHeld _).mpr reaches] using stays
    · have differ : existing.origin ≠ incoming.origin := fun same => covers (same ▸ .refl)
      have apart : includes existing.origin incoming.origin = false := by
        rw [Bool.eq_false_iff, Ne, held.informed isHeld]
        exact fun reaches => covers reaches.to_reflTransGen
      simpa [differ, apart] using Meets.replaces isHeld isNew covers
  · have lends : Meets edges existing incoming _ := .lends isHeld isNew
    have differ : existing.origin ≠ incoming.origin := by simpa using sameKind
    simpa [differ] using lends
  · have completes : Meets edges existing incoming _ := .completes isHeld isNew
    have differ : existing.origin ≠ incoming.origin := by simpa using sameKind
    simpa [differ] using completes
  · have keeps : Meets edges existing incoming _ := .keeps isHeld isNew
    simpa using keeps

/-- Where two definitions that are admitted meet, what comes of it is admitted. -/
theorem Meets.admitted {met : MemberDefinition} (meets : Meets edges existing incoming met)
    (held : Admitted registry edges includes name existing)
    (new : Admitted registry edges includes name incoming) :
    Admitted registry edges includes name met := by
  cases meets with
  | keeps => exact held
  | lends => exact held.inherit _
  | completes => exact new.inherit _
  | stays => exact held
  | replaces => exact new

/-- Where one of two is more than a declaration, so is what comes of them. -/
theorem Meets.concrete {met : MemberDefinition} (meets : Meets edges existing incoming met)
    (either : existing.isDeclared = false ∨ incoming.isDeclared = false) :
    met.isDeclared = false := by
  cases meets with
  | keeps held declared => simp [held, declared] at either
  | lends held => exact MemberDefinition.inherit_isDeclared.trans held
  | completes _ concrete => exact MemberDefinition.inherit_isDeclared.trans concrete
  | stays held => exact held
  | replaces _ concrete => exact concrete

end Meeting

/-! ## Mixins come one after another -/

/-- What is in place after some mixins have come with what each has in place itself. -/
def meetAll (includes : Includes) (placed : Nat → Option MemberDefinition)
    (held : Option MemberDefinition) (mixins : List Nat) : Option MemberDefinition :=
  mixins.foldl (fun held mixin => MemberDefinition.meet? includes held (placed mixin)) held

/-- What the mixins come with is admitted. -/
def AdmittedAll (registry : Registry) (edges : Nat → List (Nat × Site)) (includes : Includes)
    (name : String) (placed : Nat → Option MemberDefinition) (mixins : List Nat) : Prop :=
  ∀ mixin ∈ mixins, ∀ definition, placed mixin = some definition →
    Admitted registry edges includes name definition

/-- The mixin comes with a definition to which one of the leader gives way. -/
def Challenges (edges : Nat → List (Nat × Site)) (placed : Nat → Option MemberDefinition)
    (leader mixin : Nat) : Prop :=
  ∃ definition, placed mixin = some definition ∧ definition.isDeclared = false ∧
    ¬ Covers edges leader definition.origin

/-- The mixin comes with the definition of the leader. -/
def Brings (placed : Nat → Option MemberDefinition) (leader mixin : Nat) : Prop :=
  ∃ definition, placed mixin = some definition ∧ definition.origin = leader

/-- The mixin comes with a declaration that carries a signature. -/
def Lends (placed : Nat → Option MemberDefinition) (mixin : Nat) : Prop :=
  ∃ definition, placed mixin = some definition ∧ definition.isDeclared = true ∧
    definition.IsSigned

/-- Among mixins that come one after another, the definition of the leader takes its place for the
last time with the one between `earlier` and `rest`. -/
structure Seats (edges : Nat → List (Nat × Site)) (placed : Nat → Option MemberDefinition)
    (leader : Nat) (earlier : List Nat) (first : Nat) (rest : List Nat) : Prop where
  brings : Brings placed leader first
  unchallenged : ∀ mixin ∈ rest, ¬ Challenges edges placed leader mixin
  /-- Wherever it was brought before, it has been displaced since. -/
  displaced : ∀ before other between, earlier = before ++ other :: between →
    Brings placed leader other → ∃ mixin ∈ between, Challenges edges placed leader mixin

/-- The definition of the leader was brought by some mixin, and nobody has challenged it since. -/
def BroughtLast (edges : Nat → List (Nat × Site)) (placed : Nat → Option MemberDefinition)
    (leader : Nat) (mixins : List Nat) : Prop :=
  ∃ earlier first rest, mixins = earlier ++ first :: rest ∧ Brings placed leader first ∧
    ∀ mixin ∈ rest, ¬ Challenges edges placed leader mixin

/-- None of the mixins comes with more than a declaration, and the first declaration is that of
`first`. -/
structure Opens (placed : Nat → Option MemberDefinition) (mixins : List Nat) (first : Nat) :
    Prop where
  undefined : ∀ mixin ∈ mixins, ∀ definition, placed mixin = some definition →
    definition.isDeclared = true
  first : mixins.find? (fun mixin => (placed mixin).isSome) = some first

/-- A definition seated between `earlier` and `rest` carries a signature, given whose definitions do:
it was brought with it, the declaration before it lent it, or one that came later. -/
def HandsOver (placed : Nat → Option MemberDefinition) (signed : Nat → Prop) (earlier : List Nat)
    (first : Nat) (rest : List Nat) : Prop :=
  signed first ∨ (∃ declaring, Opens placed earlier declaring ∧ signed declaring) ∨
    ∃ later ∈ rest, (∃ definition, placed later = some definition ∧
      definition.isDeclared = true) ∧ signed later

/-- How a definition is in place after mixins that do not challenge it. -/
structure Persists (placed : Nat → Option MemberDefinition) (mixins : List Nat)
    (before after : MemberDefinition) : Prop where
  origin : after.origin = before.origin
  concrete : after.isDeclared = false
  isValue : after.kind.isValue = before.kind.isValue
  signed : before.kind.isValue = false →
    (after.IsSigned ↔ before.IsSigned ∨ ∃ mixin ∈ mixins, Lends placed mixin)

section Run

variable {registry : Registry} {edges : Nat → List (Nat × Site)} {includes : Includes}
  {name : String} {placed : Nat → Option MemberDefinition} {mixins : List Nat} {leader : Nat}
  {held : Option MemberDefinition} {existing final : MemberDefinition}

/-- Mixins may be met in two turns. -/
theorem meetAll_append (mixins rest : List Nat) :
    meetAll includes placed held (mixins ++ rest) =
      meetAll includes placed (meetAll includes placed held mixins) rest :=
  List.foldl_append

theorem meetAll_cons (mixin : Nat) (rest : List Nat) :
    meetAll includes placed held (mixin :: rest) =
      meetAll includes placed (MemberDefinition.meet? includes held (placed mixin)) rest :=
  rfl

theorem AdmittedAll.subset (each : AdmittedAll registry edges includes name placed mixins)
    {fewer : List Nat} (part : fewer ⊆ mixins) :
    AdmittedAll registry edges includes name placed fewer :=
  fun mixin mem => each mixin (part mem)

/-- What all the mixins leave in place is admitted if each of them is. -/
theorem admitted_meetAll (h : registry.WellFormed)
    (each : AdmittedAll registry edges includes name placed mixins)
    (start : ∀ definition, held = some definition →
      Admitted registry edges includes name definition)
    (last : meetAll includes placed held mixins = some final) :
    Admitted registry edges includes name final := by
  refine List.foldlRecOn (motive := fun held => ∀ definition, held = some definition →
    Admitted registry edges includes name definition) mixins _ start ?_ final last
  intro held admitted mixin mem definition met
  cases held with
  | none => exact each mixin mem definition met
  | some existing =>
      cases comes : placed mixin with
      | none => exact admitted definition (by simpa [comes, MemberDefinition.meet?] using met)
      | some incoming =>
          obtain rfl : existing.meet includes incoming = definition := by
            simpa [comes, MemberDefinition.meet?] using met
          have new := each mixin mem incoming comes
          exact ((admitted existing rfl).meets h new).admitted (admitted existing rfl) new

/-! ### Declarations -/

/-- Mixins without the member leave what was in place. -/
theorem meetAll_absent (absent : ∀ mixin ∈ mixins, placed mixin = none) :
    meetAll includes placed held mixins = held := by
  refine List.foldlRecOn (motive := fun after => after = held) mixins _ rfl ?_
  rintro after same mixin mem
  rw [absent mixin mem, ← same]
  cases after <;> rfl

/-- The first of several declarations stays. -/
theorem meetAll_declared (isDeclared : existing.isDeclared = true)
    (undefined : ∀ mixin ∈ mixins, ∀ definition, placed mixin = some definition →
      definition.isDeclared = true) :
    meetAll includes placed (some existing) mixins = some existing := by
  refine List.foldlRecOn (motive := fun after => after = some existing) mixins _ rfl ?_
  rintro _ rfl mixin mem
  cases comes : placed mixin with
  | none => rfl
  | some incoming =>
      simp [MemberDefinition.meet?, MemberDefinition.meet, isDeclared,
        undefined mixin mem incoming comes]

/-- Once there is more than a declaration, there always is. -/
theorem meetAll_concrete (h : registry.WellFormed)
    (each : AdmittedAll registry edges includes name placed mixins)
    (admitted : Admitted registry edges includes name existing)
    (concrete : existing.isDeclared = false) :
    ∃ final, meetAll includes placed (some existing) mixins = some final ∧
      final.isDeclared = false := by
  induction mixins generalizing existing with
  | nil => exact ⟨existing, rfl, concrete⟩
  | cons mixin rest ih =>
      have restEach := each.subset (List.subset_cons_self mixin rest)
      rw [meetAll_cons]
      cases comes : placed mixin with
      | none => exact ih restEach admitted concrete
      | some incoming =>
          have new := each mixin List.mem_cons_self incoming comes
          have meets := admitted.meets h new
          exact ih restEach (meets.admitted admitted new) (meets.concrete (.inl concrete))

/-- What only is declared in the end has never been more than declared. -/
theorem undefined_of_declared (h : registry.WellFormed)
    (each : AdmittedAll registry edges includes name placed mixins)
    (last : meetAll includes placed none mixins = some final)
    (isDeclared : final.isDeclared = true) :
    ∀ mixin ∈ mixins, ∀ definition, placed mixin = some definition →
      definition.isDeclared = true := by
  intro mixin mem definition comes
  by_contra defined
  have concrete : definition.isDeclared = false := by simpa using defined
  obtain ⟨before, after, rfl⟩ := List.append_of_mem mem
  have new := each mixin mem definition comes
  obtain ⟨met, meets, metAdmitted, metConcrete⟩ : ∃ met,
      MemberDefinition.meet? includes (meetAll includes placed none before) (placed mixin) =
        some met ∧ Admitted registry edges includes name met ∧ met.isDeclared = false := by
    rw [comes]
    cases earlier : meetAll includes placed none before with
    | none => exact ⟨definition, rfl, new, concrete⟩
    | some existing =>
        have earlyEach := each.subset (List.subset_append_left before (mixin :: after))
        have admitted := admitted_meetAll h earlyEach (by simp) earlier
        have meets := admitted.meets h new
        exact ⟨_, rfl, meets.admitted admitted new, meets.concrete (.inr concrete)⟩
  have laterEach : AdmittedAll registry edges includes name placed after :=
    each.subset fun _ later => List.mem_append_right _ (List.mem_cons_of_mem _ later)
  obtain ⟨_, lastMet, lastConcrete⟩ := meetAll_concrete h laterEach metAdmitted metConcrete
  rw [meetAll_append, meetAll_cons, meets, lastMet, Option.some.injEq] at last
  rw [last, isDeclared] at lastConcrete
  cases lastConcrete

/-- Whoever opens for a name has a declaration of it. -/
theorem Opens.exists_declared {first : Nat} (opens : Opens placed mixins first) :
    ∃ declared, placed first = some declared := by
  obtain ⟨isSome, -⟩ := List.find?_eq_some_iff_append.mp opens.first
  exact Option.isSome_iff_exists.mp isSome

/-- A declaration is in place just if nothing is defined, and it is the first one. -/
theorem exists_opens_iff (h : registry.WellFormed)
    (each : AdmittedAll registry edges includes name placed mixins) :
    (∃ first, Opens placed mixins first ∧ placed first = some final) ↔
      meetAll includes placed none mixins = some final ∧ final.isDeclared = true := by
  have opened : ∀ first, Opens placed mixins first → placed first = some final →
      meetAll includes placed none mixins = some final ∧ final.isDeclared = true := by
    intro first opens comes
    obtain ⟨-, before, after, rfl, silent⟩ := List.find?_eq_some_iff_append.mp opens.first
    have isDeclared : final.isDeclared = true := opens.undefined first (by simp) final comes
    have absent : meetAll includes placed none before = none :=
      meetAll_absent fun mixin mem => by simpa using silent mixin mem
    refine ⟨?_, isDeclared⟩
    rw [meetAll_append, absent, meetAll_cons, comes]
    exact meetAll_declared isDeclared fun mixin mem =>
      opens.undefined mixin (List.mem_append_right _ (List.mem_cons_of_mem _ mem))
  refine ⟨fun ⟨first, opens, comes⟩ => opened first opens comes, fun ⟨last, isDeclared⟩ => ?_⟩
  have undefined := undefined_of_declared h each last isDeclared
  cases found : mixins.find? (fun mixin => (placed mixin).isSome) with
  | none =>
      have absent : ∀ mixin ∈ mixins, placed mixin = none := fun mixin mem => by
        simpa using List.find?_eq_none.mp found mixin mem
      rw [meetAll_absent absent] at last
      cases last
  | some first =>
      obtain ⟨comes, before, after, rfl, silent⟩ := List.find?_eq_some_iff_append.mp found
      obtain ⟨definition, same⟩ := Option.isSome_iff_exists.mp comes
      refine ⟨first, ⟨undefined, found⟩, ?_⟩
      have absent : meetAll includes placed none before = none :=
        meetAll_absent fun mixin mem => by simpa using silent mixin mem
      rw [meetAll_append, absent, meetAll_cons, same, MemberDefinition.meet?,
        meetAll_declared (undefined first (by simp) definition same) fun mixin mem =>
          undefined mixin (List.mem_append_right _ (List.mem_cons_of_mem _ mem))] at last
      rw [same, last]

/-! ### Definitions -/

/-- A definition that covers what the leader covers stays as long as nobody challenges the leader,
and takes the signatures that are lent to it. -/
theorem exists_persists (h : registry.WellFormed)
    (each : AdmittedAll registry edges includes name placed mixins)
    (admitted : Admitted registry edges includes name existing)
    (concrete : existing.isDeclared = false) (covers : Covers edges existing.origin leader)
    (unchallenged : ∀ mixin ∈ mixins, ¬ Challenges edges placed leader mixin) :
    ∃ final, meetAll includes placed (some existing) mixins = some final ∧
      Persists placed mixins existing final := by
  induction mixins generalizing existing with
  | nil => exact ⟨existing, rfl, rfl, concrete, rfl, fun _ => by simp⟩
  | cons mixin rest ih =>
      have restEach := each.subset (List.subset_cons_self mixin rest)
      have restUnchallenged := fun other mem =>
        unchallenged other (List.mem_cons_of_mem mixin mem)
      rw [meetAll_cons]
      cases comes : placed mixin with
      | none =>
          obtain ⟨final, last, persists⟩ :=
            ih restEach admitted concrete covers restUnchallenged
          refine ⟨final, last, persists.origin, persists.concrete, persists.isValue,
            fun method => ?_⟩
          simp [persists.signed method, Lends, comes]
      | some incoming =>
          have new := each mixin List.mem_cons_self incoming comes
          have meets := admitted.meets h new
          rw [MemberDefinition.meet?]
          generalize existing.meet includes incoming = met at meets ⊢
          cases meets with
          | keeps isDeclared => rw [concrete] at isDeclared; cases isDeclared
          | completes isDeclared => rw [concrete] at isDeclared; cases isDeclared
          | lends _ declared =>
              obtain ⟨final, last, persists⟩ := ih restEach (admitted.inherit incoming)
                (MemberDefinition.inherit_isDeclared.trans concrete) covers restUnchallenged
              refine ⟨final, last, persists.origin, persists.concrete,
                persists.isValue.trans MemberDefinition.inherit_isValue, fun method => ?_⟩
              rw [persists.signed (MemberDefinition.inherit_isValue.trans method),
                MemberDefinition.inherit_isSigned concrete method]
              simp [Lends, comes, declared, or_assoc]
          | stays _ newConcrete =>
              obtain ⟨final, last, persists⟩ :=
                ih restEach admitted concrete covers restUnchallenged
              refine ⟨final, last, persists.origin, persists.concrete, persists.isValue,
                fun method => ?_⟩
              simp [persists.signed method, Lends, comes, newConcrete]
          | replaces _ newConcrete apart =>
              refine absurd ⟨incoming, comes, newConcrete, fun under => ?_⟩
                (unchallenged mixin List.mem_cons_self)
              exact apart (covers.trans under)

/-! ### The seat -/

theorem BroughtLast.here {mixin : Nat} (brings : Brings placed leader mixin) :
    BroughtLast edges placed leader (mixins ++ [mixin]) :=
  ⟨mixins, mixin, [], rfl, brings, by simp⟩

theorem BroughtLast.before {mixin : Nat} (brought : BroughtLast edges placed leader mixins)
    (unchallenged : ¬ Challenges edges placed leader mixin) :
    BroughtLast edges placed leader (mixins ++ [mixin]) := by
  obtain ⟨earlier, first, rest, rfl, brings, quiet⟩ := brought
  refine ⟨earlier, first, rest ++ [mixin], by simp, brings, fun other mem => ?_⟩
  rcases List.mem_append.mp mem with old | new
  · exact quiet other old
  · rwa [List.mem_singleton.mp new]

/-- What is in place at the end was brought by some mixin, and nobody has challenged it since. -/
theorem broughtLast_of_meetAll (h : registry.WellFormed)
    (each : AdmittedAll registry edges includes name placed mixins)
    (last : meetAll includes placed none mixins = some final)
    (concrete : final.isDeclared = false) : BroughtLast edges placed final.origin mixins := by
  induction mixins using List.reverseRecOn generalizing final with
  | nil => cases last
  | append_singleton early mixin ih =>
      have earlyEach := each.subset (List.subset_append_left early [mixin])
      have met : MemberDefinition.meet? includes (meetAll includes placed none early)
          (placed mixin) = some final := by rwa [meetAll_append] at last
      cases comes : placed mixin with
      | none =>
          have same : meetAll includes placed none early = some final := by
            rw [comes] at met
            cases held : meetAll includes placed none early <;> rwa [held] at met
          exact (ih earlyEach same concrete).before fun ⟨_, placedHere, _⟩ => by
            rw [comes] at placedHere
            cases placedHere
      | some incoming =>
          have new := each mixin (by simp) incoming comes
          cases held : meetAll includes placed none early with
          | none =>
              rw [comes, held, MemberDefinition.meet?, Option.some.injEq] at met
              exact .here ⟨incoming, comes, congrArg _ met⟩
          | some existing =>
              have meets := (admitted_meetAll h earlyEach (by simp) held).meets h new
              rw [comes, held, MemberDefinition.meet?, Option.some.injEq] at met
              rw [met] at meets
              cases meets with
              | keeps isDeclared => rw [concrete] at isDeclared; cases isDeclared
              | lends wasConcrete declared =>
                  refine (ih earlyEach held wasConcrete).before ?_
                  rintro ⟨again, placedHere, newConcrete, -⟩
                  obtain rfl := Option.some.inj (comes.symm.trans placedHere)
                  rw [declared] at newConcrete
                  cases newConcrete
              | completes => exact .here ⟨incoming, comes, rfl⟩
              | stays _ _ covers =>
                  refine (ih earlyEach held concrete).before ?_
                  rintro ⟨again, placedHere, -, apart⟩
                  obtain rfl := Option.some.inj (comes.symm.trans placedHere)
                  exact apart covers
              | replaces => exact .here ⟨final, comes, rfl⟩

/-- A mixin does not challenge a definition that it brings itself. -/
theorem Brings.not_challenges {mixin : Nat} (brings : Brings placed leader mixin) :
    ¬ Challenges edges placed leader mixin := by
  rintro ⟨definition, comes, -, apart⟩
  obtain ⟨again, comesAgain, rfl⟩ := brings
  obtain rfl := Option.some.inj (comes.symm.trans comesAgain)
  exact apart .refl

/-- The first mixin that brought the definition without a challenge since is the one to count. -/
theorem BroughtLast.exists_seats (brought : BroughtLast edges placed leader mixins) :
    ∃ earlier first rest, mixins = earlier ++ first :: rest ∧
      Seats edges placed leader earlier first rest := by
  induction mixins with
  | nil =>
      obtain ⟨earlier, first, rest, split, -⟩ := brought
      simp at split
  | cons mixin others ih =>
      by_cases here : Brings placed leader mixin ∧
          ∀ other ∈ others, ¬ Challenges edges placed leader other
      · exact ⟨[], mixin, others, rfl, here.1, here.2, fun before _ _ split _ => by
          cases before <;> cases split⟩
      · have later : BroughtLast edges placed leader others := by
          obtain ⟨earlier, first, rest, split, brings, quiet⟩ := brought
          cases earlier with
          | nil =>
              obtain ⟨rfl, rfl⟩ := List.cons.inj split
              exact absurd ⟨brings, quiet⟩ here
          | cons _ more => exact ⟨more, first, rest, (List.cons.inj split).2, brings, quiet⟩
        obtain ⟨earlier, first, rest, rfl, seats⟩ := ih later
        refine ⟨mixin :: earlier, first, rest, rfl, seats.brings, seats.unchallenged, ?_⟩
        intro before other between split brings
        cases before with
        | nil =>
            obtain ⟨rfl, rfl⟩ := List.cons.inj split
            -- someone challenges it later, and that is neither the first mixin nor one after it
            by_contra calm
            refine here ⟨brings, fun challenger mem challenges => ?_⟩
            rcases List.mem_append.mp mem with isEarlier | isLater
            · exact calm ⟨challenger, isEarlier, challenges⟩
            · rcases List.mem_cons.mp isLater with rfl | isRest
              · exact seats.brings.not_challenges challenges
              · exact seats.unchallenged challenger isRest challenges
        | cons _ more => exact seats.displaced more other between (List.cons.inj split).2 brings

/-- A method in place at the end carries a signature just if it did when it was brought, met a
declaration there that carries one, or one came later. -/
theorem Seats.signed_iff (h : registry.WellFormed) {earlier rest : List Nat} {first : Nat}
    (each : AdmittedAll registry edges includes name placed (earlier ++ first :: rest))
    (last : meetAll includes placed none (earlier ++ first :: rest) = some final)
    (concrete : final.isDeclared = false) (method : final.kind.isValue = false)
    (seats : Seats edges placed final.origin earlier first rest) :
    ∃ brought, placed first = some brought ∧ brought.kind.isValue = false ∧
      (final.IsSigned ↔ brought.IsSigned ∨
        (∃ declared, meetAll includes placed none earlier = some declared ∧
          declared.isDeclared = true ∧ declared.IsSigned) ∨
        ∃ mixin ∈ rest, Lends placed mixin) := by
  obtain ⟨brought, comes, sameOrigin⟩ := seats.brings
  have earlyEach := each.subset (List.subset_append_left earlier (first :: rest))
  have restEach : AdmittedAll registry edges includes name placed rest :=
    each.subset fun _ later => List.mem_append_right _ (List.mem_cons_of_mem _ later)
  have new := each first (by simp) brought comes
  have broughtConcrete : brought.isDeclared = false :=
    (new.isDeclared_eq (admitted_meetAll h each (by simp) last) sameOrigin).trans concrete
  rw [meetAll_append, meetAll_cons, comes] at last
  /- Whatever covers the leader when `first` has come stays to the end, so it is the leader, and its
  signature is the one it has here or one that is lent later. -/
  have persists : ∀ seated, MemberDefinition.meet? includes (meetAll includes placed none earlier)
      (some brought) = some seated → Admitted registry edges includes name seated →
      seated.isDeclared = false → Covers edges seated.origin final.origin →
      Persists placed rest seated final := by
    intro seated isSeated admitted seatedConcrete covers
    obtain ⟨again, lastAgain, persists⟩ :=
      exists_persists h restEach admitted seatedConcrete covers seats.unchallenged
    rw [isSeated, lastAgain] at last
    exact Option.some.inj last ▸ persists
  cases held : meetAll includes placed none earlier with
  | none =>
      have seated := persists brought (by rw [held]; rfl) new broughtConcrete (sameOrigin ▸ .refl)
      have broughtMethod := seated.isValue.symm.trans method
      exact ⟨brought, comes, broughtMethod, by simp [seated.signed broughtMethod]⟩
  | some existing =>
      have admitted := admitted_meetAll h earlyEach (by simp) held
      have meets := admitted.meets h new
      have metSigned := persists _ (by rw [held]; rfl) (meets.admitted admitted new)
        (meets.concrete (.inr broughtConcrete))
      generalize existing.meet includes brought = met at meets metSigned
      cases meets with
      | keeps _ declared => rw [broughtConcrete] at declared; cases declared
      | lends _ declared => rw [broughtConcrete] at declared; cases declared
      | completes isDeclared =>
          have seated := metSigned (sameOrigin ▸ .refl)
          have metMethod := seated.isValue.symm.trans method
          have broughtMethod := MemberDefinition.inherit_isValue.symm.trans metMethod
          refine ⟨brought, comes, broughtMethod, ?_⟩
          rw [seated.signed metMethod, MemberDefinition.inherit_isSigned broughtConcrete
            broughtMethod]
          simp [isDeclared, or_assoc]
      | stays existingConcrete _ covers =>
          -- then it was the leader already, and somebody has displaced it before `first`
          have seated := metSigned (sameOrigin ▸ covers)
          have before := broughtLast_of_meetAll h earlyEach held existingConcrete
          rw [← seated.origin] at before
          obtain ⟨start, other, between, split, brings, quiet⟩ := before
          obtain ⟨challenger, mem, challenges⟩ := seats.displaced start other between split brings
          exact absurd challenges (quiet challenger mem)
      | replaces existingConcrete =>
          have seated := metSigned (sameOrigin ▸ .refl)
          have broughtMethod := seated.isValue.symm.trans method
          refine ⟨brought, comes, broughtMethod, ?_⟩
          simp [existingConcrete, seated.signed broughtMethod]

end Run

end ClassFactory
