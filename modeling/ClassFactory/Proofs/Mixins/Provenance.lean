/-
Module: ClassFactory.Proofs.Mixins.Provenance
Purpose: Where the ordinary members and the statics of a surface come from. Every operation draws what
  it puts in place from what it is given, so under each name something is gathered from the covered
  calls as soon as one of them supplies it, and it descends from one of their specifications.
Main exports: covered, Contributes, Descends, StaticDescends, Drawn, Gathered, surface_gathered,
  surface_static_gathered
-/
import ClassFactory.Proofs.Mixins.Seat

namespace ClassFactory

/-! ## What calls contribute -/

/-- The calls that a call covers: itself and all that it includes, directly or through others. -/
def covered (registry : Registry) (options : Options) (id : Nat) : Set Nat :=
  { mixin | Covers (edges registry options) id mixin }

/-- The call of that number has a member of that name which shows in its surface. A hook that is
only declared does not. -/
def Contributes (registry : Registry) (name : String) (id : Nat) : Prop :=
  ∃ call, registry.get? id = some call ∧ ∃ member, call.spec.member? name = some member ∧
    (Hook.ofName? name = none ∨ member.kind.isDeclared = false)

/-- One of the calls declares the member with that signature, without a definition. -/
def DeclaresSignature (registry : Registry) (name : String) (calls : Set Nat)
    (signature : Signature) : Prop :=
  ∃ id ∈ calls, ∃ call, registry.get? id = some call ∧
    ∃ member, call.spec.member? name = some member ∧ member.kind = .declared (some signature)

/-- The definition is the one that its origin, one of the calls, has of the member itself; only its
signature may be one that a call declares. -/
def Descends (registry : Registry) (name : String) (calls : Set Nat)
    (definition : MemberDefinition) : Prop :=
  definition.origin ∈ calls ∧ ∃ call member, registry.get? definition.origin = some call ∧
    call.spec.member? name = some member ∧ ∃ signature : Option Signature,
      (∀ declared, signature = some declared → DeclaresSignature registry name calls declared) ∧
      definition =
        { MemberDefinition.ofMember member with kind := member.kind.fillSignature signature }

/-- The static is the one that its origin, one of the calls, has itself. -/
def StaticDescends (registry : Registry) (name : String) (calls : Set Nat) (entry : StaticMember) :
    Prop :=
  entry.origin ∈ calls ∧ ∃ call own, registry.get? entry.origin = some call ∧
    call.spec.statics.get? name = some own ∧ entry = StaticMember.ofStatic own

/-! ## Provenance -/

section Provenance

variable {registry : Registry} {name : String} {calls more : Set Nat}

/-- Without a signature there is nothing to fill in. -/
theorem MemberKind.fillSignature_none (kind : MemberKind) : kind.fillSignature none = kind := by
  unfold fillSignature
  split <;> rfl

/-- The signature that is filled in first counts. -/
theorem MemberKind.fillSignature_twice (kind : MemberKind) (first second : Option Signature) :
    (kind.fillSignature first).fillSignature second = kind.fillSignature (first.or second) := by
  cases kind with
  | method signature =>
      cases signature with
      | none => cases first <;> rfl
      | some => rfl
  | declared => rfl
  | value => rfl

theorem DeclaresSignature.mono {signature : Signature}
    (declares : DeclaresSignature registry name calls signature) (part : calls ⊆ more) :
    DeclaresSignature registry name more signature := by
  obtain ⟨id, mem, declared⟩ := declares
  exact ⟨id, part mem, declared⟩

/-- What descends from some calls descends from more. -/
theorem Descends.mono {definition : MemberDefinition}
    (descends : Descends registry name calls definition) (part : calls ⊆ more) :
    Descends registry name more definition := by
  obtain ⟨mem, call, member, found, has, signature, declared, same⟩ := descends
  exact ⟨part mem, call, member, found, has, signature,
    fun given is => (declared given is).mono part, same⟩

theorem StaticDescends.mono {entry : StaticMember}
    (descends : StaticDescends registry name calls entry) (part : calls ⊆ more) :
    StaticDescends registry name more entry :=
  ⟨part descends.1, descends.2⟩

/-- The own definition of a call descends from it. -/
theorem Descends.own (h : registry.WellFormed) {call : FactoryCall} (mem : call ∈ registry.calls)
    (listed : call.id ∈ calls) {member : SpecMember}
    (has : call.spec.member? name = some member) :
    Descends registry name calls (MemberDefinition.ofMember member) := by
  have origin : (MemberDefinition.ofMember member).origin = call.id :=
    ((h.specs call mem).members.of_get? has).2
  refine ⟨?_, call, member, ?_, has, none, by simp, ?_⟩
  · rwa [origin]
  · rw [origin]
    exact h.get?_id mem
  · rw [member.kind.fillSignature_none]
    rfl

/-- A definition that takes the signature of a declaration descends as it did. -/
theorem Descends.inherit {definition declared : MemberDefinition}
    (descends : Descends registry name calls definition)
    (lends : Descends registry name calls declared) (isDeclared : declared.isDeclared = true) :
    Descends registry name calls (definition.inherit declared) := by
  obtain ⟨mem, call, member, found, has, signature, given, same⟩ := descends
  obtain ⟨lendsMem, lender, lent, lenderFound, lenderHas, filled, -, lentSame⟩ := lends
  have kind : declared.kind = lent.kind.fillSignature filled := by rw [lentSame]
  obtain ⟨stated, isStated⟩ : ∃ stated, lent.kind = .declared stated := by
    rw [MemberDefinition.isDeclared, kind] at isDeclared
    cases here : lent.kind with
    | declared stated => exact ⟨stated, rfl⟩
    | method own => cases own <;> rw [here] at isDeclared <;> cases isDeclared
    | value => rw [here] at isDeclared; cases isDeclared
  have states : declared.signature? = stated := by
    rw [MemberDefinition.signature?, kind, isStated]
    rfl
  refine ⟨mem, call, member, found, has, signature.or stated, fun text is => ?_, ?_⟩
  · rcases Option.or_eq_some_iff.mp is with here | ⟨-, there⟩
    · exact given text here
    · exact ⟨declared.origin, lendsMem, lender, lenderFound, lent, lenderHas, there ▸ isStated⟩
  · rw [MemberDefinition.inherit, states, ← MemberKind.fillSignature_twice, same]

end Provenance

/-! ## What one operation puts in place -/

/-- What may stand in place of an ordinary member after a definition has come to it: one of the two,
possibly with the signature that the other one declares. -/
inductive Drawn (before : Option MemberDefinition) (incoming : MemberDefinition) :
    MemberDefinition → Prop where
  | kept {existing : MemberDefinition} (held : before = some existing) :
      Drawn before incoming existing
  | taken : Drawn before incoming incoming
  | lent {existing : MemberDefinition} (held : before = some existing)
      (declared : incoming.isDeclared = true) : Drawn before incoming (existing.inherit incoming)
  | completed {existing : MemberDefinition} (held : before = some existing)
      (declared : existing.isDeclared = true) : Drawn before incoming (incoming.inherit existing)

namespace Assembly

variable {includes : Includes} {name : String}

/-- Whichever of two definitions is put in place is drawn from what was there and what comes. -/
theorem primary?_contend (assembly : Assembly) {existing : MemberDefinition}
    (incoming : MemberDefinition) (held : assembly.surface.primary? name = some existing) :
    ∃ definition, (assembly.contend includes name existing incoming).surface.primary? name =
      some definition ∧ Drawn (assembly.surface.primary? name) incoming definition := by
  unfold contend
  split
  · exact ⟨incoming, primary?_set_self _ _ _, .taken⟩
  · split
    · exact ⟨existing, held, .kept held⟩
    · exact ⟨incoming, primary?_set_self _ _ _, .taken⟩

/-- Merging a definition leaves one in place, drawn from the two. -/
theorem primary?_merge (includes : Includes) (assembly : Assembly) (incoming : MemberDefinition) :
    ∃ definition, (assembly.merge includes name incoming).surface.primary? name =
      some definition ∧ Drawn (assembly.surface.primary? name) incoming definition := by
  unfold merge
  split
  · exact ⟨incoming, primary?_set_self _ _ _, .taken⟩
  · rename_i existing held
    split
    · exact ⟨existing, held, .kept held⟩
    · split
      · rename_i declared
        split
        · exact ⟨existing, held, .kept held⟩
        · exact ⟨_, primary?_set_self _ _ _, .lent held declared⟩
      · split
        · rename_i declared
          exact ⟨_, primary?_set_self _ _ _, .completed held declared⟩
        · exact primary?_contend assembly incoming held

/-- Writing an own definition leaves one in place, drawn from the two. -/
theorem primary?_overrideWith (assembly : Assembly) (own : MemberDefinition) :
    ∃ definition, (assembly.overrideWith name own).surface.primary? name = some definition ∧
      Drawn (assembly.surface.primary? name) own definition := by
  unfold overrideWith
  split
  · exact ⟨own, primary?_set_self _ _ _, .taken⟩
  · rename_i existing held
    split
    · rename_i declared
      refine ⟨_, primary?_set_self _ _ _, ?_⟩
      split
      · exact .taken
      · exact .lent held declared
    · refine ⟨_, primary?_set_self _ _ _, ?_⟩
      split
      · rename_i declared
        exact .completed held declared
      · exact .taken

/-- Merging a static leaves one of the two in place. -/
theorem static?_mergeStatic (includes : Includes) (assembly : Assembly)
    (incoming : StaticMember) :
    ∃ entry, (assembly.mergeStatic includes incoming).surface.statics.get? incoming.name =
      some entry ∧
      (assembly.surface.statics.get? incoming.name = some entry ∨ entry = incoming) := by
  have written : ∀ state : Assembly,
      (state.setStatic incoming).surface.statics.get? incoming.name = some incoming :=
    fun _ => Keyed.get?_insert_self _ _ _
  unfold mergeStatic
  split
  · exact ⟨incoming, written _, .inr rfl⟩
  · rename_i existing held
    split
    · exact ⟨existing, held, .inl held⟩
    · split
      · exact ⟨incoming, written _, .inr rfl⟩
      · exact ⟨incoming, written _, .inr rfl⟩

/-- The definition that a call reaches shows nothing of other names. -/
theorem primary?_shows : Shows (fun a : Assembly => a.surface.primary? name) name false :=
  fun _ _ _ concerns apart assembly => by
    simp only [Surface.primary?, Write.member?_apply concerns apart]

/-- A static shows nothing of other names. -/
theorem static?_shows : Shows (fun a : Assembly => a.surface.statics.get? name) name true :=
  fun _ _ _ concerns apart assembly => Write.static?_apply concerns apart assembly

end Assembly

/-! ## Names gathered from calls -/

/-- What is in place under a name once some calls have contributed: something, if one of them
supplies the name, and nothing that does not descend from them. -/
structure Gathered {δ : Type} (supplies : Nat → Prop) (descends : Set Nat → δ → Prop)
    (calls : Set Nat) (held : Option δ) : Prop where
  complete : ∀ id ∈ calls, supplies id → held ≠ none
  descends : ∀ item, held = some item → descends calls item

namespace Gathered

variable {δ : Type} {supplies : Nat → Prop} {descends : Set Nat → δ → Prop} {calls more : Set Nat}
  {held : Option δ}

theorem nothing : Gathered supplies descends ∅ none :=
  ⟨fun _ absent => absurd absent (Set.notMem_empty _), by simp⟩

/-- What is in place and descends is gathered, whoever supplies it. -/
theorem of_some {item : δ} (descended : descends calls item) :
    Gathered supplies descends calls (some item) :=
  ⟨by simp, fun _ same => Option.some.inj same ▸ descended⟩

/-- Calls that contribute nothing change nothing. -/
theorem union (mono : ∀ {calls more item}, descends calls item → calls ⊆ more → descends more item)
    (gathered : Gathered supplies descends calls held) (none : ∀ id ∈ more, ¬ supplies id) :
    Gathered supplies descends (calls ∪ more) held where
  complete := by
    rintro id (early | late) supply
    · exact gathered.complete id early supply
    · exact absurd supply (none id late)
  descends := fun item same => mono (gathered.descends item same) Set.subset_union_left

/-- Where nothing is gathered none of the calls supplies anything. -/
theorem none_supplies (gathered : Gathered supplies descends calls none) :
    ∀ id ∈ calls, ¬ supplies id :=
  fun id mem supply => gathered.complete id mem supply rfl

/-- Something is in place just if one of the calls supplies the name. -/
theorem exists_iff (gathered : Gathered supplies descends calls held)
    (supplied : ∀ item, descends calls item → ∃ id ∈ calls, supplies id) :
    (∃ item, held = some item) ↔ ∃ id ∈ calls, supplies id := by
  constructor
  · rintro ⟨item, same⟩
    exact supplied item (gathered.descends item same)
  · rintro ⟨id, mem, supply⟩
    exact Option.ne_none_iff_exists'.mp (gathered.complete id mem supply)

end Gathered

/-- What each step gathers from its scope a run gathers from all of them. -/
theorem gathered_foldl {δ ι σ : Type} {supplies : Nat → Prop} {descends : Set Nat → δ → Prop}
    {scope : ι → Set Nat} (view : σ → Option δ) {step : σ → ι → σ} {items : List ι}
    (each : ∀ (state : σ) (calls : Set Nat), ∀ item ∈ items,
      Gathered supplies descends calls (view state) →
      Gathered supplies descends (calls ∪ scope item) (view (step state item)))
    {start : σ} {calls : Set Nat} (first : Gathered supplies descends calls (view start)) :
    Gathered supplies descends (calls ∪ together scope items) (view (items.foldl step start)) := by
  induction items generalizing start calls with
  | nil =>
      have none : together scope [] = ∅ := by simp [together]
      rwa [none, Set.union_empty]
  | cons item rest ih =>
      rw [together_cons, ← Set.union_assoc]
      exact ih (fun state calls later mem => each state calls later (List.mem_cons_of_mem _ mem))
        (each start calls item List.mem_cons_self first)

section Merged

variable {registry : Registry} {options : Options} {call : FactoryCall} {name : String}
  {calls more : Set Nat} {includes : Includes}

/-- A call covers itself. -/
theorem mem_covered_self (id : Nat) : id ∈ covered registry options id :=
  Relation.ReflTransGen.refl

/-- What a merged call covers is what its entries cover, and the call itself. -/
theorem Mergeable.covered_eq (m : Mergeable registry options call) (h : registry.WellFormed) :
    covered registry options call.id =
      ∅ ∪ together (fun entry : Nat × Surface => covered registry options entry.1)
        (inclusions registry options call).merged ∪ {call.id} := by
  ext mixin
  rw [Set.empty_union]
  constructor
  · intro covers
    rcases Relation.ReflTransGen.cases_head covers with rfl | ⟨inner, leads, rest⟩
    · exact .inr rfl
    · obtain ⟨surface, mem⟩ := (m.leads_iff_merged h).mp leads
      exact .inl ⟨(inner, surface), mem, rest⟩
  · rintro (⟨entry, mem, covers⟩ | rfl)
    · exact .head ((m.leads_iff_merged h).mpr ⟨entry.2, mem⟩) covers
    · exact mem_covered_self call.id

/-- What its entries and its own specification keep gathered, a merged call has gathered. -/
theorem Mergeable.gathered {δ : Type} {supplies : Nat → Prop} {descends : Set Nat → δ → Prop}
    (m : Mergeable registry options call) (h : registry.WellFormed) (view : Surface → Option δ)
    (empty : ∀ pureRender, view (Assembly.empty pureRender).surface = none)
    (addMixin : ∀ (assembly : Assembly) (calls : Set Nat),
      ∀ entry ∈ (inclusions registry options call).merged,
        Gathered supplies descends calls (view assembly.surface) →
        Gathered supplies descends (calls ∪ covered registry options entry.1)
          (view (assembly.addMixin (resolutionsBefore registry options call.id).includes
            entry.1 entry.2).surface))
    (own : ∀ (assembly : Assembly) (calls : Set Nat),
      Gathered supplies descends calls (view assembly.surface) →
      Gathered supplies descends (calls ∪ {call.id}) (view (assembly.own call.spec).surface)) :
    Gathered supplies descends (covered registry options call.id)
      (view (assembled registry options call).surface) := by
  rw [m.covered_eq h]
  refine own _ _ (gathered_foldl (fun assembly : Assembly => view assembly.surface) addMixin ?_)
  rw [empty]
  exact .nothing

/-! ## Ordinary members -/

/-- A definition that is drawn from what was gathered and what comes in is gathered from both. -/
theorem Drawn.gathered {before : Option MemberDefinition} {incoming definition : MemberDefinition}
    (drawn : Drawn before incoming definition)
    (gathered : Gathered (Contributes registry name) (Descends registry name) calls before)
    (incomes : Descends registry name more incoming) :
    Gathered (Contributes registry name) (Descends registry name) (calls ∪ more)
      (some definition) := by
  have late := incomes.mono (Set.subset_union_right (s := calls))
  have early : ∀ existing, before = some existing →
      Descends registry name (calls ∪ more) existing :=
    fun existing held => (gathered.descends existing held).mono Set.subset_union_left
  refine .of_some ?_
  cases drawn with
  | kept held => exact early _ held
  | taken => exact late
  | lent held declared => exact (early _ held).inherit late declared
  | completed held declared => exact late.inherit (early _ held) declared

/-- With a mixin merged an ordinary member is gathered from the calls of both. -/
theorem Assembly.gathered_addMixin (ordinary : Hook.ofName? name = none) {assembly : Assembly}
    (target : Nat) {included : Surface} (fitting : included.Fitting)
    (gathered : Gathered (Contributes registry name) (Descends registry name) calls
      (assembly.surface.primary? name))
    (incoming : Gathered (Contributes registry name) (Descends registry name) more
      (included.primary? name)) :
    Gathered (Contributes registry name) (Descends registry name) (calls ∪ more)
      ((assembly.addMixin includes target included).surface.primary? name) := by
  have idle : included.primary? name = none →
      Gathered (Contributes registry name) (Descends registry name) (calls ∪ more)
        (assembly.surface.primary? name) := fun absent =>
    gathered.union Descends.mono (absent ▸ incoming).none_supplies
  have start : (included.ambiguities.foldl carry
      (assembly.including target included)).surface.primary? name =
        assembly.surface.primary? name := by
    rw [carryAll_surface]
    rfl
  have statics : ∀ state : Assembly,
      (state.mergeStatics includes included.statics).surface.primary? name =
        state.surface.primary? name := primary?_shows.mergeStatics_unseen includes _
  rw [addMixin_eq, statics]
  refine primary?_shows.mergeMembers fitting (fun member? after =>
    included.member? name = member? → Gathered (Contributes registry name)
      (Descends registry name) (calls ∪ more) after) ?_ ?_ rfl
  · intro state member mem same found
    have plain : member.hook = none := (fitting.members.values _ mem).trans ordinary
    have held : included.primary? name = member.primary? := by
      rw [Surface.primary?, found]
      rfl
    unfold mergeMember
    rw [plain]
    cases isPrimary : member.primary? with
    | none =>
        dsimp only
        rw [same, start]
        exact idle (held.trans isPrimary)
    | some definition =>
        obtain ⟨after, placed, drawn⟩ := state.primary?_merge includes definition
        dsimp only
        rw [placed]
        refine drawn.gathered ?_ (incoming.descends definition (held.trans isPrimary))
        rwa [same, start]
  · intro absent
    rw [start]
    exact idle (by rw [Surface.primary?, absent]; rfl)

/-- With its own members over them a call has each ordinary member gathered from its mixins and
itself. -/
theorem Assembly.gathered_own (h : registry.WellFormed) (mem : call ∈ registry.calls)
    (ordinary : Hook.ofName? name = none) {assembly : Assembly}
    (gathered : Gathered (Contributes registry name) (Descends registry name) calls
      (assembly.surface.primary? name)) :
    Gathered (Contributes registry name) (Descends registry name) (calls ∪ {call.id})
      ((assembly.own call.spec).surface.primary? name) := by
  have statics : ∀ state : Assembly,
      (state.ownStatics call.spec.statics).surface.primary? name =
        state.surface.primary? name := primary?_shows.ownStatics_unseen _
  have members := (h.specs call mem).members
  rw [own_eq, statics]
  refine primary?_shows.ownMembers members And.left (fun member? after =>
    call.spec.member? name = member? → Gathered (Contributes registry name)
      (Descends registry name) (calls ∪ {call.id}) after) ?_ ?_ rfl
  · intro state member listed same found
    obtain rfl : member.name = name := (members.values _ listed).1
    have plain : member.hook? = none := ordinary
    obtain ⟨after, placed, drawn⟩ := state.primary?_overrideWith (MemberDefinition.ofMember member)
    unfold ownMember
    rw [plain]
    dsimp only
    rw [placed]
    refine drawn.gathered ?_ (.own h mem (Set.mem_singleton _) found)
    rwa [same]
  · intro absent
    refine gathered.union Descends.mono ?_
    rintro _ rfl ⟨again, found, member, has, -⟩
    obtain rfl := Option.some.inj ((h.get?_id mem).symm.trans found)
    rw [absent] at has
    cases has

/-- In every surface an ordinary member is gathered from the calls that are covered. -/
theorem surface_gathered (h : registry.WellFormed) (ordinary : Hook.ofName? name = none) {id : Nat}
    {surface : Surface} (found : (resolve registry options).surface? id = some surface) :
    Gathered (Contributes registry name) (Descends registry name) (covered registry options id)
      (surface.primary? name) := by
  refine surface_induction (fun id surface => Gathered (Contributes registry name)
    (Descends registry name) (covered registry options id) (surface.primary? name)) h
    (fun call mergeable _ each => ?_) found
  rw [exposed_view (fun surface => surface.primary? name) fun _ _ => rfl]
  refine mergeable.gathered h (fun surface => surface.primary? name) (fun _ => rfl) ?_ ?_
  · intro assembly calls entry mem gathered
    exact Assembly.gathered_addMixin ordinary _ (merged_fitting h entry mem) gathered
      (each entry mem)
  · exact fun assembly calls => Assembly.gathered_own h mergeable.mem ordinary

/-! ## Statics -/

/-- With a mixin merged a static is gathered from the calls of both. -/
theorem Assembly.static_gathered_addMixin {assembly : Assembly} (target : Nat)
    {included : Surface} (fitting : included.Fitting)
    (gathered : Gathered (Defines registry name true) (StaticDescends registry name) calls
      (assembly.surface.statics.get? name))
    (incoming : Gathered (Defines registry name true) (StaticDescends registry name) more
      (included.statics.get? name)) :
    Gathered (Defines registry name true) (StaticDescends registry name) (calls ∪ more)
      ((assembly.addMixin includes target included).surface.statics.get? name) := by
  have start : ((included.ambiguities.foldl carry (assembly.including target included)).mergeMembers
      includes included.members).surface.statics.get? name =
        assembly.surface.statics.get? name := by
    rw [static?_shows.mergeMembers_unseen fitting, carryAll_surface]
    rfl
  rw [addMixin_eq]
  refine static?_shows.mergeStatics fitting (fun static? after =>
    included.statics.get? name = static? → Gathered (Defines registry name true)
      (StaticDescends registry name) (calls ∪ more) after) ?_ ?_ rfl
  · intro state entry mem same found
    obtain rfl : entry.name = name := fitting.statics.values _ mem
    obtain ⟨after, placed, drawn⟩ := state.static?_mergeStatic includes entry
    rw [placed]
    refine .of_some ?_
    rcases drawn with held | rfl
    · exact (gathered.descends after (start ▸ same ▸ held)).mono Set.subset_union_left
    · exact (incoming.descends after found).mono Set.subset_union_right
  · intro absent
    rw [start]
    exact gathered.union StaticDescends.mono (absent ▸ incoming).none_supplies

/-- With its own statics over them a call has each static gathered from its mixins and itself. -/
theorem Assembly.static_gathered_own (h : registry.WellFormed) (mem : call ∈ registry.calls)
    {assembly : Assembly}
    (gathered : Gathered (Defines registry name true) (StaticDescends registry name) calls
      (assembly.surface.statics.get? name)) :
    Gathered (Defines registry name true) (StaticDescends registry name) (calls ∪ {call.id})
      ((assembly.own call.spec).surface.statics.get? name) := by
  have start : (assembly.ownMembers call.spec.members).surface.statics.get? name =
      assembly.surface.statics.get? name := static?_shows.ownMembers_unseen _ _
  have statics := (h.specs call mem).statics
  rw [own_eq]
  refine static?_shows.ownStatics statics And.left (fun static? after =>
    call.spec.statics.get? name = static? → Gathered (Defines registry name true)
      (StaticDescends registry name) (calls ∪ {call.id}) after) ?_ ?_ rfl
  · intro state entry listed _ found
    obtain ⟨named, owner⟩ := statics.values _ listed
    obtain rfl : entry.name = name := named
    have placed : (state.ownStatic entry).surface.statics.get? entry.name =
        some (StaticMember.ofStatic entry) := Keyed.get?_insert_self _ _ _
    have origin : (StaticMember.ofStatic entry).origin = call.id := owner
    rw [placed]
    refine .of_some ⟨?_, call, entry, ?_, found, rfl⟩
    · rw [origin]
      exact .inr rfl
    · rw [origin]
      exact h.get?_id mem
  · intro absent
    rw [start]
    refine gathered.union StaticDescends.mono ?_
    rintro _ rfl ⟨again, found, entry, has⟩
    obtain rfl := Option.some.inj ((h.get?_id mem).symm.trans found)
    rw [absent] at has
    cases has

/-- In every surface a static is gathered from the calls that are covered. -/
theorem surface_static_gathered (h : registry.WellFormed) (name : String) {id : Nat}
    {surface : Surface} (found : (resolve registry options).surface? id = some surface) :
    Gathered (Defines registry name true) (StaticDescends registry name)
      (covered registry options id) (surface.statics.get? name) := by
  refine surface_induction (fun id surface => Gathered (Defines registry name true)
    (StaticDescends registry name) (covered registry options id) (surface.statics.get? name)) h
    (fun call mergeable _ each => ?_) found
  rw [exposed_view (fun surface => surface.statics.get? name) fun _ _ => rfl]
  refine mergeable.gathered h (fun surface => surface.statics.get? name) (fun _ => rfl) ?_ ?_
  · intro assembly calls entry mem gathered
    exact Assembly.static_gathered_addMixin _ (merged_fitting h entry mem) gathered
      (each entry mem)
  · exact fun assembly calls => Assembly.static_gathered_own h mergeable.mem

end Merged

end ClassFactory
