/-
Module: ClassFactory.Proofs.Mixins.Signatures
Purpose: When the method in place in the surface of a call carries a signature. The signature of a
  declaration does not reach every definition that it is meant for: it is bound to the place where
  the two met, and does not come along when the definition arrives by another entry, or when it
  gives way to one that no declaration meets.
Main exports: placed?, SeatedBy, Signed, Assembly.primary?_addMixin, Mergeable.primary?_assembled,
  HandedOver, Mergeable.signed_iff, signature_carried_iff
-/
import ClassFactory.Proofs.Mixins.Dominance
import ClassFactory.Proofs.Mixins.Meeting
import ClassFactory.Proofs.Mixins.Provenance

namespace ClassFactory

/-! ## The surface of a call -/

/-- What is in place of an ordinary member in the surface of a call. -/
def placed? (registry : Registry) (options : Options) (name : String) (id : Nat) :
    Option MemberDefinition :=
  ((resolve registry options).surface? id).bind fun surface => surface.primary? name

/-- The mixins that the entries of a call name, in their order. -/
def entryIds (registry : Registry) (options : Options) (id : Nat) : List Nat :=
  (edges registry options id).map Prod.fst

/-- The call gives its own member that signature. -/
def States (registry : Registry) (name : String) (id : Nat) (signature : Signature) : Prop :=
  ∃ call, registry.get? id = some call ∧ ∃ member, call.spec.member? name = some member ∧
    member.kind.signature? = some signature

/-- The call has the member itself, and only declares it. -/
def OnlyDeclares (registry : Registry) (name : String) (id : Nat) : Prop :=
  ∃ call, registry.get? id = some call ∧ ∃ member, call.spec.member? name = some member ∧
    member.kind.isDeclared = true

/-- The call has a definition in place that the entry between `earlier` and `rest` brought. -/
structure SeatedBy (registry : Registry) (options : Options) (name : String) (id : Nat)
    (earlier : List Nat) (first : Nat) (rest : List Nat) : Prop where
  split : entryIds registry options id = earlier ++ first :: rest
  seats : ∃ definition, placed? registry options name id = some definition ∧
    definition.isDeclared = false ∧
    Seats (edges registry options) (placed? registry options name) definition.origin earlier
      first rest

/-- What is in place of a method in the surface of a call carries a signature: the call states one
itself, or it was carried along with the definition, or a declaration lent it. Signatures are read
in the specifications alone; of what is in place only whose it is, and whether it is declared. -/
inductive Signed (registry : Registry) (options : Options) (name : String) : Nat → Prop where
  | stated {id : Nat} {signature : Signature} (states : States registry name id signature) :
      Signed registry options name id
  /-- The entries only declare the method. The first of these declarations is taken over, unless the
  call declares the method again. -/
  | opened {id first : Nat} (free : ¬ OnlyDeclares registry name id)
      (opens : Opens (placed? registry options name) (entryIds registry options id) first)
      (signed : Signed registry options name first) : Signed registry options name id
  /-- The entry that brought the definition brought it with its signature. -/
  | brought {id first : Nat} {earlier rest : List Nat}
      (seated : SeatedBy registry options name id earlier first rest)
      (signed : Signed registry options name first) : Signed registry options name id
  /-- Before it there were only declarations, and the first of them lends its signature. -/
  | completed {id first declaring : Nat} {earlier rest : List Nat}
      (seated : SeatedBy registry options name id earlier first rest)
      (opens : Opens (placed? registry options name) earlier declaring)
      (signed : Signed registry options name declaring) : Signed registry options name id
  /-- A declaration comes after it. -/
  | lent {id first later : Nat} {earlier rest : List Nat}
      (seated : SeatedBy registry options name id earlier first rest) (mem : later ∈ rest)
      (declared : ∃ definition, placed? registry options name later = some definition ∧
        definition.isDeclared = true)
      (signed : Signed registry options name later) : Signed registry options name id

namespace Assembly

variable {includes : Includes} {name : String}

/-- What merging puts in place is what comes of the two definitions meeting. -/
theorem primary?_merge_eq (assembly : Assembly) (incoming : MemberDefinition) :
    (assembly.merge includes name incoming).surface.primary? name =
      MemberDefinition.meet? includes (assembly.surface.primary? name) (some incoming) := by
  unfold merge
  cases held : assembly.surface.primary? name with
  | none => exact primary?_set_self _ _ _
  | some existing =>
      simp only [MemberDefinition.meet?, MemberDefinition.meet, contend]
      repeat' split
      all_goals first | exact held | exact primary?_set_self _ _ _

/-- What an own definition puts in place is what remains of overriding. -/
theorem primary?_overrideWith_eq (assembly : Assembly) (own : MemberDefinition) :
    (assembly.overrideWith name own).surface.primary? name =
      MemberDefinition.overriddenBy? (assembly.surface.primary? name) (some own) := by
  unfold overrideWith
  cases held : assembly.surface.primary? name with
  | none => exact primary?_set_self _ _ _
  | some existing =>
      simp only [MemberDefinition.overriddenBy?, MemberDefinition.overriddenBy]
      split <;> exact primary?_set_self _ _ _

/-- Adding a mixin lets its definition meet the one that is in place. -/
theorem primary?_addMixin (ordinary : Hook.ofName? name = none) (assembly : Assembly)
    (target : Nat) {included : Surface} (fitting : included.Fitting) :
    (assembly.addMixin includes target included).surface.primary? name =
      MemberDefinition.meet? includes (assembly.surface.primary? name)
        (included.primary? name) := by
  have start : (included.ambiguities.foldl carry
      (assembly.including target included)).surface.primary? name =
        assembly.surface.primary? name := by
    rw [carryAll_surface]
    rfl
  have idle : assembly.surface.primary? name =
      MemberDefinition.meet? includes (assembly.surface.primary? name) none := by
    cases assembly.surface.primary? name <;> rfl
  have statics : ∀ state : Assembly,
      (state.mergeStatics includes included.statics).surface.primary? name =
        state.surface.primary? name := primary?_shows.mergeStatics_unseen includes _
  rw [addMixin_eq, statics]
  refine primary?_shows.mergeMembers fitting (fun member? after => after =
    MemberDefinition.meet? includes (assembly.surface.primary? name)
      (member?.bind SurfaceMember.primary?)) ?_ (start.trans idle)
  intro state member mem same
  have plain : member.hook = none := (fitting.members.values _ mem).trans ordinary
  unfold mergeMember
  rw [plain]
  cases primary : member.primary? with
  | none => simpa [primary] using (same.trans start).trans idle
  | some definition =>
      dsimp only
      rw [primary?_merge_eq, same, start, Option.bind_some, primary]

/-- The own definitions of a call are written over what the mixins supply. -/
theorem primary?_own {owner : Nat} {spec : FactorySpec} (sound : spec.WellFormed owner)
    (ordinary : Hook.ofName? name = none) (assembly : Assembly) :
    (assembly.own spec).surface.primary? name =
      MemberDefinition.overriddenBy? (assembly.surface.primary? name)
        ((spec.member? name).map MemberDefinition.ofMember) := by
  have statics : ∀ state : Assembly,
      (state.ownStatics spec.statics).surface.primary? name = state.surface.primary? name :=
    primary?_shows.ownStatics_unseen _
  rw [own_eq, statics]
  refine primary?_shows.ownMembers sound.members And.left (fun member? after => after =
    MemberDefinition.overriddenBy? (assembly.surface.primary? name)
      (member?.map MemberDefinition.ofMember)) ?_ ?_
  · intro state member mem same
    have named : member.name = name := (sound.members.values _ mem).1
    have plain : member.hook? = none := by rw [SpecMember.hook?, named, ordinary]
    unfold ownMember
    rw [plain]
    dsimp only
    rw [named, primary?_overrideWith_eq, same]
    rfl
  · cases assembly.surface.primary? name <;> rfl

/-- Adding mixins one after another lets their definitions meet. -/
theorem primary?_merged (ordinary : Hook.ofName? name = none)
    {placed : Nat → Option MemberDefinition} {entries : List (Nat × Surface)}
    (each : ∀ entry ∈ entries, entry.2.Fitting ∧ placed entry.1 = entry.2.primary? name)
    (start : Assembly) :
    (entries.foldl (fun a entry => a.addMixin includes entry.1 entry.2)
        start).surface.primary? name =
      meetAll includes placed (start.surface.primary? name) (entries.map Prod.fst) := by
  induction entries generalizing start with
  | nil => rfl
  | cons entry rest ih =>
      obtain ⟨fitting, isPlaced⟩ := each entry List.mem_cons_self
      rw [List.foldl_cons, ih fun later mem => each later (List.mem_cons_of_mem _ mem),
        List.map_cons, meetAll_cons, primary?_addMixin ordinary start entry.1 fitting, isPlaced]

end Assembly

section Merged

variable {registry : Registry} {options : Options} {call : FactoryCall} {name : String}
  {definition : MemberDefinition}

/-- A signature that is filled in is the member's own or the one that it is filled with. -/
theorem MemberKind.signature?_of_fillSignature {kind : MemberKind} {filled : Option Signature}
    {signature : Signature} (carries : (kind.fillSignature filled).signature? = some signature) :
    kind.signature? = some signature ∨ filled = some signature := by
  cases kind with
  | method own =>
      cases own with
      | none => exact .inr carries
      | some => exact .inl carries
  | declared => exact .inl carries
  | value => exact .inl carries

/-- Placed is what a mixin that resolved has under the name. -/
theorem placed?_eq_some_iff {id : Nat} :
    placed? registry options name id = some definition ↔
      ∃ surface, (resolve registry options).surface? id = some surface ∧
        surface.primary? name = some definition :=
  Option.bind_eq_some_iff

/-- The entries of a call lead to the mixins that it includes itself. -/
theorem mem_entryIds_iff {id mixin : Nat} :
    mixin ∈ entryIds registry options id ↔ Leads (edges registry options) id mixin := by
  simp [entryIds, Leads]

/-- What the entries of a call supply, with its own definition over it. -/
theorem Mergeable.primary?_assembled (m : Mergeable registry options call)
    (h : registry.WellFormed) (ordinary : Hook.ofName? name = none) :
    (assembled registry options call).surface.primary? name =
      MemberDefinition.overriddenBy?
        (meetAll (resolutionsBefore registry options call.id).includes
          (placed? registry options name) none (entryIds registry options call.id))
        ((call.spec.member? name).map MemberDefinition.ofMember) := by
  have each : ∀ entry ∈ (inclusions registry options call).merged,
      entry.2.Fitting ∧ placed? registry options name entry.1 = entry.2.primary? name :=
    fun entry mem => ⟨merged_fitting h entry mem, by
      rw [placed?, surface?_of_mem_merged mem, Option.bind_some]⟩
  rw [assembled, assemble, Assembly.primary?_own (h.specs call m.mem) ordinary,
    Assembly.primary?_merged ordinary each, m.merged_ids h]
  rfl

/-- What a mixin has under a name is by a mixin that the call includes. -/
theorem reaches_of_placed (h : registry.WellFormed) (ordinary : Hook.ofName? name = none)
    {id mixin : Nat} (mem : mixin ∈ entryIds registry options id)
    (placed : placed? registry options name mixin = some definition) :
    Reaches (edges registry options) id definition.origin := by
  obtain ⟨surface, found, primary⟩ := placed?_eq_some_iff.mp placed
  have descends := (surface_gathered h ordinary found).descends definition primary
  exact .head' (mem_entryIds_iff.mp mem) descends.1

/-- What its entries have in place is admitted to a call. -/
theorem Mergeable.admitted (m : Mergeable registry options call) (h : registry.WellFormed)
    (ordinary : Hook.ofName? name = none) :
    AdmittedAll registry (edges registry options)
      (resolutionsBefore registry options call.id).includes name
      (placed? registry options name) (entryIds registry options call.id) := by
  intro mixin mem definition comes
  obtain ⟨surface, found, primary⟩ := placed?_eq_some_iff.mp comes
  have held : (surface.seat name false).holder = some definition.holder := by
    simp [Surface.seat, Surface.holder?, primary]
  have upheld : surface.Upheld registry options name false mixin :=
    surface_upheld h (fun _ => ordinary) found
  have reaches := reaches_of_placed h ordinary mem comes
  refine ⟨upheld.rightful _ held, fun _ _ => m.includes_before_iff h reaches, fun _ => ?_⟩
  obtain ⟨originSurface, originFound⟩ := m.exists_surface_of_reaches h reaches
  obtain ⟨origin, same, mergeable, -⟩ := exists_mergeable h originFound
  exact same ▸ mergeable.not_reaches_self h

/-- A call states a signature just if its own member is signed. -/
theorem exists_states_iff {id : Nat} (found : registry.get? id = some call) :
    (∃ signature, States registry name id signature) ↔
      ∃ member, call.spec.member? name = some member ∧
        (MemberDefinition.ofMember member).IsSigned := by
  simp only [States, found, Option.some.injEq, exists_eq_left', MemberDefinition.IsSigned,
    Option.ne_none_iff_exists']
  constructor
  · rintro ⟨signature, member, has, states⟩
    exact ⟨member, has, signature, states⟩
  · rintro ⟨member, has, signature, states⟩
    exact ⟨signature, member, has, states⟩

theorem onlyDeclares_iff {id : Nat} (found : registry.get? id = some call) :
    OnlyDeclares registry name id ↔
      ∃ member, call.spec.member? name = some member ∧ member.kind.isDeclared = true := by
  simp [OnlyDeclares, found]

/-- The definition in place comes from the entries of the call, and with a signature. -/
def HandedOver (registry : Registry) (options : Options) (name : String) (id : Nat) : Prop :=
  ∃ earlier first rest, SeatedBy registry options name id earlier first rest ∧
    HandsOver (placed? registry options name) (Signed registry options name) earlier first rest

/-- A call is signed in one of three ways: by its own member, by the first of its mixins, or by what
is handed over. -/
theorem signed_cases {id : Nat} :
    Signed registry options name id ↔
      (∃ signature, States registry name id signature) ∨
      (¬ OnlyDeclares registry name id ∧
        ∃ first, Opens (placed? registry options name) (entryIds registry options id) first ∧
          Signed registry options name first) ∨
      HandedOver registry options name id := by
  constructor
  · rintro (states | ⟨free, opens, signed⟩ | ⟨seated, signed⟩ | ⟨seated, opens, signed⟩ |
      ⟨seated, mem, declared, signed⟩)
    · exact .inl ⟨_, states⟩
    · exact .inr (.inl ⟨free, _, opens, signed⟩)
    · exact .inr (.inr ⟨_, _, _, seated, .inl signed⟩)
    · exact .inr (.inr ⟨_, _, _, seated, .inr (.inl ⟨_, opens, signed⟩)⟩)
    · exact .inr (.inr ⟨_, _, _, seated, .inr (.inr ⟨_, mem, declared, signed⟩)⟩)
  · rintro (⟨_, states⟩ | ⟨free, _, opens, signed⟩ | ⟨_, _, _, seated, here | before | after⟩)
    · exact .stated states
    · exact .opened free opens signed
    · exact .brought seated here
    · obtain ⟨_, opens, signed⟩ := before
      exact .completed seated opens signed
    · obtain ⟨_, mem, declared, signed⟩ := after
      exact .lent seated mem declared signed

/-- Only a definition that is not the call's own is handed over by its entries. -/
theorem HandedOver.foreign (m : Mergeable registry options call) (h : registry.WellFormed)
    (ordinary : Hook.ofName? name = none)
    (placed : placed? registry options name call.id = some definition)
    (handed : HandedOver registry options name call.id) :
    definition.isDeclared = false ∧ definition.origin ≠ call.id := by
  obtain ⟨earlier, first, rest, ⟨split, again, placedAgain, concrete, seats⟩, -⟩ := handed
  obtain rfl := Option.some.inj (placed.symm.trans placedAgain)
  refine ⟨concrete, fun own => ?_⟩
  obtain ⟨brought, comes, same⟩ := seats.brings
  have listed : first ∈ entryIds registry options call.id := by simp [split]
  have reaches := reaches_of_placed h ordinary listed comes
  rw [same, own] at reaches
  exact m.not_reaches_self h reaches

/-! ## What the entries hand over -/

/-- What the entries of a call have in place carries signatures as it should. -/
def EntriesSigned (registry : Registry) (options : Options) (name : String) (id : Nat) : Prop :=
  ∀ mixin ∈ entryIds registry options id, ∀ definition,
    placed? registry options name mixin = some definition → definition.kind.isValue = false →
    (definition.IsSigned ↔ Signed registry options name mixin)

/-- A declaration that is placed is signed just if the mixin is. -/
theorem EntriesSigned.declared_iff {id mixin : Nat}
    (each : EntriesSigned registry options name id) (mem : mixin ∈ entryIds registry options id)
    (placed : placed? registry options name mixin = some definition)
    (isDeclared : definition.isDeclared = true) :
    definition.IsSigned ↔ Signed registry options name mixin :=
  each mixin mem definition placed (MemberDefinition.isValue_of_isDeclared isDeclared)

/-- A mixin lends a signature just if it places a declaration and is signed. -/
theorem EntriesSigned.lends_iff {id mixin : Nat} (each : EntriesSigned registry options name id)
    (mem : mixin ∈ entryIds registry options id) :
    Lends (placed? registry options name) mixin ↔
      (∃ definition, placed? registry options name mixin = some definition ∧
        definition.isDeclared = true) ∧ Signed registry options name mixin := by
  constructor
  · rintro ⟨declared, comes, isDeclared, signed⟩
    exact ⟨⟨declared, comes, isDeclared⟩, (each.declared_iff mem comes isDeclared).mp signed⟩
  · rintro ⟨⟨declared, comes, isDeclared⟩, signed⟩
    exact ⟨declared, comes, isDeclared, (each.declared_iff mem comes isDeclared).mpr signed⟩

/-- Where only declarations came, the one in place carries a signature if the first one does. -/
theorem Mergeable.opens_signed_iff (m : Mergeable registry options call) (h : registry.WellFormed)
    (ordinary : Hook.ofName? name = none) (each : EntriesSigned registry options name call.id)
    {mixins : List Nat} (part : mixins ⊆ entryIds registry options call.id) :
    (∃ first, Opens (placed? registry options name) mixins first ∧
        Signed registry options name first) ↔
      ∃ declared, meetAll (resolutionsBefore registry options call.id).includes
        (placed? registry options name) none mixins = some declared ∧
        declared.isDeclared = true ∧ declared.IsSigned := by
  have admitted := (m.admitted h ordinary).subset part
  have listed : ∀ first, Opens (placed? registry options name) mixins first →
      first ∈ entryIds registry options call.id :=
    fun _ opens => part (List.mem_of_find?_eq_some opens.first)
  constructor
  · rintro ⟨first, opens, signed⟩
    obtain ⟨declared, comes⟩ := opens.exists_declared
    obtain ⟨last, isDeclared⟩ := (exists_opens_iff h admitted).mp ⟨first, opens, comes⟩
    exact ⟨declared, last, isDeclared,
      (each.declared_iff (listed first opens) comes isDeclared).mpr signed⟩
  · rintro ⟨declared, last, isDeclared, signed⟩
    obtain ⟨first, opens, comes⟩ := (exists_opens_iff h admitted).mpr ⟨last, isDeclared⟩
    exact ⟨first, opens, (each.declared_iff (listed first opens) comes isDeclared).mp signed⟩

section Held

variable {held : MemberDefinition}

/-- A definition seated by an entry carries a signature just if it was brought with one, or a
declaration lent it. -/
theorem Mergeable.seats_signed_iff (m : Mergeable registry options call) (h : registry.WellFormed)
    (ordinary : Hook.ofName? name = none) (each : EntriesSigned registry options name call.id)
    (last : meetAll (resolutionsBefore registry options call.id).includes
      (placed? registry options name) none (entryIds registry options call.id) = some held)
    (concrete : held.isDeclared = false) (method : held.kind.isValue = false)
    {earlier rest : List Nat} {first : Nat}
    (split : entryIds registry options call.id = earlier ++ first :: rest)
    (seats : Seats (edges registry options) (placed? registry options name) held.origin earlier
      first rest) :
    held.IsSigned ↔
      HandsOver (placed? registry options name) (Signed registry options name) earlier first
        rest := by
  have admitted := m.admitted h ordinary
  have earlyPart : earlier ⊆ entryIds registry options call.id := by simp [split]
  have lends : ∀ later ∈ rest, Lends (placed? registry options name) later ↔ _ :=
    fun later mem => each.lends_iff (by simp [split, mem])
  obtain ⟨brought, comes, broughtMethod, signedIff⟩ :=
    seats.signed_iff h (split ▸ admitted) (split ▸ last) concrete method
  rw [signedIff, each first (by simp [split]) brought comes broughtMethod,
    ← m.opens_signed_iff h ordinary each earlyPart]
  exact or_congr_right (or_congr_right
    (exists_congr fun later => and_congr_right fun mem => lends later mem))

/-- A definition that the entries of a call leave in place carries a signature just if it is handed
over with one. -/
theorem Mergeable.handedOver_iff (m : Mergeable registry options call) (h : registry.WellFormed)
    (ordinary : Hook.ofName? name = none) (each : EntriesSigned registry options name call.id)
    (last : meetAll (resolutionsBefore registry options call.id).includes
      (placed? registry options name) none (entryIds registry options call.id) = some held)
    (concrete : held.isDeclared = false) (method : held.kind.isValue = false)
    (placed : placed? registry options name call.id = some definition)
    (same : definition.holder = held.holder) :
    held.IsSigned ↔ HandedOver registry options name call.id := by
  have origin : definition.origin = held.origin := congrArg Holder.origin same
  have isConcrete : definition.isDeclared = false :=
    (congrArg Holder.isDeclared same).trans concrete
  constructor
  · intro signed
    obtain ⟨earlier, first, rest, split, seats⟩ :=
      (broughtLast_of_meetAll h (m.admitted h ordinary) last concrete).exists_seats
    exact ⟨earlier, first, rest, ⟨split, definition, placed, isConcrete, origin ▸ seats⟩,
      (m.seats_signed_iff h ordinary each last concrete method split seats).mp signed⟩
  · rintro ⟨earlier, first, rest, ⟨split, again, placedAgain, -, seats⟩, handsOver⟩
    obtain rfl := Option.some.inj (placed.symm.trans placedAgain)
    rw [origin] at seats
    exact (m.seats_signed_iff h ordinary each last concrete method split seats).mpr handsOver

end Held

/-- The definition in place in a merged call carries a signature just if it should, given that this
holds of its entries. -/
theorem Mergeable.signed_iff (m : Mergeable registry options call) (h : registry.WellFormed)
    (ordinary : Hook.ofName? name = none) (each : EntriesSigned registry options name call.id)
    (placed : placed? registry options name call.id = some definition)
    (primary : (assembled registry options call).surface.primary? name = some definition)
    (method : definition.kind.isValue = false) :
    definition.IsSigned ↔ Signed registry options name call.id := by
  have recorded := h.get?_id m.mem
  have handed := fun (held : MemberDefinition) last concrete isMethod
      (same : definition.holder = held.holder) =>
    m.handedOver_iff h ordinary each last concrete isMethod placed same
  have notHanded : definition.isDeclared = true ∨ definition.origin = call.id →
      ¬ HandedOver registry options name call.id := by
    rintro own handedOver
    obtain ⟨concrete, elsewhere⟩ := handedOver.foreign m h ordinary placed
    rcases own with declared | same
    · rw [concrete] at declared
      cases declared
    · exact elsewhere same
  rw [m.primary?_assembled h ordinary] at primary
  rw [signed_cases, exists_states_iff recorded, onlyDeclares_iff recorded,
    m.opens_signed_iff h ordinary each (List.Subset.refl _)]
  generalize meetAll (resolutionsBefore registry options call.id).includes
    (placed? registry options name) none (entryIds registry options call.id) = held at *
  cases has : call.spec.member? name with
  | none =>
      obtain rfl : held = some definition := by
        rw [has] at primary
        cases held with
        | none => cases primary
        | some => exact primary
      cases isDeclared : definition.isDeclared with
      | true => simp [isDeclared, notHanded (.inl isDeclared)]
      | false => simp [isDeclared, handed definition rfl isDeclared method rfl]
  | some member =>
      have owner : (MemberDefinition.ofMember member).origin = call.id :=
        ((h.specs call m.mem).members.of_get? has).2
      rw [has, Option.map_some] at primary
      cases held with
      | none =>
          obtain rfl := Option.some.inj primary
          simp [notHanded (.inr owner)]
      | some existing =>
          have overrides := existing.overrides (MemberDefinition.ofMember member)
          have sameKind : (MemberDefinition.ofMember member).isDeclared =
            member.kind.isDeclared := rfl
          rw [Option.some.inj primary] at overrides
          cases overrides with
          | repeats _ declared =>
              rw [sameKind] at declared
              simp [declared, notHanded (.inr owner)]
          | lends isHeld _ =>
              have isMethod := MemberDefinition.inherit_isValue.symm.trans method
              rw [MemberDefinition.inherit_isSigned isHeld isMethod,
                handed existing rfl isHeld isMethod (holder_inherit _ _)]
              simp [isHeld, or_comm]
          | completes isHeld concrete =>
              have isMethod := MemberDefinition.inherit_isValue.symm.trans method
              rw [MemberDefinition.inherit_isSigned concrete isMethod]
              rw [sameKind] at concrete
              simp [isHeld, concrete, notHanded (.inr owner)]
          | replaces isHeld _ => simp [isHeld, notHanded (.inr owner)]

end Merged

/-- The definition of a method in place carries a signature just if its call states one, or it was
carried or lent through the entries, and then one that its origin states or a covered call
declares. -/
theorem signature_carried_iff {registry : Registry} {options : Options} (h : registry.WellFormed)
    {name : String} (ordinary : Hook.ofName? name = none) {id : Nat} {surface : Surface}
    (found : (resolve registry options).surface? id = some surface) {definition : MemberDefinition}
    (primary : surface.primary? name = some definition)
    (method : definition.kind.isValue = false) :
    (definition.signature? ≠ none ↔ Signed registry options name id) ∧
      ∀ signature, definition.signature? = some signature →
        States registry name definition.origin signature ∨
          DeclaresSignature registry name (covered registry options id) signature := by
  constructor
  · refine surface_induction (fun id surface =>
      (resolve registry options).surface? id = some surface →
      ∀ definition, surface.primary? name = some definition → definition.kind.isValue = false →
        (definition.IsSigned ↔ Signed registry options name id)) h ?_ found found definition
      primary method
    intro call mergeable _ entries resolved definition primary method
    have each : EntriesSigned registry options name call.id := by
      intro mixin mem definition comes
      obtain ⟨surface, merged⟩ := (mergeable.leads_iff_merged h).mp (mem_entryIds_iff.mp mem)
      have known := surface?_of_mem_merged merged
      obtain ⟨again, foundAgain, isPrimary⟩ := placed?_eq_some_iff.mp comes
      obtain rfl := Option.some.inj (known.symm.trans foundAgain)
      exact entries _ merged known definition isPrimary
    refine mergeable.signed_iff h ordinary each
      (placed?_eq_some_iff.mpr ⟨_, resolved, primary⟩) ?_ method
    rwa [exposed_view (fun surface => surface.primary? name) fun _ _ => rfl] at primary
  · intro signature carries
    obtain ⟨-, call, member, recorded, has, filled, declares, same⟩ :=
      (surface_gathered h ordinary found).descends definition primary
    have isFilled : (member.kind.fillSignature filled).signature? = some signature := by
      rw [← carries, same]
      rfl
    rcases MemberKind.signature?_of_fillSignature isFilled with states | lent
    · exact .inl ⟨call, recorded, member, has, states⟩
    · exact .inr (declares signature lent)

/-- The signature of a method without parameters that returns a number. -/
def answersNumber : Signature :=
  { params := [], returns := .number }

/-- A mixin that declares `pick`, one that defines it, one that includes both, and a component with
these entries. -/
def pickRegistry (entries : List String) : Registry :=
  memberRegistry
    [⟨.mixin, "Abstract", [], [("pick", .declared (some answersNumber))]⟩,
      ⟨.mixin, "Concrete", [], [("pick", .method none 0 default)]⟩,
      ⟨.mixin, "Both", ["Abstract", "Concrete"], []⟩,
      ⟨.component, "User", entries, [("render", .method none 0 default)]⟩]

/-- The same definition is in place with the entries in either order, but it keeps the signature only
if the mixin with both comes first. -/
theorem signature_carried_iff_order :
    Signed (pickRegistry ["Both", "Concrete"]) .standard "pick" 3 ∧
      ¬ Signed (pickRegistry ["Concrete", "Both"]) .standard "pick" 3 := by
  have shown : ∀ entries, entries = ["Both", "Concrete"] ∨ entries = ["Concrete", "Both"] →
      ((resolve (pickRegistry entries) .standard).surface? 3).bind (fun surface =>
        (surface.primary? "pick").map fun definition =>
          (definition.origin, definition.kind.isValue, definition.signature?.isSome)) =
        some (1, false, decide (entries = ["Both", "Concrete"])) := by
    rintro entries (rfl | rfl) <;> decide
  have iff : ∀ entries, entries = ["Both", "Concrete"] ∨ entries = ["Concrete", "Both"] →
      (Signed (pickRegistry entries) .standard "pick" 3 ↔ entries = ["Both", "Concrete"]) := by
    intro entries listed
    obtain ⟨surface, found, held⟩ := Option.bind_eq_some_iff.mp (shown entries listed)
    obtain ⟨definition, primary, facts⟩ := Option.map_eq_some_iff.mp held
    simp only [Prod.mk.injEq] at facts
    have sound : (pickRegistry entries).WellFormed := memberRegistry_wellFormed _
    rw [← (signature_carried_iff sound (by decide) found primary facts.2.1).1,
      Option.ne_none_iff_isSome, facts.2.2, decide_eq_true_iff]
  exact ⟨(iff _ (.inl rfl)).mpr rfl, fun signed => by simpa using (iff _ (.inr rfl)).mp signed⟩

end ClassFactory
