/-
Module: ClassFactory.Proofs.Mixins.Chain
Purpose: The chain of a hook as a flattened tree of inclusions. Expanding every entry of a call,
  again and again, gives all definitions of the hook in call order; the chain that merging builds
  from the chains of the mixins keeps the first occurrence of each.
Main exports: linkAll, OwnLink, Expands, exists_expands, hookChain_expands
-/
import ClassFactory.Proofs.Mixins.Assembled
import ClassFactory.Proofs.Mixins.Plain

namespace ClassFactory

/-- Whether two definitions are the same one. -/
def MemberDefinition.same (one other : MemberDefinition) : Bool :=
  one.definition = other.definition

/-! ## Chains of definitions -/

/-- A chain with one more definition at its end, unless it has it. -/
def link (chain : List MemberDefinition) (last : MemberDefinition) : List MemberDefinition :=
  if chain.any fun known => known.definition = last.definition then chain else chain ++ [last]

/-- A chain with more definitions, each unless it is there already. -/
def linkAll (chain more : List MemberDefinition) : List MemberDefinition := more.foldl link chain

section Links

variable {chain more : List MemberDefinition} {last : MemberDefinition}

/-- A definition that is in a chain already is not linked again. -/
theorem link_of_mem (known : last.definition ∈ chain.map MemberDefinition.definition) :
    link chain last = chain := by
  obtain ⟨other, mem, same⟩ := List.mem_map.mp known
  have found : (chain.any fun known => known.definition = last.definition) = true :=
    List.any_eq_true.mpr ⟨other, mem, by simp [same]⟩
  simp only [link, found, if_true]

/-- A new definition comes last. -/
theorem link_of_notMem (fresh : last.definition ∉ chain.map MemberDefinition.definition) :
    link chain last = chain ++ [last] := by
  have absent : ¬ (chain.any fun known => known.definition = last.definition) = true := by
    intro found
    obtain ⟨other, mem, same⟩ := List.any_eq_true.mp found
    exact fresh (List.mem_map.mpr ⟨other, mem, by simpa using same⟩)
  simp only [link, absent, if_false, Bool.false_eq_true]

theorem linkAll_concat (chain more : List MemberDefinition) (last : MemberDefinition) :
    linkAll chain (more ++ [last]) = link (linkAll chain more) last := by
  simp [linkAll]

/-- Linking may be done in two turns. -/
theorem linkAll_append (chain more rest : List MemberDefinition) :
    linkAll chain (more ++ rest) = linkAll (linkAll chain more) rest :=
  List.foldl_append

theorem mem_definitions_link {definition : DefinitionId} :
    definition ∈ (link chain last).map MemberDefinition.definition ↔
      definition ∈ chain.map MemberDefinition.definition ∨ definition = last.definition := by
  by_cases known : last.definition ∈ chain.map MemberDefinition.definition
  · rw [link_of_mem known]
    constructor
    · exact .inl
    · rintro (old | rfl)
      · exact old
      · exact known
  · rw [link_of_notMem known]
    simp

/-- The definitions in a chain are those that it had and those that were linked. -/
theorem mem_definitions_linkAll {definition : DefinitionId} :
    definition ∈ (linkAll chain more).map MemberDefinition.definition ↔
      definition ∈ chain.map MemberDefinition.definition ∨
        definition ∈ more.map MemberDefinition.definition := by
  induction more using List.reverseRecOn with
  | nil => simp [linkAll]
  | append_singleton more last ih =>
      rw [linkAll_concat, mem_definitions_link, ih]
      simp [or_assoc]

theorem mem_of_mem_linkAll {definition : MemberDefinition} (mem : definition ∈ linkAll chain more) :
    definition ∈ chain ∨ definition ∈ more := by
  induction more using List.reverseRecOn with
  | nil => exact .inl mem
  | append_singleton more last ih =>
      rw [linkAll_concat] at mem
      by_cases known : last.definition ∈ (linkAll chain more).map MemberDefinition.definition
      · rw [link_of_mem known] at mem
        exact (ih mem).imp_right (List.mem_append_left _)
      · rw [link_of_notMem known] at mem
        rcases List.mem_append.mp mem with earlier | here
        · exact (ih earlier).imp_right (List.mem_append_left _)
        · exact .inr (List.mem_append_right _ here)

/-- Definitions that are told apart by their identities are all kept. -/
theorem mem_linkAll_of_mem {definition : MemberDefinition}
    (distinct : ∀ other ∈ more, other.definition = definition.definition → other = definition)
    (mem : definition ∈ more) : definition ∈ linkAll [] more := by
  have listed : definition.definition ∈ (linkAll [] more).map MemberDefinition.definition :=
    mem_definitions_linkAll.mpr (.inr (List.mem_map_of_mem mem))
  obtain ⟨other, otherMem, same⟩ := List.mem_map.mp listed
  have kept : other ∈ more := by simpa using mem_of_mem_linkAll otherMem
  exact distinct other kept same ▸ otherMem

/-- A chain that was linked from definitions adds just what the definitions themselves add. -/
theorem linkAll_linkAll (chain more : List MemberDefinition) :
    linkAll chain (linkAll [] more) = linkAll chain more := by
  induction more using List.reverseRecOn with
  | nil => rfl
  | append_singleton more last ih =>
      by_cases known : last.definition ∈ (linkAll [] more).map MemberDefinition.definition
      · have later : last.definition ∈ (linkAll chain more).map MemberDefinition.definition :=
          mem_definitions_linkAll.mpr (.inr (by simpa using mem_definitions_linkAll.mp known))
        rw [linkAll_concat, linkAll_concat, link_of_mem known, link_of_mem later, ih]
      · rw [linkAll_concat, linkAll_concat, link_of_notMem known, linkAll_concat, ih]

/-- Linking keeps a chain and puts behind it the first occurrence of each new definition. -/
theorem linkAll_eq_append (chain more : List MemberDefinition) :
    linkAll chain more = chain ++
      (more.filter fun next =>
        !chain.any fun known => known.definition = next.definition).eraseDupsBy
          MemberDefinition.same := by
  induction more generalizing chain with
  | nil => simp [linkAll]
  | cons next rest ih =>
      rw [linkAll, List.foldl_cons, ← linkAll, ih]
      by_cases known : (chain.any fun known => known.definition = next.definition) = true
      · simp [link, known]
      · simp only [link, known, if_false, Bool.false_eq_true, List.append_assoc,
          List.singleton_append, List.filter_cons, Bool.not_false, if_true]
        rw [List.eraseDupsBy_cons, List.filter_filter]
        congr 3
        refine List.filter_congr fun other _ => ?_
        simp [MemberDefinition.same, eq_comm, Bool.and_comm]

/-- Linking definitions to nothing keeps the first occurrence of each. -/
theorem linkAll_nil (more : List MemberDefinition) :
    linkAll [] more = more.eraseDupsBy MemberDefinition.same := by
  simp [linkAll_eq_append]

/-- A chain that has each definition once keeps it so. -/
theorem linkAll_nodup (distinct : (chain.map MemberDefinition.definition).Nodup) :
    ((linkAll chain more).map MemberDefinition.definition).Nodup := by
  induction more using List.reverseRecOn with
  | nil => exact distinct
  | append_singleton more last ih =>
      rw [linkAll_concat]
      by_cases known : last.definition ∈ (linkAll chain more).map MemberDefinition.definition
      · rwa [link_of_mem known]
      · rw [link_of_notMem known, List.map_append]
        exact List.nodup_append.mpr ⟨ih, by simp, by
          rintro definition mem _ here rfl
          exact known (List.mem_singleton.mp here ▸ mem)⟩

/-- Where a definition stands in a linked chain it stood before, with the chain linked from what
came before it. -/
theorem exists_split_of_linkAll {before after : List MemberDefinition}
    (split : linkAll [] more = before ++ last :: after) :
    ∃ earlier later, more = earlier ++ last :: later ∧ linkAll [] earlier = before := by
  induction more using List.reverseRecOn generalizing after with
  | nil => simp [linkAll] at split
  | append_singleton more next ih =>
      rw [linkAll_concat] at split
      by_cases known : next.definition ∈ (linkAll [] more).map MemberDefinition.definition
      · rw [link_of_mem known] at split
        obtain ⟨earlier, later, rfl, same⟩ := ih split
        exact ⟨earlier, later ++ [next], by simp, same⟩
      · rw [link_of_notMem known] at split
        rcases List.eq_nil_or_concat after with rfl | ⟨rest, final, rfl⟩
        · obtain ⟨same, final⟩ := List.append_inj' split rfl
          obtain rfl : next = last := by simpa using final
          exact ⟨more, [], rfl, same⟩
        · rw [List.concat_eq_append, ← List.cons_append, ← List.append_assoc] at split
          obtain ⟨same, -⟩ := List.append_inj' split rfl
          obtain ⟨earlier, later, rfl, here⟩ := ih same
          exact ⟨earlier, later ++ [next], by simp, here⟩

/-- One definition stands before each occurrence of another. -/
def Leading (early late : MemberDefinition) (chain : List MemberDefinition) : Prop :=
  ∀ before after, chain = before ++ late :: after → early ∈ before

/-- What leads within a part leads in the whole. -/
theorem Leading.append {early late : MemberDefinition} {rest : List MemberDefinition}
    (first : Leading early late chain) (second : early ∈ chain ∨ Leading early late rest) :
    Leading early late (chain ++ rest) := by
  intro before after split
  have inRest : ∀ between, rest = between ++ late :: after → early ∈ chain ++ between := by
    intro between here
    rcases second with early | leading
    · exact List.mem_append_left _ early
    · exact List.mem_append_right _ (leading between after here)
  rcases List.append_eq_append_iff.mp split with ⟨between, rfl, here⟩ | ⟨between, here, tail⟩
  · exact inRest between here
  · cases between with
    | nil =>
        obtain rfl : chain = before := by simpa using here
        simpa using inRest [] (by simpa using tail.symm)
    | cons next between =>
        obtain ⟨rfl, rfl⟩ := List.cons.inj tail
        exact first before between here

end Links

/-! ## Chains of an assembly -/

/-- The definition that a member of a specification adds to a chain, if it is not only declared. -/
def SpecMember.link? (member : SpecMember) : Option MemberDefinition :=
  if member.kind.isDeclared then none else some (MemberDefinition.ofMember member)

/-- The definition of a hook in a specification. -/
def FactorySpec.link? (spec : FactorySpec) (hook : Hook) : Option MemberDefinition :=
  (spec.member? hook.name).bind SpecMember.link?

namespace Assembly

variable {assembly : Assembly} {includes : Includes} {hook : Hook}

/-- Chaining a definition of a hook links it to the chain of that hook. -/
theorem hookChain_chain_self (assembly : Assembly) (hook : Hook) (definition : MemberDefinition) :
    (assembly.chain hook.name hook definition).surface.hookChain hook =
      link (assembly.surface.hookChain hook) definition := by
  unfold Assembly.chain link Surface.hookChain
  dsimp only
  cases found : assembly.surface.member? hook.name with
  | none => simp [Surface.member?, Keyed.get?_insert_self]
  | some member =>
      simp only [Option.getD_some, Option.map_some]
      split
      · simp [found]
      · simp [Surface.member?, Keyed.get?_insert_self]

/-- A write that is about another name leaves the chain alone. -/
theorem hookChain_apply {write : Write} {name : String} {isStatic : Bool}
    (concerns : write.Concerns name isStatic) (apart : ¬ (name = hook.name ∧ isStatic = false))
    (assembly : Assembly) :
    (write.apply assembly).surface.hookChain hook = assembly.surface.hookChain hook := by
  simp only [Surface.hookChain, Write.member?_apply concerns apart]

/-- Merging a member links all its definitions, in order. -/
theorem hookChain_mergeMember {member : SurfaceMember} (isHook : member.hook = some hook)
    (assembly : Assembly) :
    (assembly.mergeMember includes hook.name member).surface.hookChain hook =
      linkAll (assembly.surface.hookChain hook) member.definitions := by
  unfold Assembly.mergeMember linkAll
  rw [isHook]
  dsimp only
  generalize member.definitions = definitions
  induction definitions generalizing assembly with
  | nil => rfl
  | cons definition rest ih => rw [List.foldl_cons, List.foldl_cons, ih, hookChain_chain_self]

/-- The chain of a hook shows nothing of other names. -/
theorem hookChain_shows : Shows (fun a : Assembly => a.surface.hookChain hook) hook.name false :=
  fun _ _ _ concerns apart assembly => hookChain_apply concerns apart assembly

/-- Merging the members of a mixin links the chain that the mixin has. -/
theorem hookChain_mergeMembers {surface : Surface} (fitting : surface.Fitting)
    (assembly : Assembly) :
    (assembly.mergeMembers includes surface.members).surface.hookChain hook =
      linkAll (assembly.surface.hookChain hook) (surface.hookChain hook) := by
  have own : ∀ (state : Assembly) (member : SurfaceMember),
      (hook.name, member) ∈ surface.members.entries →
      state.surface.hookChain hook = assembly.surface.hookChain hook →
      (state.mergeMember includes hook.name member).surface.hookChain hook =
        linkAll (assembly.surface.hookChain hook) member.definitions := by
    intro state member mem same
    rw [← same]
    exact hookChain_mergeMember ((fitting.members.values _ mem).trans hook.ofName?_name) state
  exact hookChain_shows.mergeMembers fitting
    (fun member after => after = linkAll (assembly.surface.hookChain hook)
      ((member.map SurfaceMember.definitions).getD []))
    own rfl

/-- Merging a mixin links its chain to the one that is there. -/
theorem hookChain_addMixin (includes : Includes) (assembly : Assembly) (target : Nat)
    {included : Surface} (fitting : included.Fitting) :
    (assembly.addMixin includes target included).surface.hookChain hook =
      linkAll (assembly.surface.hookChain hook) (included.hookChain hook) := by
  have statics : ∀ state : Assembly,
      (state.mergeStatics includes included.statics).surface.hookChain hook =
        state.surface.hookChain hook := hookChain_shows.mergeStatics_unseen includes _
  rw [addMixin_eq, statics, hookChain_mergeMembers fitting, carryAll_surface]
  rfl

theorem hookChain_ownMember {member : SpecMember} (named : member.name = hook.name)
    (assembly : Assembly) :
    (assembly.ownMember member).surface.hookChain hook =
      linkAll (assembly.surface.hookChain hook)
        member.link?.toList := by
  have isHook : member.hook? = some hook := by
    rw [SpecMember.hook?, named, hook.ofName?_name]
  unfold ownMember
  rw [isHook]
  by_cases declared : member.kind.isDeclared = true
  · simp [SpecMember.link?, MemberDefinition.isDeclared, MemberDefinition.ofMember, declared,
      linkAll]
  · simp [SpecMember.link?, MemberDefinition.isDeclared, MemberDefinition.ofMember, declared,
      linkAll, named, hookChain_chain_self]

/-- The own definition of a hook is linked last. -/
theorem hookChain_own {spec : FactorySpec} {owner : Nat} (sound : spec.WellFormed owner)
    (assembly : Assembly) :
    (assembly.own spec).surface.hookChain hook =
      linkAll (assembly.surface.hookChain hook) (spec.link? hook).toList := by
  have statics : ∀ state : Assembly,
      (state.ownStatics spec.statics).surface.hookChain hook = state.surface.hookChain hook :=
    hookChain_shows.ownStatics_unseen _
  have own : ∀ (state : Assembly) (member : SpecMember),
      (hook.name, member) ∈ spec.members.entries →
      state.surface.hookChain hook = assembly.surface.hookChain hook →
      (state.ownMember member).surface.hookChain hook =
        linkAll (assembly.surface.hookChain hook) member.link?.toList := by
    intro state member mem same
    rw [← same]
    exact hookChain_ownMember (sound.members.values _ mem).1 state
  rw [own_eq, statics]
  exact hookChain_shows.ownMembers sound.members And.left
    (fun member after => after = linkAll (assembly.surface.hookChain hook)
      (member.bind SpecMember.link?).toList)
    own rfl

end Assembly

/-! ## Expansion -/

section Expansion

variable (registry : Registry) (options : Options) (hook : Hook)

/-- The call of that number has a definition of the hook itself. -/
def OwnLink (id : Nat) (definition : MemberDefinition) : Prop :=
  ∃ call, registry.get? id = some call ∧ call.spec.link? hook = some definition

/-- The definitions of a hook that the calls of a list come to: for each call, first those that its
own entries come to, then its own one. -/
inductive Expands : List Nat → List MemberDefinition → Prop where
  | nil : Expands [] []
  | cons {id : Nat} {ids : List Nat} {call : FactoryCall} {included rest : List MemberDefinition}
      (found : registry.get? id = some call)
      (entries : Expands ((edges registry options id).map Prod.fst) included)
      (others : Expands ids rest) :
      Expands (id :: ids) (included ++ (call.spec.link? hook).toList ++ rest)

variable {registry options hook}

/-- The call of that number owns its own link. -/
theorem OwnLink.owner (h : registry.WellFormed) {id : Nat} {definition : MemberDefinition}
    (own : OwnLink registry hook id definition) : definition.definition.owner = id := by
  obtain ⟨call, found, isOwn⟩ := own
  obtain ⟨member, memberFound, isLink⟩ := Option.bind_eq_some_iff.mp isOwn
  have spec := h.specs call (Registry.mem_of_get? found)
  rw [← h.id_of_get? found, ← (spec.members.of_get? memberFound).2]
  unfold SpecMember.link? at isLink
  split at isLink
  · cases isLink
  · rw [← Option.some.inj isLink]
    rfl

/-- The definitions of a call come from the call. -/
theorem OwnLink.origin (h : registry.WellFormed) {id : Nat} {definition : MemberDefinition}
    (own : OwnLink registry hook id definition) : definition.origin = id := by
  rw [← own.owner h]
  obtain ⟨call, -, isOwn⟩ := own
  obtain ⟨member, -, isLink⟩ := Option.bind_eq_some_iff.mp isOwn
  unfold SpecMember.link? at isLink
  split at isLink
  · cases isLink
  · rw [← Option.some.inj isLink]
    rfl

/-- A call has at most one link of a hook. -/
theorem OwnLink.unique {id : Nat} {one other : MemberDefinition}
    (first : OwnLink registry hook id one) (second : OwnLink registry hook id other) :
    one = other := by
  obtain ⟨call, found, isOne⟩ := first
  obtain ⟨again, foundAgain, isOther⟩ := second
  obtain rfl := Option.some.inj (found.symm.trans foundAgain)
  exact Option.some.inj (isOne.symm.trans isOther)

/-- Definitions of a hook are told apart by their identities. -/
theorem OwnLink.eq_of_definition (h : registry.WellFormed) {id otherId : Nat}
    {one other : MemberDefinition} (first : OwnLink registry hook id one)
    (second : OwnLink registry hook otherId other) (same : one.definition = other.definition) :
    one = other := by
  have sameId : id = otherId := by rw [← first.owner h, ← second.owner h, same]
  subst sameId
  exact first.unique second

namespace Expands

/-- Calls have at most one full expansion. -/
theorem unique {ids : List Nat} {one other : List MemberDefinition}
    (first : Expands registry options hook ids one)
    (second : Expands registry options hook ids other) : one = other := by
  induction first generalizing other with
  | nil =>
      cases second
      rfl
  | cons found _ _ included rest =>
      cases second with
      | cons again entries others =>
          obtain rfl := Option.some.inj (found.symm.trans again)
          rw [included entries, rest others]

/-- An expansion consists of the definitions of all calls that are covered. -/
theorem mem_iff {ids : List Nat} {full : List MemberDefinition}
    (expands : Expands registry options hook ids full) {definition : MemberDefinition} :
    definition ∈ full ↔
      ∃ id ∈ ids, ∃ mixin, Covers (edges registry options) id mixin ∧
        OwnLink registry hook mixin definition := by
  induction expands with
  | nil => simp
  | @cons id ids call included rest found entries others ihEntries ihOthers =>
      rw [List.mem_append, List.mem_append, ihEntries, ihOthers]
      constructor
      · rintro ((⟨inner, mem, mixin, covers, own⟩ | own) | ⟨later, mem, through⟩)
        · obtain ⟨⟨_, site⟩, entry, rfl⟩ := List.mem_map.mp mem
          exact ⟨id, List.mem_cons_self, mixin, .head ⟨site, entry⟩ covers, own⟩
        · exact ⟨id, List.mem_cons_self, id, .refl, call, found, by simpa using own⟩
        · exact ⟨later, List.mem_cons_of_mem _ mem, through⟩
      · rintro ⟨start, mem, mixin, covers, own⟩
        rcases List.mem_cons.mp mem with rfl | later
        · refine .inl ?_
          rcases Relation.ReflTransGen.cases_head covers with rfl | ⟨inner, ⟨site, entry⟩, way⟩
          · obtain ⟨same, again, isOwn⟩ := own
            obtain rfl := Option.some.inj (found.symm.trans again)
            exact .inr (by simp [isOwn])
          · exact .inl ⟨inner, List.mem_map_of_mem entry, mixin, way, own⟩
        · exact .inr ⟨start, later, mixin, covers, own⟩

/-- Wherever the definition of a mixin stands in an expansion, those of what the mixin includes
stand before it. -/
theorem leading (h : registry.WellFormed) {ids : List Nat} {full : List MemberDefinition}
    (expands : Expands registry options hook ids full) {early late : MemberDefinition}
    {outer inner : Nat} (ownLate : OwnLink registry hook outer late)
    (ownEarly : OwnLink registry hook inner early)
    (reaches : Reaches (edges registry options) outer inner) : Leading early late full := by
  induction expands with
  | nil => simp [Leading]
  | @cons id ids call included rest found entries others ihEntries ihOthers =>
      refine (ihEntries.append ?_).append (.inr ihOthers)
      cases isOwn : call.spec.link? hook with
      | none => exact .inr (by simp [Leading])
      | some own =>
          have ownHere : OwnLink registry hook id own := ⟨call, found, isOwn⟩
          by_cases same : own = late
          · subst same
            obtain rfl : id = outer := (ownHere.owner h).symm.trans (ownLate.owner h)
            obtain ⟨first, ⟨site, entry⟩, covers⟩ := Relation.TransGen.head'_iff.mp reaches
            exact .inl (entries.mem_iff.mpr
              ⟨first, List.mem_map_of_mem entry, inner, covers, ownEarly⟩)
          · refine .inr fun before after split => ?_
            have onlyOwn : late ∈ [own] := by
              rw [show [own] = before ++ late :: after from split]
              simp
            exact absurd (List.mem_singleton.mp onlyOwn).symm same

/-- Definitions of an expansion are told apart by their identities. -/
theorem eq_of_definition (h : registry.WellFormed) {ids : List Nat} {full : List MemberDefinition}
    (expands : Expands registry options hook ids full) {one other : MemberDefinition}
    (oneMem : one ∈ full) (otherMem : other ∈ full) (same : one.definition = other.definition) :
    one = other := by
  obtain ⟨_, _, _, _, ownOne⟩ := expands.mem_iff.mp oneMem
  obtain ⟨_, _, _, _, ownOther⟩ := expands.mem_iff.mp otherMem
  exact ownOne.eq_of_definition h ownOther same

/-- The first occurrences of an expansion are the definitions of all calls that are covered. -/
theorem mem_linkAll_iff (h : registry.WellFormed) {id : Nat} {full : List MemberDefinition}
    (expands : Expands registry options hook [id] full) {definition : MemberDefinition} :
    definition ∈ linkAll [] full ↔
      ∃ mixin, Covers (edges registry options) id mixin ∧
        OwnLink registry hook mixin definition := by
  have inFull : definition ∈ full ↔ ∃ mixin, Covers (edges registry options) id mixin ∧
      OwnLink registry hook mixin definition := by
    rw [expands.mem_iff]
    simp
  rw [← inFull]
  constructor
  · intro mem
    simpa using mem_of_mem_linkAll mem
  · intro mem
    exact mem_linkAll_of_mem
      (fun other otherMem same => expands.eq_of_definition h otherMem mem same) mem

/-- What leads in the full expansion comes first in the chain. -/
theorem precedes_linkAll (h : registry.WellFormed) {ids : List Nat} {full : List MemberDefinition}
    (expands : Expands registry options hook ids full) {early late : MemberDefinition}
    (leading : Leading early late full) (mem : late ∈ linkAll [] full) :
    Precedes (linkAll [] full) early late := by
  obtain ⟨before, after, split⟩ := List.append_of_mem mem
  refine ⟨before, after, split, ?_⟩
  obtain ⟨earlier, later, rfl, rfl⟩ := exists_split_of_linkAll split
  have earlyMem : early ∈ earlier := leading earlier later rfl
  refine mem_linkAll_of_mem (fun other otherMem same => ?_) earlyMem
  exact expands.eq_of_definition h (List.mem_append_left _ otherMem)
    (List.mem_append_left _ earlyMem) same

end Expands

/-- The chains of the mixins are linked one after another. -/
theorem Assembly.hookChain_merged {includes : Includes} {entries : List (Nat × Surface)}
    (fitting : ∀ entry ∈ entries, entry.2.Fitting) (start : Assembly) :
    (entries.foldl (fun a entry => a.addMixin includes entry.1 entry.2)
        start).surface.hookChain hook =
      linkAll (start.surface.hookChain hook)
        (entries.flatMap fun entry => entry.2.hookChain hook) := by
  induction entries generalizing start with
  | nil => rfl
  | cons entry rest ih =>
      rw [List.foldl_cons, ih fun later mem => fitting later (List.mem_cons_of_mem _ mem),
        hookChain_addMixin _ _ _ (fitting entry List.mem_cons_self), List.flatMap_cons,
        linkAll_append]

/-- The chain of a call that is merged links the chains of the mixins, and its own definition
last. -/
theorem hookChain_assembled (h : registry.WellFormed) {call : FactoryCall}
    (mergeable : Mergeable registry options call) :
    (assembled registry options call).surface.hookChain hook =
      linkAll []
        ((inclusions registry options call).merged.flatMap (fun entry => entry.2.hookChain hook) ++
          (call.spec.link? hook).toList) := by
  rw [assembled, assemble, Assembly.hookChain_own (h.specs call mergeable.mem), linkAll_append,
    Assembly.hookChain_merged (merged_fitting h)]
  rfl

/-- What is published of an assembly has the chain of the assembly. -/
theorem exposed_hookChain (call : FactoryCall) (assembly : Assembly) :
    (exposed call assembly).hookChain hook = assembly.surface.hookChain hook :=
  exposed_view (fun surface => surface.hookChain hook) (fun _ _ => rfl) call assembly

/-- Mixins whose chains keep the first occurrences of their expansions do so one after another. -/
theorem exists_expands_entries {entries : List (Nat × Surface)}
    (each : ∀ entry ∈ entries, ∃ full, Expands registry options hook [entry.1] full ∧
      entry.2.hookChain hook = linkAll [] full) :
    ∃ full, Expands registry options hook (entries.map Prod.fst) full ∧
      ∀ chain, linkAll chain (entries.flatMap fun entry => entry.2.hookChain hook) =
        linkAll chain full := by
  induction entries with
  | nil => exact ⟨[], .nil, fun _ => rfl⟩
  | cons entry rest ih =>
      obtain ⟨first, expands, firstChain⟩ := each entry List.mem_cons_self
      obtain ⟨others, othersExpand, othersChain⟩ :=
        ih fun later mem => each later (List.mem_cons_of_mem _ mem)
      cases expands with
      | cons found included none =>
          cases none
          refine ⟨_, .cons found included othersExpand, fun chain => ?_⟩
          rw [List.append_nil] at firstChain
          rw [List.flatMap_cons, linkAll_append, firstChain, linkAll_linkAll, othersChain,
            ← linkAll_append]

/-- A call that is merged has a full expansion, of which its chain keeps the first occurrences, if
the mixins it includes have. -/
theorem Mergeable.exists_expands_of_entries (h : registry.WellFormed) {call : FactoryCall}
    (mergeable : Mergeable registry options call)
    (included : ∀ entry ∈ (inclusions registry options call).merged,
      ∃ full, Expands registry options hook [entry.1] full ∧
        entry.2.hookChain hook = linkAll [] full) :
    ∃ full, Expands registry options hook [call.id] full ∧
      (assembled registry options call).surface.hookChain hook = linkAll [] full := by
  obtain ⟨full, expands, chain⟩ := exists_expands_entries included
  rw [mergeable.merged_ids h] at expands
  refine ⟨_, .cons (h.get?_id mergeable.mem) expands .nil, ?_⟩
  rw [hookChain_assembled h mergeable, linkAll_append, chain, List.append_nil, linkAll_append]

/-- Every call that resolved has a full expansion, of which its chain keeps the first
occurrences. -/
theorem exists_expands (h : registry.WellFormed) {id : Nat} {surface : Surface}
    (found : (resolve registry options).surface? id = some surface) (hook : Hook) :
    ∃ full, Expands registry options hook [id] full ∧ surface.hookChain hook = linkAll [] full := by
  refine surface_induction (fun id surface => ∃ full, Expands registry options hook [id] full ∧
    surface.hookChain hook = linkAll [] full) h (fun call mergeable _ included => ?_) found
  rw [exposed_hookChain]
  exact mergeable.exists_expands_of_entries h included

/-- Whatever comes of a call once it is merged, its chain consists of the definitions of all calls
that are covered. -/
theorem Mergeable.mem_hookChain_iff (h : registry.WellFormed) {call : FactoryCall}
    (mergeable : Mergeable registry options call) {definition : MemberDefinition} :
    definition ∈ (assembled registry options call).surface.hookChain hook ↔
      ∃ mixin, Covers (edges registry options) call.id mixin ∧
        OwnLink registry hook mixin definition := by
  have included : ∀ entry ∈ (inclusions registry options call).merged,
      ∃ full, Expands registry options hook [entry.1] full ∧
        entry.2.hookChain hook = linkAll [] full :=
    fun entry mem => exists_expands h (surface?_of_mem_merged mem) hook
  obtain ⟨full, expands, chain⟩ := mergeable.exists_expands_of_entries h included
  rw [chain]
  exact expands.mem_linkAll_iff h

/-- No definition stands twice in the chain of a call that is merged. -/
theorem Mergeable.hookChain_nodup (h : registry.WellFormed) {call : FactoryCall}
    (mergeable : Mergeable registry options call) :
    (((assembled registry options call).surface.hookChain hook).map
      MemberDefinition.definition).Nodup := by
  rw [hookChain_assembled h mergeable]
  exact linkAll_nodup List.nodup_nil

/-- The own definition of a call that resolved stands in no expansion of its entries. -/
theorem own_notMem_entries (h : registry.WellFormed) {call : FactoryCall}
    (mergeable : Mergeable registry options call) {included : List MemberDefinition}
    (entries : Expands registry options hook ((edges registry options call.id).map Prod.fst)
      included) {own : MemberDefinition} (isOwn : OwnLink registry hook call.id own) :
    own.definition ∉ included.map MemberDefinition.definition := by
  intro listed
  obtain ⟨other, mem, same⟩ := List.mem_map.mp listed
  obtain ⟨inner, entry, mixin, covers, ownOther⟩ := entries.mem_iff.mp mem
  obtain ⟨⟨_, site⟩, entryMem, rfl⟩ := List.mem_map.mp entry
  have here : mixin = call.id := by
    rw [← ownOther.owner h, same, isOwn.owner h]
  rw [here] at covers
  exact mergeable.not_reaches_self h (Relation.TransGen.head' ⟨site, entryMem⟩ covers)

end Expansion

/-- The chain of a hook in a call that resolved keeps the first occurrences of the full expansion of
the call. Each definition of a covered call occurs once, those of what a call includes come before
its own one, and that of the call itself is last. -/
theorem hookChain_expands {registry : Registry} {options : Options} (h : registry.WellFormed)
    {id : Nat} {surface : Surface}
    (found : (resolve registry options).surface? id = some surface) (hook : Hook) :
    (∃ full, Expands registry options hook [id] full ∧
      (∀ other, Expands registry options hook [id] other → other = full) ∧
      surface.hookChain hook = full.eraseDupsBy MemberDefinition.same) ∧
    ((surface.hookChain hook).map MemberDefinition.definition).Nodup ∧
    (∀ definition, definition ∈ surface.hookChain hook ↔
      ∃ mixin, Covers (edges registry options) id mixin ∧
        OwnLink registry hook mixin definition) ∧
    (∀ outer inner late early, Covers (edges registry options) id outer →
      Reaches (edges registry options) outer inner → OwnLink registry hook outer late →
      OwnLink registry hook inner early → Precedes (surface.hookChain hook) early late) ∧
    (∀ own, OwnLink registry hook id own → (surface.hookChain hook).getLast? = some own) := by
  obtain ⟨full, expands, chain⟩ := exists_expands h found hook
  have mem_iff : ∀ definition, definition ∈ surface.hookChain hook ↔
      ∃ mixin, Covers (edges registry options) id mixin ∧
        OwnLink registry hook mixin definition := by
    intro definition
    rw [chain]
    exact expands.mem_linkAll_iff h
  refine ⟨⟨full, expands, fun other otherExpands => otherExpands.unique expands, ?_⟩, ?_, mem_iff,
    ?_, ?_⟩
  · rw [chain, linkAll_nil]
  · rw [chain]
    exact linkAll_nodup List.nodup_nil
  · intro outer inner late early covers reaches ownLate ownEarly
    have mem : late ∈ surface.hookChain hook := (mem_iff late).mpr ⟨outer, covers, ownLate⟩
    rw [chain] at mem ⊢
    exact expands.precedes_linkAll h (expands.leading h ownLate ownEarly reaches) mem
  · intro own isOwn
    obtain ⟨call, rfl, mergeable, -⟩ := exists_mergeable h found
    obtain ⟨again, foundCall, ownLink⟩ := isOwn
    cases expands with
    | cons foundAgain entries none =>
        cases none
        obtain rfl := Option.some.inj (foundCall.symm.trans foundAgain)
        have fresh := own_notMem_entries h mergeable entries ⟨again, foundCall, ownLink⟩
        rename_i included
        have notLinked : own.definition ∉
            (linkAll [] included).map MemberDefinition.definition :=
          fun listed => fresh (by simpa using mem_definitions_linkAll.mp listed)
        rw [chain, ownLink, List.append_nil, Option.toList_some, linkAll_concat,
          link_of_notMem notLinked, List.getLast?_concat]

/-- A component whose two mixins include the same third one, all with a definition of one hook. -/
def diamondRegistry : Registry :=
  plainRegistry [⟨.mixin, "Base", [], ["componentDidMount"]⟩,
    ⟨.mixin, "Left", ["Base"], ["componentDidMount"]⟩,
    ⟨.mixin, "Right", ["Base"], ["componentDidMount"]⟩,
    ⟨.component, "Top", ["Left", "Right"], ["componentDidMount", "render"]⟩]

/-- The full expansion has the definition of the shared mixin twice, the chain once. -/
theorem hookChain_expands_diamond :
    ∃ surface, (resolve diamondRegistry .standard).surface? 3 = some surface ∧
      ((surface.hookChain .componentDidMount).map MemberDefinition.definition).Nodup ∧
      ∃ full, Expands diamondRegistry .standard .componentDidMount [3] full ∧
        surface.hookChain .componentDidMount = full.eraseDupsBy MemberDefinition.same := by
  have resolved : ((resolve diamondRegistry .standard).surface? 3).isSome = true := by decide
  obtain ⟨surface, found⟩ := Option.isSome_iff_exists.mp resolved
  obtain ⟨⟨full, expands, -, chain⟩, distinct, -⟩ :=
    hookChain_expands (plainRegistry_wellFormed _) found .componentDidMount
  exact ⟨surface, found, distinct, full, expands, chain⟩

end ClassFactory
