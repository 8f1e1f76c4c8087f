/-
Module: ClassFactory.Proofs.Mixins.Writes
Purpose: The elementary writes that merging a mixin and adding own definitions come down to. Each
  concerns one name, so what is seen of another name, and whatever every write keeps, outlasts the
  operations.
Main exports: Assembly.contested, Write, Writes, mergeMember_writes, mergeStatic_writes,
  ownMember_writes, ownStatic_writes, Shows, Assembly.addMixin_keeps, Assembly.own_keeps
-/
import ClassFactory.Mixins.Assembly
import ClassFactory.Proofs.Keyed

namespace ClassFactory

namespace Assembly

/-! ## Noted origins -/

/-- The origins noted under a name that is ambiguous. -/
def contested (assembly : Assembly) (name : String) (isStatic : Bool) : List (Nat × Site) :=
  ((assembly.ambiguity? name isStatic).map Ambiguity.origins).getD []

/-- An ambiguity concerns a name just if it has that name and is of that kind. -/
theorem concerns_iff {name : String} {isStatic : Bool} {ambiguity : Ambiguity} :
    concerns name isStatic ambiguity = true ↔
      ambiguity.name = name ∧ ambiguity.isStatic = isStatic := by
  simp [concerns]

theorem concerns_disjoint {name other : String} {isStatic otherStatic : Bool}
    (apart : ¬ (name = other ∧ isStatic = otherStatic)) {ambiguity : Ambiguity}
    (there : concerns other otherStatic ambiguity = true) :
    concerns name isStatic ambiguity ≠ true := by
  intro here
  obtain ⟨rfl, rfl⟩ := concerns_iff.mp here
  exact apart (concerns_iff.mp there)

/-- A further origin is noted once. -/
theorem mem_addOrigin {ambiguity : Ambiguity} {origin id : Nat} {site : Site} :
    id ∈ (addOrigin ambiguity origin site).origins.map Prod.fst ↔
      id = origin ∨ id ∈ ambiguity.origins.map Prod.fst := by
  unfold addOrigin
  split
  · rename_i known
    obtain ⟨place, mem, same⟩ := List.any_eq_true.mp known
    have known : origin ∈ ambiguity.origins.map Prod.fst :=
      List.mem_map.mpr ⟨place, mem, by simpa using same⟩
    constructor
    · exact .inr
    · rintro (rfl | earlier)
      · exact known
      · exact earlier
  · simp [or_comm]

@[simp]
theorem note_surface (assembly : Assembly) (name : String) (isStatic : Bool) (origin : Nat)
    (site : Site) : (assembly.note name isStatic origin site).surface = assembly.surface := by
  unfold note
  split <;> rfl

/-- A further origin changes neither the name nor the kind. -/
theorem concerns_addOrigin (name : String) (isStatic : Bool) (ambiguity : Ambiguity)
    (origin : Nat) (site : Site) :
    concerns name isStatic (addOrigin ambiguity origin site) =
      concerns name isStatic ambiguity := by
  unfold addOrigin
  split <;> rfl

/-- Noting an origin adds it to the one ambiguity of the name, which is new if there was none. -/
theorem ambiguity?_note_self (assembly : Assembly) (name : String) (isStatic : Bool) (origin : Nat)
    (site : Site) :
    (assembly.note name isStatic origin site).ambiguity? name isStatic =
      some (match assembly.ambiguity? name isStatic with
        | some ambiguity => addOrigin ambiguity origin site
        | none => { name := name, isStatic := isStatic, origins := [(origin, site)] }) := by
  cases found : assembly.ambiguity? name isStatic with
  | some ambiguity =>
      have kept : (concerns name isStatic ∘ fun a =>
          if concerns name isStatic a then addOrigin a origin site else a) =
            concerns name isStatic := by
        funext a
        simp only [Function.comp_apply]
        split
        · exact concerns_addOrigin name isStatic a origin site
        · rfl
      have here : concerns name isStatic ambiguity = true := List.find?_some found
      have listed : assembly.pending.find? (concerns name isStatic) = some ambiguity := found
      simp only [note, found]
      rw [ambiguity?, List.find?_map, kept, listed, Option.map_some, if_pos here]
  | none =>
      have absent : assembly.pending.find? (concerns name isStatic) = none := found
      simp [note, ambiguity?, List.find?_append, absent, concerns]

/-- Noting an origin leaves the ambiguities of other names alone. -/
theorem ambiguity?_note_other {name other : String} {isStatic otherStatic : Bool}
    (apart : ¬ (name = other ∧ isStatic = otherStatic)) (assembly : Assembly) (origin : Nat)
    (site : Site) :
    (assembly.note name isStatic origin site).ambiguity? other otherStatic =
      assembly.ambiguity? other otherStatic := by
  unfold note
  split
  · have kept : (concerns other otherStatic ∘ fun a =>
        if concerns name isStatic a then addOrigin a origin site else a) =
          concerns other otherStatic := by
      funext a
      simp only [Function.comp_apply]
      split
      · exact concerns_addOrigin other otherStatic a origin site
      · rfl
    simp only [ambiguity?, List.find?_map, kept]
    cases found : assembly.pending.find? (concerns other otherStatic) with
    | none => rfl
    | some ambiguity => simp [concerns_disjoint apart (List.find?_some found)]
  · simp [ambiguity?, List.find?_append, concerns, apart]

/-- A settled name has no ambiguity. -/
theorem ambiguity?_settle_self (assembly : Assembly) (name : String) (isStatic : Bool) :
    (assembly.settle name isStatic).ambiguity? name isStatic = none := by
  simp [ambiguity?, settle, List.find?_filter]

/-- Settling a name leaves the ambiguities of other names alone. -/
theorem ambiguity?_settle_other {name other : String} {isStatic otherStatic : Bool}
    (apart : ¬ (name = other ∧ isStatic = otherStatic)) (assembly : Assembly) :
    (assembly.settle name isStatic).ambiguity? other otherStatic =
      assembly.ambiguity? other otherStatic := by
  have kept : (fun a => !concerns name isStatic a && concerns other otherStatic a) =
      concerns other otherStatic := by
    funext a
    cases there : concerns other otherStatic a with
    | false => simp
    | true =>
        have missing : concerns name isStatic a = false := by
          rw [Bool.eq_false_iff]
          exact concerns_disjoint apart there
        simp [missing]
  simp [ambiguity?, settle, List.find?_filter, kept]

/-- Noting an origin adds it to those that contend for the name. -/
@[simp]
theorem contested_note_self (assembly : Assembly) (name : String) (isStatic : Bool) (origin : Nat)
    (site : Site) (id : Nat) :
    id ∈ ((assembly.note name isStatic origin site).contested name isStatic).map Prod.fst ↔
      id = origin ∨ id ∈ (assembly.contested name isStatic).map Prod.fst := by
  unfold contested
  rw [ambiguity?_note_self]
  cases assembly.ambiguity? name isStatic with
  | none => simp
  | some ambiguity => exact mem_addOrigin

/-! ## Members and statics -/

/-- What is put in place under a name is what a call reaches. -/
@[simp]
theorem primary?_set_self (assembly : Assembly) (name : String) (definition : MemberDefinition) :
    (assembly.set name definition).surface.primary? name = some definition := by
  simp [set, Surface.primary?, Surface.member?, Keyed.get?_insert_self, SurfaceMember.primary?]

/-! ## Writes -/

/-- A change of an assembly that concerns one name. -/
inductive Write where
  | note (name : String) (isStatic : Bool) (origin : Nat) (site : Site)
  | settle (name : String) (isStatic : Bool)
  | set (name : String) (definition : MemberDefinition)
  | chain (name : String) (hook : Hook) (definition : MemberDefinition)
  | setStatic (entry : StaticMember)

namespace Write

/-- The assembly after the change. -/
def apply (assembly : Assembly) : Write → Assembly
  | note name isStatic origin site => assembly.note name isStatic origin site
  | settle name isStatic => assembly.settle name isStatic
  | set name definition => assembly.set name definition
  | chain name hook definition => assembly.chain name hook definition
  | setStatic entry => assembly.setStatic entry

/-- The change concerns that name, of a static or not; hooks are chained, other members set. -/
inductive Concerns : String → Bool → Write → Prop where
  | note (name : String) (isStatic : Bool) (origin : Nat) (site : Site) :
      Concerns name isStatic (.note name isStatic origin site)
  | settle (name : String) (isStatic : Bool) : Concerns name isStatic (.settle name isStatic)
  | set {name : String} (ordinary : Hook.ofName? name = none) (definition : MemberDefinition) :
      Concerns name false (.set name definition)
  | chain {name : String} {hook : Hook} (named : Hook.ofName? name = some hook)
      (definition : MemberDefinition) : Concerns name false (.chain name hook definition)
  | setStatic (entry : StaticMember) : Concerns entry.name true (.setStatic entry)

/-! What is seen of one name outlasts the changes that concern another. -/

section Other

variable {write : Write} {name other : String} {isStatic otherStatic : Bool}

/-- A write leaves the ambiguities of other names alone. -/
theorem ambiguity?_apply (concerns : write.Concerns name isStatic)
    (apart : ¬ (name = other ∧ isStatic = otherStatic)) (assembly : Assembly) :
    (write.apply assembly).ambiguity? other otherStatic =
      assembly.ambiguity? other otherStatic := by
  cases concerns with
  | note => exact ambiguity?_note_other apart assembly _ _
  | settle => exact ambiguity?_settle_other apart assembly
  | set => rfl
  | chain =>
      simp only [apply, Assembly.chain]
      split <;> rfl
  | setStatic => rfl

/-- A write leaves the other members alone. -/
theorem member?_apply (concerns : write.Concerns name isStatic)
    (apart : ¬ (name = other ∧ isStatic = false)) (assembly : Assembly) :
    (write.apply assembly).surface.member? other = assembly.surface.member? other := by
  cases concerns with
  | note => simp [apply]
  | settle => rfl
  | set => exact Keyed.get?_insert_other _ (fun same => apart ⟨same.symm, rfl⟩) _
  | chain =>
      simp only [apply, Assembly.chain]
      split
      · rfl
      · exact Keyed.get?_insert_other _ (fun same => apart ⟨same.symm, rfl⟩) _
  | setStatic => rfl

/-- A write leaves the other statics alone. -/
theorem static?_apply (concerns : write.Concerns name isStatic)
    (apart : ¬ (name = other ∧ isStatic = true)) (assembly : Assembly) :
    (write.apply assembly).surface.statics.get? other =
      assembly.surface.statics.get? other := by
  cases concerns with
  | note => simp [apply]
  | settle => rfl
  | set => rfl
  | chain =>
      simp only [apply, Assembly.chain]
      split <;> rfl
  | setStatic => exact Keyed.get?_insert_other _ (fun same => apart ⟨same.symm, rfl⟩) _

end Other

end Write

/-- The second assembly results from the first by changes that concern one name. -/
inductive Writes (name : String) (isStatic : Bool) : Assembly → Assembly → Prop where
  | refl (assembly : Assembly) : Writes name isStatic assembly assembly
  | step {before after : Assembly} {write : Write} (writes : Writes name isStatic before after)
      (concerns : write.Concerns name isStatic) : Writes name isStatic before (write.apply after)

namespace Writes

variable {name : String} {isStatic : Bool} {before middle after : Assembly}

theorem single {write : Write} (concerns : write.Concerns name isStatic) (assembly : Assembly) :
    Writes name isStatic assembly (write.apply assembly) :=
  .step (.refl assembly) concerns

theorem trans (first : Writes name isStatic before middle)
    (second : Writes name isStatic middle after) : Writes name isStatic before after := by
  induction second with
  | refl => exact first
  | step _ concerns ih => exact .step ih concerns

/-- What each step writes under a name a run writes under it. -/
theorem foldl {ι : Type} {step : Assembly → ι → Assembly} {items : List ι}
    (each : ∀ assembly, ∀ item ∈ items, Writes name isStatic assembly (step assembly item))
    (assembly : Assembly) : Writes name isStatic assembly (items.foldl step assembly) :=
  List.foldlRecOn items step (.refl assembly)
    fun state writes item mem => writes.trans (each state item mem)

/-- What each change keeps is kept. -/
theorem keeps (holds : Assembly → Prop) (writes : Writes name isStatic before after)
    (kept : ∀ assembly (write : Write), write.Concerns name isStatic → holds assembly →
      holds (write.apply assembly))
    (start : holds before) : holds after := by
  induction writes with
  | refl => exact start
  | step _ concerns ih => exact kept _ _ concerns ih

/-- What no change touches is as it was. -/
theorem view_eq {τ : Type} (view : Assembly → τ) (writes : Writes name isStatic before after)
    (same : ∀ assembly (write : Write), write.Concerns name isStatic →
      view (write.apply assembly) = view assembly) : view after = view before := by
  induction writes with
  | refl => rfl
  | step _ concerns ih => exact (same _ _ concerns).trans ih

end Writes

/-! ## Operations as writes -/

variable {includes : Includes} {name : String}

theorem note_writes (assembly : Assembly) (isStatic : Bool) (origin : Nat) (site : Site) :
    Writes name isStatic assembly (assembly.note name isStatic origin site) :=
  .single (.note name isStatic origin site) assembly

theorem set_writes (ordinary : Hook.ofName? name = none) (assembly : Assembly)
    (definition : MemberDefinition) :
    Writes name false assembly (assembly.set name definition) :=
  .single (.set ordinary definition) assembly

/-- Carrying an ambiguity over writes under its name only. -/
theorem carry_writes (assembly : Assembly) (ambiguity : Ambiguity) :
    Writes ambiguity.name ambiguity.isStatic assembly (assembly.carry ambiguity) :=
  .foldl (fun state _ _ => note_writes state _ _ _) assembly

/-- Letting two definitions contend writes under their name only. -/
theorem contend_writes (ordinary : Hook.ofName? name = none) (assembly : Assembly)
    (existing incoming : MemberDefinition) :
    Writes name false assembly (assembly.contend includes name existing incoming) := by
  unfold contend
  split
  · refine .trans ?_ (set_writes ordinary _ incoming)
    split
    · exact .single (.settle name false) assembly
    · exact .refl _
  · split
    · exact .refl _
    · exact ((note_writes _ _ _ _).trans (note_writes _ _ _ _)).trans (set_writes ordinary _ _)

/-- Merging a definition writes under its name only. -/
theorem merge_writes (ordinary : Hook.ofName? name = none) (assembly : Assembly)
    (incoming : MemberDefinition) :
    Writes name false assembly (assembly.merge includes name incoming) := by
  unfold merge
  repeat' split
  · exact set_writes ordinary _ _
  · exact .refl _
  · exact .refl _
  · exact set_writes ordinary _ _
  · exact set_writes ordinary _ _
  · exact contend_writes ordinary _ _ _

theorem mergeMember_writes {member : SurfaceMember} (fits : member.hook = Hook.ofName? name)
    (assembly : Assembly) :
    Writes name false assembly (assembly.mergeMember includes name member) := by
  unfold mergeMember
  split
  · rename_i hook isHook
    exact .foldl (fun state definition _ =>
      .single (.chain (fits ▸ isHook) definition) state) assembly
  · rename_i ordinary
    split
    · exact merge_writes (fits ▸ ordinary) _ _
    · exact .refl _

theorem mergeStatic_writes (assembly : Assembly) (incoming : StaticMember) :
    Writes incoming.name true assembly (assembly.mergeStatic includes incoming) := by
  unfold mergeStatic
  repeat' split
  · exact .single (.setStatic incoming) _
  · exact .refl _
  · exact .single (.setStatic incoming) _
  · exact ((note_writes _ _ _ _).trans (note_writes _ _ _ _)).trans
      (.single (.setStatic incoming) _)

theorem overrideWith_writes (ordinary : Hook.ofName? name = none) (assembly : Assembly)
    (own : MemberDefinition) : Writes name false assembly (assembly.overrideWith name own) := by
  unfold overrideWith
  split
  · exact set_writes ordinary _ _
  · split
    · exact set_writes ordinary _ _
    · exact .trans (.single (.settle name false) assembly) (set_writes ordinary _ _)

theorem ownMember_writes (assembly : Assembly) (member : SpecMember) :
    Writes member.name false assembly (assembly.ownMember member) := by
  unfold ownMember
  dsimp only
  split
  · rename_i hook isHook
    split
    · exact .refl _
    · exact .single (.chain isHook _) _
  · rename_i ordinary
    exact overrideWith_writes ordinary _ _

theorem ownStatic_writes (assembly : Assembly) (entry : StaticDef) :
    Writes entry.name true assembly (assembly.ownStatic entry) :=
  .trans (.single (.settle entry.name true) assembly)
    (.single (.setStatic (StaticMember.ofStatic entry)) _)

/-! ## Whole mixins and whole specifications -/

/-- An assembly that includes a mixin of which nothing is merged yet. -/
def including (assembly : Assembly) (target : Nat) (included : Surface) : Assembly :=
  { assembly with
    surface :=
      { assembly.surface with
        includes := (target :: included.includes).foldl addId assembly.surface.includes
        pureRender := assembly.surface.pureRender || included.pureRender } }

/-- The members of an included mixin, one after another. -/
def mergeMembers (includes : Includes) (assembly : Assembly) (members : Keyed SurfaceMember) :
    Assembly :=
  members.entries.foldl (fun a entry => a.mergeMember includes entry.1 entry.2) assembly

/-- The statics of an included mixin, one after another. -/
def mergeStatics (includes : Includes) (assembly : Assembly) (statics : Keyed StaticMember) :
    Assembly :=
  statics.entries.foldl (fun a entry => a.mergeStatic includes entry.2) assembly

/-- The own members of a specification, one after another. -/
def ownMembers (assembly : Assembly) (members : Keyed SpecMember) : Assembly :=
  members.entries.foldl (fun a entry => a.ownMember entry.2) assembly

/-- The own statics of a specification, one after another. -/
def ownStatics (assembly : Assembly) (statics : Keyed StaticDef) : Assembly :=
  statics.entries.foldl (fun a entry => a.ownStatic entry.2) assembly

/-- Merging a mixin: what it includes and its ambiguities first, then its members, then its
statics. -/
theorem addMixin_eq (includes : Includes) (assembly : Assembly) (target : Nat)
    (included : Surface) :
    assembly.addMixin includes target included =
      (((included.ambiguities.foldl carry (assembly.including target included)).mergeMembers
        includes included.members).mergeStatics includes included.statics) := by
  simp only [addMixin, mergeStatics, mergeMembers, including, Keyed.values, List.foldl_map]

/-- The own definitions of a call: its members first, then its statics. -/
theorem own_eq (assembly : Assembly) (spec : FactorySpec) :
    assembly.own spec = (assembly.ownMembers spec.members).ownStatics spec.statics := by
  simp only [own, ownStatics, ownMembers, Keyed.values, List.foldl_map]

end Assembly

/-- Carrying ambiguities over leaves the surface alone. -/
theorem Assembly.carryAll_surface (ambiguities : List Ambiguity) (assembly : Assembly) :
    (ambiguities.foldl carry assembly).surface = assembly.surface :=
  foldl_view_eq Assembly.surface (fun state _ _ =>
    foldl_view_eq Assembly.surface (fun state _ _ => note_surface state _ _ _ _) state) assembly

/-- Hooks stand under their names, and statics under their own. -/
structure Surface.Fitting (surface : Surface) : Prop where
  members : surface.members.Sound fun name member => member.hook = Hook.ofName? name
  statics : surface.statics.Sound fun name entry => entry.name = name

/-! ## Views of one name -/

/-- The view shows nothing but what stands under one name. -/
def Assembly.Shows {τ : Type} (view : Assembly → τ) (name : String) (isStatic : Bool) : Prop :=
  ∀ (write : Write) (other : String) (otherStatic : Bool), write.Concerns other otherStatic →
    ¬ (other = name ∧ otherStatic = isStatic) →
    ∀ assembly : Assembly, view (write.apply assembly) = view assembly

namespace Assembly.Shows

variable {τ : Type} {view : Assembly → τ} {name : String} {isStatic : Bool} {assembly : Assembly}

/-- What is seen of a name outlasts the writes under another. -/
theorem unseen (shows : Shows view name isStatic) {other : String} {otherStatic : Bool}
    {before after : Assembly} (writes : Writes other otherStatic before after)
    (apart : ¬ (other = name ∧ otherStatic = isStatic)) : view after = view before :=
  writes.view_eq view fun state write concerns => shows write _ _ concerns apart state

/-! Members do not show in a view of a static, nor statics in a view of a member. -/

theorem mergeMembers_unseen (shows : Shows view name true) {included : Surface}
    (fitting : included.Fitting) (includes : Includes) (assembly : Assembly) :
    view (assembly.mergeMembers includes included.members) = view assembly :=
  foldl_view_eq view (fun state entry mem =>
    shows.unseen (mergeMember_writes (fitting.members.values entry mem) state) (by simp)) assembly

/-- Merging statics shows nothing under the name of a member. -/
theorem mergeStatics_unseen (shows : Shows view name false) (includes : Includes)
    (statics : Keyed StaticMember) (assembly : Assembly) :
    view (assembly.mergeStatics includes statics) = view assembly :=
  foldl_view_eq view (fun state entry _ =>
    shows.unseen (mergeStatic_writes state entry.2) (by simp)) assembly

theorem ownMembers_unseen (shows : Shows view name true) (members : Keyed SpecMember)
    (assembly : Assembly) : view (assembly.ownMembers members) = view assembly :=
  foldl_view_eq view (fun state entry _ =>
    shows.unseen (ownMember_writes state entry.2) (by simp)) assembly

/-- Own statics show nothing under the name of a member. -/
theorem ownStatics_unseen (shows : Shows view name false) (statics : Keyed StaticDef)
    (assembly : Assembly) : view (assembly.ownStatics statics) = view assembly :=
  foldl_view_eq view (fun state entry _ =>
    shows.unseen (ownStatic_writes state entry.2) (by simp)) assembly

/-! Going through entries, only the one of the name shows. -/

/-- What merging members does to what is seen of a name is what the member of that name does. -/
theorem mergeMembers (shows : Shows view name false) {includes : Includes} {included : Surface}
    (fitting : included.Fitting) (acts : Option SurfaceMember → τ → Prop)
    (own : ∀ state member, (name, member) ∈ included.members.entries → view state = view assembly →
      acts (some member) (view (state.mergeMember includes name member)))
    (absent : acts none (view assembly)) :
    acts (included.members.get? name)
      (view (assembly.mergeMembers includes included.members)) :=
  Keyed.foldl_keyed view acts (fun state entry mem apart =>
    shows.unseen (mergeMember_writes (fitting.members.values entry mem) state)
      fun same => apart same.1)
    own absent fitting.members.distinct

/-- What merging statics does to what is seen of a name is what the static of that name does. -/
theorem mergeStatics (shows : Shows view name true) {includes : Includes} {included : Surface}
    (fitting : included.Fitting) (acts : Option StaticMember → τ → Prop)
    (own : ∀ state entry, (name, entry) ∈ included.statics.entries → view state = view assembly →
      acts (some entry) (view (state.mergeStatic includes entry)))
    (absent : acts none (view assembly)) :
    acts (included.statics.get? name)
      (view (assembly.mergeStatics includes included.statics)) :=
  Keyed.foldl_keyed view acts (fun state entry mem apart =>
    shows.unseen (mergeStatic_writes state entry.2)
      fun same => apart ((fitting.statics.values entry mem).symm.trans same.1))
    own absent fitting.statics.distinct

/-- What the own members do to what is seen of a name is what the member of that name does. -/
theorem ownMembers (shows : Shows view name false) {members : Keyed SpecMember}
    {fits : String → SpecMember → Prop} (sound : members.Sound fits)
    (named : ∀ {name member}, fits name member → member.name = name)
    (acts : Option SpecMember → τ → Prop)
    (own : ∀ state member, (name, member) ∈ members.entries → view state = view assembly →
      acts (some member) (view (state.ownMember member)))
    (absent : acts none (view assembly)) :
    acts (members.get? name) (view (assembly.ownMembers members)) :=
  Keyed.foldl_keyed view acts (fun state entry mem apart =>
    shows.unseen (ownMember_writes state entry.2)
      fun same => apart ((named (sound.values entry mem)).symm.trans same.1))
    own absent sound.distinct

/-- What the own statics do to what is seen of a name is what the static of that name does. -/
theorem ownStatics (shows : Shows view name true) {statics : Keyed StaticDef}
    {fits : String → StaticDef → Prop} (sound : statics.Sound fits)
    (named : ∀ {name entry}, fits name entry → entry.name = name)
    (acts : Option StaticDef → τ → Prop)
    (own : ∀ state entry, (name, entry) ∈ statics.entries → view state = view assembly →
      acts (some entry) (view (state.ownStatic entry)))
    (absent : acts none (view assembly)) :
    acts (statics.get? name) (view (assembly.ownStatics statics)) :=
  Keyed.foldl_keyed view acts (fun state entry mem apart =>
    shows.unseen (ownStatic_writes state entry.2)
      fun same => apart ((named (sound.values entry mem)).symm.trans same.1))
    own absent sound.distinct

end Assembly.Shows

section Keeps

variable (holds : Assembly → Prop) {assembly : Assembly}

/-- What every change keeps outlasts the merging of a mixin. -/
theorem Assembly.addMixin_keeps
    (kept : ∀ assembly (write : Assembly.Write) name isStatic, write.Concerns name isStatic →
      holds assembly → holds (write.apply assembly))
    (includes : Includes) {target : Nat} {included : Surface} (fitting : included.Fitting)
    (start : holds (assembly.including target included)) :
    holds (assembly.addMixin includes target included) := by
  rw [addMixin_eq]
  refine List.foldlRecOn _ _ (List.foldlRecOn _ _ (List.foldlRecOn _ _ start ?_) ?_) ?_
  · intro state held ambiguity _
    exact (carry_writes state ambiguity).keeps holds (fun a w => kept a w _ _) held
  · intro state held entry mem
    exact (mergeMember_writes (fitting.members.values entry mem) state).keeps holds
      (fun a w => kept a w _ _) held
  · intro state held entry _
    exact (mergeStatic_writes state entry.2).keeps holds (fun a w => kept a w _ _) held

/-- What every change keeps outlasts the own definitions. -/
theorem Assembly.own_keeps
    (kept : ∀ assembly (write : Assembly.Write) name isStatic, write.Concerns name isStatic →
      holds assembly → holds (write.apply assembly))
    (spec : FactorySpec) (start : holds assembly) : holds (assembly.own spec) := by
  rw [own_eq]
  refine List.foldlRecOn _ _ (List.foldlRecOn _ _ start ?_) ?_
  · intro state held entry _
    exact (ownMember_writes state entry.2).keeps holds (fun a w => kept a w _ _) held
  · intro state held entry _
    exact (ownStatic_writes state entry.2).keeps holds (fun a w => kept a w _ _) held

end Keeps

end ClassFactory
