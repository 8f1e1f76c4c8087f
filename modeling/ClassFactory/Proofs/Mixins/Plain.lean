/-
Module: ClassFactory.Proofs.Mixins.Plain
Purpose: Registries of calls that say no more than which mixins they include, and which members and
  statics they define. They are the smallest ones on which inclusions show their effects.
Main exports: PlainCall, plainRegistry, plainRegistry_wellFormed, StaticCall, staticRegistry,
  staticRegistry_wellFormed, MemberCall, memberRegistry, memberRegistry_wellFormed
-/
import ClassFactory.Proofs.Registry

namespace ClassFactory

/-- A call with undocumented methods without parameters. -/
structure PlainCall where
  kind : FactoryKind
  name : String
  mixins : List String
  methods : List String

/-- The specification of a plain call; all its places are the same. -/
def PlainCall.spec (plain : PlainCall) (owner : Nat) : FactorySpec :=
  plain.methods.foldl
    (fun spec name => spec.addMember owner name default (.method none 0 default) false)
    { FactorySpec.empty with mixins := plain.mixins.map fun name => ⟨name, default⟩ }

/-- A plain call under a number. -/
def PlainCall.numbered (plain : PlainCall) (id : Nat) : FactoryCall :=
  { id := id, kind := plain.kind, name := plain.name, site := default, declSite := default,
    specSite := default, exported := false, spec := plain.spec id }

/-- The registry that records plain calls one after another. -/
def plainRegistry (calls : List PlainCall) : Registry :=
  calls.foldl (fun registry plain => (registry.insert (plain.numbered registry.nextId)).1)
    Registry.empty

theorem PlainCall.spec_wellFormed (plain : PlainCall) (owner : Nat) :
    (plain.spec owner).WellFormed owner :=
  List.foldlRecOn plain.methods _ ⟨Keyed.Sound.empty, Keyed.Sound.empty⟩
    fun _ keeps name _ => keeps.addMember name _ _ _

/-- A registry of calls with methods is well-formed. -/
theorem plainRegistry_wellFormed (calls : List PlainCall) : (plainRegistry calls).WellFormed :=
  List.foldlRecOn calls _ Registry.WellFormed.empty
    fun _ keeps plain _ => keeps.insert rfl (plain.spec_wellFormed _)

/-- A plain call that defines statics besides, of a type that nothing is known of. -/
structure StaticCall extends PlainCall where
  statics : List String

/-- The specification of a plain call with its statics. -/
def StaticCall.spec (plain : StaticCall) (owner : Nat) : FactorySpec :=
  plain.statics.foldl (fun spec name => spec.addStatic owner name default .unknown)
    (plain.toPlainCall.spec owner)

/-- A plain call with statics under a number. -/
def StaticCall.numbered (plain : StaticCall) (id : Nat) : FactoryCall :=
  { plain.toPlainCall.numbered id with spec := plain.spec id }

/-- The registry that records plain calls with statics one after another. -/
def staticRegistry (calls : List StaticCall) : Registry :=
  calls.foldl (fun registry plain => (registry.insert (plain.numbered registry.nextId)).1)
    Registry.empty

theorem StaticCall.spec_wellFormed (plain : StaticCall) (owner : Nat) :
    (plain.spec owner).WellFormed owner :=
  List.foldlRecOn plain.statics _ (plain.toPlainCall.spec_wellFormed owner)
    fun _ keeps name _ => keeps.addStatic name _ _

/-- A registry of calls with statics is well-formed. -/
theorem staticRegistry_wellFormed (calls : List StaticCall) : (staticRegistry calls).WellFormed :=
  List.foldlRecOn calls _ Registry.WellFormed.empty
    fun _ keeps plain _ => keeps.insert rfl (plain.spec_wellFormed _)

/-- A call with members of any kind, annotated or not. -/
structure MemberCall where
  kind : FactoryKind
  name : String
  mixins : List String
  members : List (String × MemberKind)

/-- The specification of a call with members of any kind; all its places are the same. -/
def MemberCall.spec (call : MemberCall) (owner : Nat) : FactorySpec :=
  call.members.foldl (fun spec member => spec.addMember owner member.1 default member.2 false)
    { FactorySpec.empty with mixins := call.mixins.map fun name => ⟨name, default⟩ }

/-- The registry that records calls with members of any kind one after another. -/
def memberRegistry (calls : List MemberCall) : Registry :=
  calls.foldl
    (fun registry call =>
      (registry.insert
        { id := registry.nextId, kind := call.kind, name := call.name, site := default,
          declSite := default, specSite := default, exported := false,
          spec := call.spec registry.nextId }).1)
    Registry.empty

theorem MemberCall.spec_wellFormed (call : MemberCall) (owner : Nat) :
    (call.spec owner).WellFormed owner :=
  List.foldlRecOn call.members _ ⟨Keyed.Sound.empty, Keyed.Sound.empty⟩
    fun _ keeps member _ => keeps.addMember member.1 _ _ _

/-- A registry of calls with members of any kind is well-formed. -/
theorem memberRegistry_wellFormed (calls : List MemberCall) : (memberRegistry calls).WellFormed :=
  List.foldlRecOn calls _ Registry.WellFormed.empty
    fun _ keeps call _ => keeps.insert rfl (call.spec_wellFormed _)

end ClassFactory
