/-
Module: ClassFactory.Proofs.References
Purpose: The calls that could be removed are the largest set of unexported calls of which every read
  lies inside a specification of the set. They are found by reviving one call after another: however
  the calls are chosen, no run goes on forever, and where none can go on, the same calls are left.
Main exports: ServesItself, Revives, Settles, Settles.mem_iff, refine_settles, freeCalls_greatest
-/
import ClassFactory.Proofs.Mixins.Plain
import Mathlib.Data.Set.Basic
import Mathlib.Logic.Relation

namespace ClassFactory

/-- A set of unexported calls that may go at once: what reads one of them goes with the set. -/
structure ServesItself (calls : List FactoryCall) (reads : List Reference)
    (removed : Set FactoryCall) : Prop where
  recorded : ∀ call ∈ removed, call ∈ calls
  unexported : ∀ call ∈ removed, call.exported = false
  inside : ∀ call ∈ removed, ∀ read ∈ reads, read.name = call.name →
    ∃ other ∈ removed, other.specSite.contains read.site = true

/-- One call with a live read is revived, whichever it is. -/
inductive Revives (reads : List Reference) : List FactoryCall → List FactoryCall → Prop where
  | one {before after : List FactoryCall} {call : FactoryCall}
      (live : hasLiveRead reads (before ++ call :: after) call = true) :
      Revives reads (before ++ call :: after) (before ++ after)

/-- Calls are revived one after another until none is left to revive. -/
structure Settles (reads : List Reference) (unread last : List FactoryCall) : Prop where
  run : Relation.ReflTransGen (Revives reads) unread last
  still : ∀ next, ¬ Revives reads last next

/-- The calls that may be removed to begin with. -/
def unexportedCalls (registry : Registry) : List FactoryCall :=
  registry.calls.filter fun call => !call.exported

/-- The calls that are marked as removable. -/
def freeCalls (registry : Registry) (reads : List Reference) : Set FactoryCall :=
  { call | call ∈ registry.calls ∧
    (SideEffects.ofReferences registry reads).isFree call.name = true }

section Revival

variable {calls : List FactoryCall} {reads : List Reference} {unread next last : List FactoryCall}
  {call : FactoryCall} {removed : Set FactoryCall}

/-- A call is live just if some read of its name stands outside it and outside all that is
unread. -/
theorem hasLiveRead_iff :
    hasLiveRead reads unread call = true ↔
      ∃ read ∈ reads, read.name = call.name ∧ call.specSite.contains read.site = false ∧
        ∀ other ∈ unread, other.specSite.contains read.site = false := by
  simp [hasLiveRead, readersOf, insideSpecs]

/-- Reviving a call leaves fewer that are unread. -/
theorem Revives.length_lt (revives : Revives reads unread next) : next.length < unread.length := by
  cases revives with
  | one live => simp

/-- No run of revivals goes on forever. -/
theorem revives_wellFounded (reads : List Reference) :
    WellFounded fun next unread => Revives reads unread next :=
  Subrelation.wf (fun revives => revives.length_lt) (measure List.length).wf

/-- Reviving only takes away from what is unread. -/
theorem Revives.subset (revives : Revives reads unread next) : next ⊆ unread := by
  cases revives with
  | one live =>
      intro other mem
      rcases List.mem_append.mp mem with before | after
      · exact List.mem_append_left _ before
      · exact List.mem_append_right _ (List.mem_cons_of_mem _ after)

/-- A set that serves itself never loses a call: what reads the call is unread as well. -/
theorem Revives.keeps (serves : ServesItself calls reads removed)
    (revives : Revives reads unread next) (within : ∀ call ∈ removed, call ∈ unread) :
    ∀ call ∈ removed, call ∈ next := by
  cases revives with
  | @one before after revived live =>
      intro call mem
      have notRevived : call ≠ revived := by
        rintro rfl
        obtain ⟨read, readMem, named, -, outside⟩ := hasLiveRead_iff.mp live
        obtain ⟨other, otherMem, contains⟩ := serves.inside call mem read readMem named
        rw [outside other (within other otherMem)] at contains
        cases contains
      rcases List.mem_append.mp (within call mem) with earlier | later
      · exact List.mem_append_left _ earlier
      · exact List.mem_append_right _ ((List.mem_cons.mp later).resolve_left notRevived)

/-- A run of revivals only takes away from what is unread. -/
theorem subset_of_run (run : Relation.ReflTransGen (Revives reads) unread last) :
    last ⊆ unread := by
  induction run with
  | refl => exact List.Subset.refl _
  | tail _ revives ih => exact List.Subset.trans revives.subset ih

/-- Calls that serve only each other stay unread. -/
theorem keeps_of_run (serves : ServesItself calls reads removed)
    (run : Relation.ReflTransGen (Revives reads) unread last)
    (within : ∀ call ∈ removed, call ∈ unread) : ∀ call ∈ removed, call ∈ last := by
  induction run with
  | refl => exact within
  | tail _ revives ih => exact revives.keeps serves ih

/-- A run of revivals is no longer than what was unread. -/
theorem length_le_of_run (run : Relation.ReflTransGen (Revives reads) unread last) :
    last.length ≤ unread.length := by
  induction run with
  | refl => exact le_rfl
  | tail _ revives ih => exact revives.length_lt.le.trans ih

/-- Where no call is left to revive, none has a live read. -/
theorem Settles.notLive (settles : Settles reads unread last) (mem : call ∈ last) :
    hasLiveRead reads last call = false := by
  obtain ⟨before, after, rfl⟩ := List.append_of_mem mem
  rw [Bool.eq_false_iff]
  intro live
  exact settles.still _ (.one live)

/-- What is left in the end serves itself. -/
theorem Settles.servesItself {registry : Registry}
    (settles : Settles reads (unexportedCalls registry) last) :
    ServesItself registry.calls reads { call | call ∈ last } where
  recorded := fun call mem => List.mem_of_mem_filter (subset_of_run settles.run mem)
  unexported := by
    intro call mem
    simpa using (List.mem_filter.mp (subset_of_run settles.run mem)).2
  inside := by
    intro call mem read readMem named
    by_contra outside
    have live : hasLiveRead reads last call = true := by
      rw [hasLiveRead_iff]
      refine ⟨read, readMem, named, ?_, ?_⟩
      · rw [Bool.eq_false_iff]
        intro contains
        exact outside ⟨call, mem, contains⟩
      · intro other otherMem
        rw [Bool.eq_false_iff]
        intro contains
        exact outside ⟨other, otherMem, contains⟩
    rw [settles.notLive mem] at live
    cases live

/-- What is left in the end are the calls of all sets that serve themselves. -/
theorem Settles.mem_iff {registry : Registry}
    (settles : Settles reads (unexportedCalls registry) last) :
    call ∈ last ↔ ∃ removed, ServesItself registry.calls reads removed ∧ call ∈ removed := by
  constructor
  · intro mem
    exact ⟨_, settles.servesItself, mem⟩
  · rintro ⟨removed, serves, mem⟩
    refine keeps_of_run serves settles.run ?_ call mem
    intro other otherMem
    exact List.mem_filter.mpr
      ⟨serves.recorded other otherMem, by simp [serves.unexported other otherMem]⟩

/-! ## The loop -/

/-- A round revives calls one after another. -/
theorem sweep_run (reads : List Reference) (kept rest : List FactoryCall) :
    Relation.ReflTransGen (Revives reads) (kept ++ rest) (sweep reads kept rest) := by
  induction rest generalizing kept with
  | nil =>
      rw [List.append_nil]
      exact .refl
  | cons call rest ih =>
      rw [sweep]
      split
      · rename_i live
        exact .head (.one live) (ih kept)
      · have run := ih (kept ++ [call])
        rwa [List.append_assoc, List.singleton_append] at run

/-- A round that drops no call has met none with a live read. -/
theorem notLive_of_sweep {kept rest : List FactoryCall}
    (same : (sweep reads kept rest).length = (kept ++ rest).length) :
    sweep reads kept rest = kept ++ rest ∧
      ∀ call ∈ rest, hasLiveRead reads (kept ++ rest) call = false := by
  induction rest generalizing kept with
  | nil => simp [sweep]
  | cons call rest ih =>
      rw [sweep] at same ⊢
      split at same
      · have shorter := length_le_of_run (sweep_run reads kept rest)
        simp only [List.length_append, List.length_cons] at same shorter
        omega
      · rename_i notLive
        have together : kept ++ [call] ++ rest = kept ++ call :: rest := by simp
        have further := ih (together ▸ same)
        rw [together] at further
        rw [if_neg notLive]
        refine ⟨further.1, ?_⟩
        intro other mem
        rcases List.mem_cons.mp mem with rfl | later
        · exact Bool.eq_false_iff.mpr notLive
        · exact further.2 other later

/-- The loop revives calls until none is left to revive. -/
theorem refine_settles (reads : List Reference) (unread : List FactoryCall) :
    Settles reads unread (refine reads unread) := by
  fun_induction refine reads unread with
  | case1 unread swept dropped ih => exact ⟨(sweep_run reads [] unread).trans ih.run, ih.still⟩
  | case2 unread swept settled =>
      have run := sweep_run reads [] unread
      have same : (sweep reads [] unread).length = ([] ++ unread).length :=
        le_antisymm (length_le_of_run run) (not_lt.mp settled)
      obtain ⟨unchanged, notLive⟩ := notLive_of_sweep same
      refine ⟨run, ?_⟩
      intro next revives
      rw [List.nil_append] at unchanged notLive
      simp only [swept, unchanged] at revives
      cases revives with
      | @one before after call live =>
          rw [notLive call (List.mem_append_right _ List.mem_cons_self)] at live
          cases live

end Revival

/-- A call is marked by its name just if the loop leaves it unread. -/
theorem mem_freeCalls_iff {registry : Registry} (h : registry.WellFormed) (reads : List Reference)
    {call : FactoryCall} :
    call ∈ freeCalls registry reads ↔ call ∈ removableCalls registry.calls reads := by
  have recorded : removableCalls registry.calls reads ⊆ registry.calls := fun other mem =>
    List.mem_of_mem_filter (subset_of_run (refine_settles reads _).run mem)
  have marked : (SideEffects.ofReferences registry reads).isFree call.name = true ↔
      ∃ other ∈ registry.calls, other.name = call.name ∧
        other.id ∈ (removableCalls registry.calls reads).map FactoryCall.id := by
    simp [SideEffects.isFree, SideEffects.ofReferences]
  constructor
  · rintro ⟨mem, free⟩
    obtain ⟨other, otherMem, named, listed⟩ := marked.mp free
    obtain rfl := List.inj_on_of_nodup_map h.named otherMem mem named
    obtain ⟨same, sameMem, number⟩ := List.mem_map.mp listed
    obtain rfl := List.inj_on_of_nodup_map h.ids_nodup (recorded sameMem) mem number
    exact sameMem
  · intro mem
    exact ⟨recorded mem, marked.mpr ⟨call, recorded mem, rfl, List.mem_map_of_mem mem⟩⟩

/-- The marked calls serve themselves, and every set that does is part of them. Reviving calls with a
live read, in whatever order, comes to an end, and what is left in the end is just the marked calls;
the loop over the calls is one such order. -/
theorem freeCalls_greatest {registry : Registry} (h : registry.WellFormed)
    (reads : List Reference) :
    ServesItself registry.calls reads (freeCalls registry reads) ∧
    (∀ removed, ServesItself registry.calls reads removed → removed ⊆ freeCalls registry reads) ∧
    (WellFounded fun next unread => Revives reads unread next) ∧
    Settles reads (unexportedCalls registry) (removableCalls registry.calls reads) ∧
    ∀ last, Settles reads (unexportedCalls registry) last →
      ∀ call, call ∈ last ↔ call ∈ freeCalls registry reads := by
  have settles : Settles reads (unexportedCalls registry)
      (removableCalls registry.calls reads) := refine_settles reads _
  have same : freeCalls registry reads =
      { call | call ∈ removableCalls registry.calls reads } := by
    ext call
    exact mem_freeCalls_iff h reads
  rw [same]
  refine ⟨settles.servesItself, ?_, revives_wellFounded reads, settles, ?_⟩
  · intro removed serves call mem
    exact settles.mem_iff.mpr ⟨removed, serves, mem⟩
  · intro last others call
    rw [others.mem_iff]
    exact settles.mem_iff.symm

/-- A plain call with a specification at a place of the first file. -/
def PlainCall.placed (plain : PlainCall) (id start stop : Nat) (exported : Bool) : FactoryCall :=
  { plain.numbered id with specSite := ⟨0, start, stop⟩, exported := exported }

/-- Two components that read each other, a mixin, and an exported component that reads it. -/
def pairCalls : List FactoryCall :=
  [PlainCall.placed ⟨.component, "Ping", [], ["render"]⟩ 0 0 10 false,
    PlainCall.placed ⟨.component, "Pong", [], ["render"]⟩ 1 10 20 false,
    PlainCall.placed ⟨.mixin, "Used", [], []⟩ 2 20 30 false,
    PlainCall.placed ⟨.component, "Shown", ["Used"], ["render"]⟩ 3 30 40 true]

/-- The registry of the four calls. -/
def pairRegistry : Registry :=
  pairCalls.foldl (fun registry call => (registry.insert call).1) Registry.empty

/-- Where they are read. -/
def pairReads : List Reference :=
  [⟨"Pong", ⟨0, 2, 6⟩⟩, ⟨"Ping", ⟨0, 12, 16⟩⟩, ⟨"Used", ⟨0, 32, 36⟩⟩]

/-- The two components may go together, though each is read; the mixin is read by what stays. -/
theorem freeCalls_greatest_pair :
    pairRegistry.WellFormed ∧ ∀ call, call ∈ freeCalls pairRegistry pairReads ↔
      call ∈ pairCalls.take 2 := by
  have sound : pairRegistry.WellFormed :=
    (((Registry.WellFormed.empty.insert rfl (PlainCall.spec_wellFormed _ _)).insert rfl
      (PlainCall.spec_wellFormed _ _)).insert rfl (PlainCall.spec_wellFormed _ _)).insert rfl
        (PlainCall.spec_wellFormed _ _)
  have calls : pairRegistry.calls = pairCalls := rfl
  obtain ⟨serves, greatest, -⟩ := freeCalls_greatest sound pairReads
  have readInShown : ∀ other ∈ pairCalls,
      other.specSite.contains ⟨0, 32, 36⟩ = true → other.exported = true := by decide
  refine ⟨sound, fun call => ⟨?_, ?_⟩⟩
  · intro free
    have mem := serves.recorded call free
    have unexported := serves.unexported call free
    have inside := serves.inside call free
    rw [calls] at mem
    simp only [pairCalls, List.mem_cons, List.not_mem_nil, or_false] at mem
    rcases mem with rfl | rfl | rfl | rfl
    · simp [pairCalls]
    · simp [pairCalls]
    · obtain ⟨other, otherFree, contains⟩ := inside ⟨"Used", ⟨0, 32, 36⟩⟩ (by decide) rfl
      have exported := readInShown other (calls ▸ serves.recorded other otherFree) contains
      rw [serves.unexported other otherFree] at exported
      cases exported
    · cases unexported
  · intro mem
    refine greatest { call | call ∈ pairCalls.take 2 } ⟨?_, ?_, ?_⟩ mem
    · intro other otherMem
      exact calls ▸ List.mem_of_mem_take otherMem
    · have unexported : ∀ other ∈ pairCalls.take 2, other.exported = false := by decide
      exact unexported
    · have inside : ∀ other ∈ pairCalls.take 2, ∀ read ∈ pairReads, read.name = other.name →
          ∃ holder ∈ pairCalls.take 2, holder.specSite.contains read.site = true := by decide
      exact inside

end ClassFactory
