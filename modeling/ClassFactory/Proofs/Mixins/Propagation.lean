/-
Module: ClassFactory.Proofs.Mixins.Propagation
Purpose: How failing and being left out spread along inclusions. A call fails with any mixin it
  includes and whenever its inclusions run into a cycle; a call that does not fail is left out just
  if something it covers has an entry that is left out; and calls fail only with a finding.
Main exports: failed_of_leads, failed_of_covers_cycle, leftOut_iff, diagnostics_eq_nil_iff,
  resolution_propagates
-/
import ClassFactory.Proofs.Mixins.Outcome
import ClassFactory.Proofs.Mixins.Plain

namespace ClassFactory

section Propagation

variable {registry : Registry} {options : Options}

/-- A call that includes a failed mixin itself has failed. -/
theorem failed_of_leads (h : registry.WellFormed) {outer inner : Nat}
    (leads : Leads (edges registry options) outer inner)
    (failed : (resolve registry options).get inner = .failed) :
    (resolve registry options).get outer = .failed := by
  obtain ⟨call, mem, rfl⟩ := exists_call_of_leads h.indexed leads
  have unavailable := (unavailable_ne_nil_iff h mem).mpr ⟨inner, leads, failed⟩
  obtain ⟨_, _, settled, -, known⟩ := exists_verdict options h mem
  cases known with
  | flawed => exact settled
  | unavailable => exact settled
  | incomplete _ available => exact absurd available unavailable
  | merged _ available => exact absurd available unavailable
  | problems => exact settled

/-- A call that includes a failed mixin, directly or through others, has failed. -/
theorem failed_of_covers (h : registry.WellFormed) {outer inner : Nat}
    (covers : Covers (edges registry options) outer inner)
    (failed : (resolve registry options).get inner = .failed) :
    (resolve registry options).get outer = .failed := by
  induction covers using Relation.ReflTransGen.head_induction_on with
  | refl => exact failed
  | head leads _ ih => exact failed_of_leads h leads ih

/-- Nothing is known against a call that did not fail. -/
theorem unflawed_of_not_failed (h : registry.WellFormed) {call : FactoryCall}
    (mem : call ∈ registry.calls)
    (sound : (resolve registry options).get call.id ≠ .failed) :
    Unflawed registry options call := by
  obtain ⟨_, _, settled, -, known⟩ := exists_verdict options h mem
  cases known with
  | flawed => exact absurd settled sound
  | unavailable => exact absurd settled sound
  | incomplete clean => exact clean
  | merged clean => exact clean
  | problems => exact absurd settled sound

/-- What a call that did not fail includes itself did not fail either, and came before it. -/
theorem leads_of_not_failed (h : registry.WellFormed) {outer inner : Nat}
    (sound : (resolve registry options).get outer ≠ .failed)
    (leads : Leads (edges registry options) outer inner) :
    (resolve registry options).get inner ≠ .failed ∧ Earlier registry options inner outer := by
  obtain ⟨call, mem, rfl⟩ := exists_call_of_leads h.indexed leads
  have clean := unflawed_of_not_failed h mem sound
  exact ⟨fun failed => sound (failed_of_leads h leads failed),
    earlier_of_leads h.indexed mem clean.acyclic leads⟩

/-- A call that did not fail does not include itself. -/
theorem not_reaches_self (h : registry.WellFormed) {id : Nat}
    (sound : (resolve registry options).get id ≠ .failed) :
    ¬ Reaches (edges registry options) id id := fun cycle =>
  not_earlier_self h.indexed id (good_and_earlier_of_reaches h.indexed _ (fun _ _ outerSound =>
    leads_of_not_failed h outerSound) sound cycle).2

/-- A call whose inclusions run into a cycle has failed, whether or not the walk over the mixins
noted that the cycle passes it. -/
theorem failed_of_covers_cycle (h : registry.WellFormed) {outer node : Nat}
    (covers : Covers (edges registry options) outer node)
    (cycle : Reaches (edges registry options) node node) :
    (resolve registry options).get outer = .failed := by
  refine failed_of_covers h covers ?_
  by_contra sound
  exact not_reaches_self h sound cycle

/-- Some entry of the call is left out of the analysis. -/
def HasLeftOutEntry (registry : Registry) (options : Options) (id : Nat) : Prop :=
  ∃ call, registry.get? id = some call ∧ .leftOut ∈ dependencies registry options call

/-- A call that did not fail is left out just if something that it includes is. -/
theorem leftOut_iff_incomplete (h : registry.WellFormed) {call : FactoryCall}
    (mem : call ∈ registry.calls)
    (sound : (resolve registry options).get call.id ≠ .failed) :
    (resolve registry options).get call.id = .leftOut ↔
      (inclusions registry options call).incomplete = true := by
  obtain ⟨_, _, settled, -, known⟩ := exists_verdict options h mem
  cases known with
  | flawed => exact absurd settled sound
  | unavailable => exact absurd settled sound
  | incomplete _ _ incomplete => simp [settled, incomplete]
  | merged _ _ complete => simp [settled, complete]
  | problems => exact absurd settled sound

/-- A call that did not fail is left out just if it covers a call with an entry that is. -/
theorem leftOut_iff (h : registry.WellFormed) {call : FactoryCall} (mem : call ∈ registry.calls)
    (sound : (resolve registry options).get call.id ≠ .failed) :
    (resolve registry options).get call.id = .leftOut ↔
      ∃ callee, Covers (edges registry options) call.id callee ∧
        HasLeftOutEntry registry options callee := by
  -- along the sequence: what the call includes itself came before it
  suffices along : ∀ id, ∀ call ∈ registry.calls, call.id = id →
      (resolve registry options).get call.id ≠ .failed →
      ((resolve registry options).get call.id = .leftOut ↔
        ∃ callee, Covers (edges registry options) call.id callee ∧
          HasLeftOutEntry registry options callee) from
    along call.id call mem rfl sound
  intro id
  induction id using (earlier_wellFounded options h.indexed).induction with
  | _ id ih =>
      rintro call mem rfl sound
      have direct : ∀ inner, Leads (edges registry options) call.id inner →
          ((resolve registry options).get inner = .leftOut ↔
            ∃ callee, Covers (edges registry options) inner callee ∧
              HasLeftOutEntry registry options callee) := by
        intro inner leads
        obtain ⟨innerSound, earlier⟩ := leads_of_not_failed h sound leads
        obtain ⟨mixin, mixinMem, -, rfl⟩ := exists_mixin_of_leads leads
        exact ih mixin.id earlier mixin mixinMem rfl innerSound
      rw [leftOut_iff_incomplete h mem sound, incomplete_iff h mem]
      constructor
      · rintro (entry | ⟨inner, leads, leftOut⟩)
        · exact ⟨call.id, .refl, call, h.get?_id mem, entry⟩
        · obtain ⟨callee, covers, entry⟩ := (direct inner leads).mp leftOut
          exact ⟨callee, .head leads covers, entry⟩
      · rintro ⟨callee, covers, entry⟩
        rcases Relation.ReflTransGen.cases_head covers with same | ⟨inner, leads, rest⟩
        · obtain ⟨found, foundEq, entryMem⟩ := same ▸ entry
          rw [h.get?_id mem, Option.some.injEq] at foundEq
          exact .inl (foundEq ▸ entryMem)
        · exact .inr ⟨inner, leads, (direct inner leads).mpr ⟨callee, rest, entry⟩⟩

/-! ## Findings -/

/-- There is nothing to report about entries just if none of them is bad. -/
theorem entryProblems_eq_nil_iff {call : FactoryCall} :
    entryProblems registry options call = [] ↔ hasBadEntry registry options call = false := by
  simp [entryProblems, hasBadEntry, List.filterMap_eq_nil_iff]

/-- A call that failed was reported, by itself or with the entries and cycles. -/
theorem reported_of_failed (h : registry.WellFormed) {call : FactoryCall}
    (mem : call ∈ registry.calls) (failed : (resolve registry options).get call.id = .failed) :
    ¬ Unflawed registry options call ∨ findings registry options call ≠ [] := by
  obtain ⟨_, _, settled, reported, known⟩ := exists_verdict options h mem
  rw [failed] at settled
  subst settled
  cases known with
  | flawed flaw => exact .inl flaw
  | unavailable => exact .inr (by simp [reported])
  | problems _ _ _ found => exact .inr (reported ▸ found)

/-- Nothing is found about a call that did not fail. -/
theorem findings_eq_nil (h : registry.WellFormed) {call : FactoryCall}
    (mem : call ∈ registry.calls) (sound : (resolve registry options).get call.id ≠ .failed) :
    findings registry options call = [] := by
  obtain ⟨_, _, settled, reported, known⟩ := exists_verdict options h mem
  cases known with
  | flawed => exact reported
  | unavailable => exact absurd settled sound
  | incomplete => exact reported
  | merged => exact reported
  | problems => exact absurd settled sound

/-- Nothing is reported just if no call failed. -/
theorem diagnostics_eq_nil_iff (h : registry.WellFormed) :
    (resolve registry options).diagnostics = [] ↔
      ∀ call ∈ registry.calls, (resolve registry options).get call.id ≠ .failed := by
  obtain ⟨walk, -⟩ := mixinWalk_sound registry options
  rw [diagnostics_eq h.indexed]
  simp only [List.append_eq_nil_iff, List.flatMap_eq_nil_iff, List.map_eq_nil_iff]
  constructor
  · rintro ⟨⟨noProblems, noCycles⟩, noFindings⟩ call mem failed
    rcases reported_of_failed h mem failed with flaw | found
    · refine flaw ⟨?_, entryProblems_eq_nil_iff.mp (noProblems call mem)⟩
      simp [walk.complete noCycles]
    · exact found (noFindings call ((mem_callSequence h.indexed).mpr mem))
  · intro sound
    refine ⟨⟨?_, ?_⟩, ?_⟩
    · intro call mem
      exact entryProblems_eq_nil_iff.mpr (unflawed_of_not_failed h mem (sound call mem)).entries
    · by_contra some
      obtain ⟨cycle, cycleMem⟩ := List.exists_mem_of_ne_nil _ some
      obtain ⟨first, head, way⟩ := (walk.reported cycle cycleMem).closes
      have round := way.reaches (List.mem_of_mem_head? head)
      obtain ⟨_, leads, _⟩ := Relation.TransGen.head'_iff.mp round
      obtain ⟨call, mem, same⟩ := exists_call_of_leads h.indexed leads
      exact not_reaches_self h (same ▸ sound call mem) round
    · intro call callMem
      have mem := (mem_callSequence h.indexed).mp callMem
      exact findings_eq_nil h mem (sound call mem)

end Propagation

/-- Failing spreads to whatever includes a failed mixin and strikes all that runs into a cycle,
being left out spreads among the calls that do not fail, and a call fails just if something is
reported. -/
theorem resolution_propagates {registry : Registry} (options : Options)
    (h : registry.WellFormed) :
    (∀ outer inner, Leads (edges registry options) outer inner →
      (resolve registry options).get inner = .failed →
      (resolve registry options).get outer = .failed) ∧
    (∀ outer node, Covers (edges registry options) outer node →
      Reaches (edges registry options) node node →
      (resolve registry options).get outer = .failed) ∧
    (∀ call ∈ registry.calls, (resolve registry options).get call.id ≠ .failed →
      ((resolve registry options).get call.id = .leftOut ↔
        ∃ callee, Covers (edges registry options) call.id callee ∧
          HasLeftOutEntry registry options callee)) ∧
    ((resolve registry options).diagnostics = [] ↔
      ∀ call ∈ registry.calls, (resolve registry options).get call.id ≠ .failed) :=
  ⟨fun _ _ leads => failed_of_leads h leads, fun _ _ covers => failed_of_covers_cycle h covers,
    fun _ mem sound => leftOut_iff h mem sound, diagnostics_eq_nil_iff h⟩

/-- A mixin that includes itself, and a component that includes the mixin. -/
def ringRegistry : Registry :=
  plainRegistry [⟨.mixin, "Ring", ["Ring"], []⟩, ⟨.component, "User", ["Ring"], ["render"]⟩]

/-- The component is on no cycle, but it runs into one. -/
theorem resolution_propagates_ring :
    ringRegistry.WellFormed ∧ (resolve ringRegistry .standard).get 1 = .failed := by
  have sound : ringRegistry.WellFormed := plainRegistry_wellFormed _
  have ring : Leads (edges ringRegistry .standard) 0 0 := ⟨default, by decide⟩
  have user : Leads (edges ringRegistry .standard) 1 0 := ⟨default, by decide⟩
  exact ⟨sound, (resolution_propagates .standard sound).2.1 1 0 (.single user) (.single ring)⟩

end ClassFactory
