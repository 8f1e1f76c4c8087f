/-
Module: ClassFactory.Proofs.Mixins.Standing
Purpose: Who is ahead under a name. Merging is seen here as a contest of mixins that only knows
  which of them include each other: a newcomer takes the lead, gives way to the leader, or is noted
  with it as a rival. What is kept throughout is that every mixin seen so far is covered by the
  leader or by a rival.
Main exports: Standing, Joins, Adds, Merges, Dominated, Dominated.adds, Merges.dominated
-/
import ClassFactory.Proofs.Mixins.Paths
import Mathlib.Data.Set.Insert

namespace ClassFactory

/-- Whose definition of a name is in place, and which mixins are noted as siblings under it. -/
structure Standing where
  leader : Option Nat
  rivals : Set Nat

/-- Nobody has defined the name. -/
def Standing.start : Standing := { leader := none, rivals := ∅ }

section Contest

variable (edges : Nat → List (Nat × Site)) (clears : Bool)

/-- A mixin with a definition of the name joins. `clears` tells whether a newcomer that covers all
rivals ends the rivalry; otherwise nobody does. -/
inductive Joins (incoming : Nat) : Standing → Standing → Prop where
  | first (rivals : Set Nat) : Joins incoming ⟨none, rivals⟩ ⟨some incoming, rivals⟩
  | yields {leader : Nat} (rivals : Set Nat) (covers : Covers edges leader incoming) :
      Joins incoming ⟨some leader, rivals⟩ ⟨some leader, rivals⟩
  | settles {leader : Nat} {rivals : Set Nat} (clearing : clears = true)
      (reaches : Reaches edges incoming leader) (all : ∀ rival ∈ rivals, Covers edges incoming rival) :
      Joins incoming ⟨some leader, rivals⟩ ⟨some incoming, ∅⟩
  | wins {leader : Nat} {rivals : Set Nat} (reaches : Reaches edges incoming leader)
      (contested : clears = true → ∃ rival ∈ rivals, ¬ Covers edges incoming rival) :
      Joins incoming ⟨some leader, rivals⟩ ⟨some incoming, rivals⟩
  | siblings {leader : Nat} (rivals : Set Nat) (under : ¬ Covers edges leader incoming)
      (above : ¬ Covers edges incoming leader) :
      Joins incoming ⟨some leader, rivals⟩
        ⟨some incoming, insert leader (insert incoming rivals)⟩

/-- A mixin with all that it includes is added: first its rivals are noted, then its own leader
joins. -/
inductive Adds : Standing → Standing → Standing → Prop where
  | nothing {before : Standing} (rivals : Set Nat) :
      Adds ⟨none, rivals⟩ before ⟨before.leader, before.rivals ∪ rivals⟩
  | joins {before after : Standing} {incoming : Nat} {rivals : Set Nat}
      (joins : Joins edges clears incoming ⟨before.leader, before.rivals ∪ rivals⟩ after) :
      Adds ⟨some incoming, rivals⟩ before after

/-- Mixins are added one after another to what is in place. -/
inductive Merges : Standing → List Standing → Standing → Prop where
  | done (before : Standing) : Merges before [] before
  | next {before middle after first : Standing} {rest : List Standing}
      (adds : Adds edges clears first before middle) (others : Merges middle rest after) :
      Merges before (first :: rest) after

/-- Everybody seen so far is covered by the leader or by a rival, and those have been seen. -/
structure Dominated (seen : Set Nat) (standing : Standing) : Prop where
  leading : ∀ leader, standing.leader = some leader → leader ∈ seen
  noted : standing.rivals ⊆ seen
  started : standing.leader = none → seen = ∅
  covered : ∀ id ∈ seen, (∃ leader, standing.leader = some leader ∧ Covers edges leader id) ∨
    ∃ rival ∈ standing.rivals, Covers edges rival id

variable {edges clears} {seen more : Set Nat} {included before after : Standing}

namespace Dominated

/-- Before any mixin there is no contest. -/
theorem start : Dominated edges ∅ .start where
  leading := by simp [Standing.start]
  noted := by simp [Standing.start]
  started := fun _ => rfl
  covered := by simp

/-- Where nobody leads nobody rivals. -/
theorem noRivals (h : Dominated edges seen before) (none : before.leader = none) :
    before.rivals = ∅ :=
  Set.subset_eq_empty h.noted (h.started none)

/-- With nobody left to contest it, the leader covers all. -/
theorem leader_covers (h : Dominated edges seen before) {leader : Nat}
    (leads : before.leader = some leader) (settled : before.rivals = ∅) {id : Nat}
    (mem : id ∈ seen) : Covers edges leader id := by
  rcases h.covered id mem with ⟨other, isLeader, covers⟩ | ⟨rival, isRival, -⟩
  · obtain rfl := Option.some.inj (leads.symm.trans isLeader)
    exact covers
  · rw [settled] at isRival
    cases isRival

/-- Before a newcomer joins, everybody seen is covered by the leader, by it or by a rival. -/
theorem covered_together {incoming : Nat} {rivals : Set Nat} (h : Dominated edges seen before)
    (new : Dominated edges more ⟨some incoming, rivals⟩) {id : Nat} (mem : id ∈ seen ∪ more) :
    (∃ leader, before.leader = some leader ∧ Covers edges leader id) ∨
      Covers edges incoming id ∨ ∃ rival ∈ before.rivals ∪ rivals, Covers edges rival id := by
  rcases mem with old | late
  · rcases h.covered id old with leads | ⟨rival, isRival, covers⟩
    · exact .inl leads
    · exact .inr (.inr ⟨rival, .inl isRival, covers⟩)
  · rcases new.covered id late with ⟨leader, leads, covers⟩ | ⟨rival, isRival, covers⟩
    · exact .inr (.inl (Option.some.inj leads ▸ covers))
    · exact .inr (.inr ⟨rival, .inr isRival, covers⟩)

/-- The step of the contest: adding a mixin keeps everybody covered. -/
theorem adds (h : Dominated edges seen before) (new : Dominated edges more included)
    (added : Adds edges clears included before after) : Dominated edges (seen ∪ more) after := by
  cases added with
  | nothing rivals =>
      have none : more = ∅ := new.started rfl
      have noRivals : rivals = ∅ := new.noRivals rfl
      subst none noRivals
      simpa using h
  | @joins _ _ incoming rivals joined =>
      have isNew : incoming ∈ seen ∪ more := .inr (new.leading incoming rfl)
      have noted : before.rivals ∪ rivals ⊆ seen ∪ more := Set.union_subset_union h.noted new.noted
      have together := fun id (mem : id ∈ seen ∪ more) => h.covered_together new mem
      have leads : ∀ leader, before.leader = some leader → leader ∈ seen ∪ more :=
        fun leader isLeader => .inl (h.leading leader isLeader)
      obtain ⟨leader, earlier⟩ := before
      cases joined with
      | first =>
          refine ⟨fun _ same => Option.some.inj same ▸ isNew, noted, by simp, fun id mem => ?_⟩
          rcases together id mem with ⟨_, absent, -⟩ | covers | rival
          · cases absent
          · exact .inl ⟨incoming, rfl, covers⟩
          · exact .inr rival
      | @yields leader _ above =>
          refine ⟨leads, noted, by simp, fun id mem => ?_⟩
          rcases together id mem with leading | covers | rival
          · exact .inl leading
          · exact .inl ⟨leader, rfl, above.trans covers⟩
          · exact .inr rival
      | settles _ reaches all =>
          refine ⟨fun _ same => Option.some.inj same ▸ isNew, by simp, by simp, fun id mem => ?_⟩
          refine .inl ⟨incoming, rfl, ?_⟩
          rcases together id mem with ⟨_, same, covers⟩ | covers | ⟨rival, isRival, covers⟩
          · obtain rfl := Option.some.inj same
            exact reaches.to_reflTransGen.trans covers
          · exact covers
          · exact (all rival isRival).trans covers
      | wins reaches =>
          refine ⟨fun _ same => Option.some.inj same ▸ isNew, noted, by simp, fun id mem => ?_⟩
          rcases together id mem with ⟨_, same, covers⟩ | covers | rival
          · obtain rfl := Option.some.inj same
            exact .inl ⟨incoming, rfl, reaches.to_reflTransGen.trans covers⟩
          · exact .inl ⟨incoming, rfl, covers⟩
          · exact .inr rival
      | @siblings leader =>
          have allNoted : insert leader (insert incoming (earlier ∪ rivals)) ⊆ seen ∪ more :=
            Set.insert_subset (leads leader rfl) (Set.insert_subset isNew noted)
          refine ⟨fun _ same => Option.some.inj same ▸ isNew, allNoted, by simp, fun id mem => ?_⟩
          rcases together id mem with ⟨_, same, covers⟩ | covers | ⟨rival, isRival, covers⟩
          · obtain rfl := Option.some.inj same
            exact .inr ⟨leader, .inl rfl, covers⟩
          · exact .inl ⟨incoming, rfl, covers⟩
          · exact .inr ⟨rival, .inr (.inr isRival), covers⟩

/-- A mixin that covers all the others takes the lead for good. -/
theorem override {id : Nat} (all : ∀ other ∈ seen, Covers edges id other) :
    Dominated edges (insert id seen) ⟨some id, ∅⟩ where
  leading := fun _ same => Option.some.inj same ▸ Set.mem_insert id seen
  noted := by simp
  started := by simp
  covered := by
    intro other mem
    refine .inl ⟨id, rfl, ?_⟩
    rcases mem with rfl | old
    · exact .refl
    · exact all other old

end Dominated

end Contest

section Mergers

variable {edges : Nat → List (Nat × Site)} {clears : Bool} {ι : Type}

/-- Everybody who comes with one of some mixins. -/
def together (suppliers : ι → Set Nat) (items : List ι) : Set Nat :=
  { id | ∃ item ∈ items, id ∈ suppliers item }

theorem together_cons (suppliers : ι → Set Nat) (item : ι) (rest : List ι) :
    together suppliers (item :: rest) = suppliers item ∪ together suppliers rest := by
  ext id
  simp [together]

/-- A run of the contest keeps everybody covered who came with the mixins that were added. -/
theorem Merges.dominated {seen : Set Nat} (suppliers : ι → Set Nat) (standing : ι → Standing)
    {items : List ι} {before after : Standing} (start : Dominated edges seen before)
    (each : ∀ item ∈ items, Dominated edges (suppliers item) (standing item))
    (merges : Merges edges clears before (items.map standing) after) :
    Dominated edges (seen ∪ together suppliers items) after := by
  induction items generalizing seen before with
  | nil =>
      cases merges
      simpa [together] using start
  | cons item rest ih =>
      cases merges with
      | next adds others =>
          have first := start.adds (each item List.mem_cons_self) adds
          rw [together_cons, ← Set.union_assoc]
          exact ih first (fun later mem => each later (List.mem_cons_of_mem _ mem)) others

end Mergers

end ClassFactory
