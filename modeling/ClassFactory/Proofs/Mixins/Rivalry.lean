/-
Module: ClassFactory.Proofs.Mixins.Rivalry
Purpose: When rivals are left at the end of a contest. A mixin that covers all others always leads
  once it has come. What rivals there are by then it ends, unless it is the first to come; rivals
  that later mixins bring along it does not end. Where nobody ends a rivalry, it is left as soon as the
  mixins that have come are covered by none of them.
Main exports: Tops, Crowned, Crowned.adds, Merges.crowned, LeavesRivals, Merges.rivals_nonempty_iff,
  KeepsRivals, Merges.keeps_rivals_iff
-/
import ClassFactory.Proofs.Mixins.Standing
import Mathlib.Data.List.Induction

namespace ClassFactory

/-- One of some mixins covers all of them. -/
structure Tops (edges : Nat → List (Nat × Site)) (seen : Set Nat) (top : Nat) : Prop where
  mem : top ∈ seen
  covers : ∀ id ∈ seen, Covers edges top id

/-- The mixin that covers all others leads. -/
def Crowned (edges : Nat → List (Nat × Site)) (seen : Set Nat) (standing : Standing) : Prop :=
  ∀ top, Tops edges seen top → standing.leader = some top

section Crown

variable {edges : Nat → List (Nat × Site)} {clears : Bool} {seen more : Set Nat}
  {included before after : Standing} {top : Nat}

/-- Without cycles two mixins that cover each other are the same. -/
theorem eq_of_covers {one other : Nat} (acyclic : ¬ Reaches edges one one)
    (above : Covers edges one other) (under : Covers edges other one) : one = other := by
  rcases Relation.reflTransGen_iff_eq_or_transGen.mp above with same | reaches
  · exact same.symm
  · exact absurd (reaches.trans_left under) acyclic

/-- Who covers all covers fewer as well, as long as it is one of them. -/
theorem Tops.subset (h : Tops edges seen top) {fewer : Set Nat} (part : fewer ⊆ seen)
    (mem : top ∈ fewer) : Tops edges fewer top :=
  ⟨mem, fun id isFewer => h.covers id (part isFewer)⟩

theorem Crowned.start : Crowned edges ∅ .start :=
  fun _ tops => absurd tops.mem (Set.notMem_empty _)

/-- A leader that covers the newcomer stays, and the rivals with it. -/
theorem Joins.kept {incoming leader : Nat} {rivals : Set Nat}
    (joined : Joins edges clears incoming ⟨some leader, rivals⟩ after)
    (acyclic : ¬ Reaches edges leader leader) (covers : Covers edges leader incoming) :
    after = ⟨some leader, rivals⟩ := by
  cases joined with
  | yields => rfl
  | settles _ reaches => exact absurd (reaches.trans_right covers) acyclic
  | wins reaches => exact absurd (reaches.trans_right covers) acyclic
  | siblings _ under => exact absurd covers under

/-- A newcomer that covers all rivals and the leader takes over and ends the rivalry. -/
theorem Joins.ended {incoming leader : Nat} {rivals : Set Nat}
    (joined : Joins edges true incoming ⟨some leader, rivals⟩ after)
    (acyclic : ¬ Reaches edges incoming incoming) (differ : leader ≠ incoming)
    (covers : Covers edges incoming leader) (all : ∀ rival ∈ rivals, Covers edges incoming rival) :
    after = ⟨some incoming, ∅⟩ := by
  cases joined with
  | yields _ above => exact absurd (eq_of_covers acyclic covers above).symm differ
  | settles => rfl
  | wins _ contested =>
      obtain ⟨rival, isRival, apart⟩ := contested rfl
      exact absurd (all rival isRival) apart
  | siblings _ _ above => exact absurd covers above

/-- The crown passes to whoever covers all that have come. -/
theorem Crowned.adds (acyclic : ∀ id ∈ seen ∪ more, ¬ Reaches edges id id)
    (dominated : Dominated edges seen before) (new : Dominated edges more included)
    (crowned : Crowned edges seen before) (newCrowned : Crowned edges more included)
    (added : Adds edges clears included before after) : Crowned edges (seen ∪ more) after := by
  intro top tops
  cases added with
  | nothing rivals =>
      have none : more = ∅ := new.started rfl
      exact crowned top (by simpa [none] using tops)
  | @joins _ _ incoming rivals joined =>
      have isNew : incoming ∈ more := new.leading incoming rfl
      by_cases late : top ∈ more
      · -- the newcomer is the one that covers all
        obtain rfl : incoming = top :=
          Option.some.inj (newCrowned top (tops.subset Set.subset_union_right late))
        obtain ⟨leader, earlier⟩ := before
        cases joined with
        | first => rfl
        | @yields leader _ above =>
            have under := tops.covers leader (.inl (dominated.leading leader rfl))
            exact congrArg some (eq_of_covers (acyclic _ tops.mem) under above).symm
        | settles => rfl
        | wins => rfl
        | siblings => rfl
      · -- it came before and gives way to nobody
        have early : top ∈ seen := tops.mem.resolve_right late
        have leads := crowned top (tops.subset Set.subset_union_left early)
        rw [leads] at joined
        rw [joined.kept (acyclic top tops.mem) (tops.covers incoming (.inr isNew))]

end Crown

section Merges

variable {edges : Nat → List (Nat × Site)} {ι : Type} (suppliers : ι → Set Nat)
  (standing : ι → Standing)

/-- What holds of each mixin that is added: it comes with a contest of its own. -/
structure Prepared (edges : Nat → List (Nat × Site)) (item : ι) : Prop where
  dominated : Dominated edges (suppliers item) (standing item)
  crowned : Crowned edges (suppliers item) (standing item)

/-- Rivals are left after some mixins have been added: either nobody covers all that came, or
whoever does came with a mixin after which another one brought rivals along, or was itself the first
to come and had its rivals with it. -/
inductive LeavesRivals (edges : Nat → List (Nat × Site)) (items : List ι) : Prop where
  | siblings (some : (together suppliers items).Nonempty)
      (nobody : ¬ ∃ top, Tops edges (together suppliers items) top)
  | late {top : Nat} {first later : ι} {earlier rest : List ι}
      (tops : Tops edges (together suppliers items) top)
      (split : items = earlier ++ first :: rest) (comes : top ∈ suppliers first)
      (fresh : ∀ item ∈ earlier, top ∉ suppliers item) (mem : later ∈ rest)
      (rivals : (standing later).rivals.Nonempty)
  | only {top : Nat} {first : ι} {earlier rest : List ι}
      (tops : Tops edges (together suppliers items) top)
      (split : items = earlier ++ first :: rest) (comes : top ∈ suppliers first)
      (nobody : ∀ item ∈ earlier, suppliers item = ∅)
      (rivals : (standing first).rivals.Nonempty)

variable {suppliers standing} {seen : Set Nat} {before after : Standing} {clears : Bool}
  {items : List ι}

/-- A run of the contest may be cut in two. -/
theorem Merges.split {first rest : List Standing}
    (merges : Merges edges clears before (first ++ rest) after) :
    ∃ middle, Merges edges clears before first middle ∧ Merges edges clears middle rest after := by
  induction first generalizing before with
  | nil => exact ⟨before, .done before, merges⟩
  | cons item others ih =>
      cases merges with
      | next adds later =>
          obtain ⟨middle, start, finish⟩ := ih later
          exact ⟨middle, .next adds start, finish⟩

/-- Adding mixins that come with crowned contests of their own keeps the one mixin ahead that covers
all others. -/
theorem Merges.crowned (acyclic : ∀ id ∈ seen ∪ together suppliers items, ¬ Reaches edges id id)
    (dominated : Dominated edges seen before) (crowned : Crowned edges seen before)
    (each : ∀ item ∈ items, Prepared suppliers standing edges item)
    (merges : Merges edges clears before (items.map standing) after) :
    Crowned edges (seen ∪ together suppliers items) after := by
  induction items generalizing seen before with
  | nil =>
      cases merges
      simpa [together] using crowned
  | cons item rest ih =>
      rw [together_cons, ← Set.union_assoc] at acyclic ⊢
      cases merges with
      | next adds others =>
          have prepared := each item List.mem_cons_self
          have first := Crowned.adds (fun id mem => acyclic id (.inl mem)) dominated
            prepared.dominated crowned prepared.crowned adds
          exact ih acyclic (dominated.adds prepared.dominated adds) first
            (fun later mem => each later (List.mem_cons_of_mem _ mem)) others

/-- Once the mixin that covers all leads, rivals are only added. -/
theorem Merges.kept {top : Nat} {rivals : Set Nat} (acyclic : ¬ Reaches edges top top)
    (covers : ∀ id ∈ together suppliers items, Covers edges top id)
    (each : ∀ item ∈ items, Prepared suppliers standing edges item)
    (merges : Merges edges clears ⟨some top, rivals⟩ (items.map standing) after) :
    after.rivals.Nonempty ↔ rivals.Nonempty ∨ ∃ item ∈ items, (standing item).rivals.Nonempty := by
  induction items generalizing rivals with
  | nil =>
      cases merges
      simp
  | cons item rest ih =>
      rw [together_cons] at covers
      have restCovers := fun id mem => covers id (.inr mem)
      have restEach := fun later mem => each later (List.mem_cons_of_mem item mem)
      have supplied := (each item List.mem_cons_self).dominated
      cases merges with
      | next adds others =>
          rename_i middle
          have kept : middle = ⟨some top, rivals ∪ (standing item).rivals⟩ := by
            generalize standing item = added at adds supplied
            cases adds with
            | nothing => rfl
            | joins joined =>
                exact joined.kept acyclic (covers _ (.inl (supplied.leading _ rfl)))
          rw [kept] at others
          rw [ih restCovers restEach others]
          simp [Set.union_nonempty, or_assoc]

/-- When the mixin that covers all comes, only the rivals are left that it brings along, and those
only if nobody came before it. -/
theorem Adds.topped {more : Set Nat} {top : Nat} {added middle : Standing}
    (acyclic : ¬ Reaches edges top top) (dominated : Dominated edges seen before)
    (new : Dominated edges more added) (tops : Tops edges (seen ∪ more) top) (fresh : top ∉ seen)
    (leads : added.leader = some top) (adds : Adds edges true added before middle) :
    ∃ rivals, middle = ⟨some top, rivals⟩ ∧
      (rivals.Nonempty ↔ seen = ∅ ∧ added.rivals.Nonempty) := by
  cases adds with
  | nothing => cases leads
  | @joins _ _ incoming rivals joined =>
      obtain rfl : incoming = top := Option.some.inj leads
      obtain ⟨leader, earlier⟩ := before
      cases leader with
      | none =>
          have nobody : seen = ∅ := dominated.started rfl
          have noRivals : earlier = ∅ := dominated.noRivals rfl
          cases joined with
          | first => exact ⟨_, rfl, by simp [nobody, noRivals]⟩
      | some leader =>
          have came : leader ∈ seen := dominated.leading leader rfl
          have differ : leader ≠ incoming := fun same => fresh (same ▸ came)
          have all : ∀ rival ∈ earlier ∪ rivals, Covers edges incoming rival := fun rival mem =>
            tops.covers rival (Set.union_subset_union dominated.noted new.noted mem)
          have some : seen ≠ ∅ := fun nobody => by
            rw [nobody] at came
            cases came
          refine ⟨∅, joined.ended acyclic differ (tops.covers leader (.inl came)) all, ?_⟩
          simp [some]

/-- Among the items there is a first one that brings a supplier in. -/
theorem exists_first_supplier {id : Nat} (comes : id ∈ together suppliers items) :
    ∃ earlier first rest, items = earlier ++ first :: rest ∧ id ∈ suppliers first ∧
      ∀ item ∈ earlier, id ∉ suppliers item := by
  induction items with
  | nil =>
      obtain ⟨_, absent, -⟩ := comes
      cases absent
  | cons item others ih =>
      by_cases here : id ∈ suppliers item
      · exact ⟨[], item, others, rfl, here, by simp⟩
      · rw [together_cons] at comes
        obtain ⟨earlier, first, rest, rfl, supplies, fresh⟩ := ih (comes.resolve_left here)
        refine ⟨item :: earlier, first, rest, rfl, supplies, fun other mem => ?_⟩
        rcases List.mem_cons.mp mem with rfl | later
        · exact here
        · exact fresh other later

theorem together_eq_empty_iff :
    together suppliers items = ∅ ↔ ∀ item ∈ items, suppliers item = ∅ := by
  simp only [Set.eq_empty_iff_forall_notMem, together, Set.mem_ofPred_eq, not_exists, not_and]
  exact ⟨fun h item mem id => h id item mem, fun h id item mem => h item mem id⟩

/-- With a mixin that covers all, the rivals at the end are those brought along after it, and its
own if it came first. -/
theorem Merges.topped {top : Nat} {first : ι} {earlier rest : List ι}
    (acyclic : ∀ id ∈ together suppliers items, ¬ Reaches edges id id)
    (each : ∀ item ∈ items, Prepared suppliers standing edges item)
    (merges : Merges edges true .start (items.map standing) after)
    (tops : Tops edges (together suppliers items) top)
    (split : items = earlier ++ first :: rest) (comes : top ∈ suppliers first)
    (fresh : ∀ item ∈ earlier, top ∉ suppliers item) :
    after.rivals.Nonempty ↔
      ((∀ item ∈ earlier, suppliers item = ∅) ∧ (standing first).rivals.Nonempty) ∨
        ∃ later ∈ rest, (standing later).rivals.Nonempty := by
  subst split
  rw [List.map_append, List.map_cons] at merges
  obtain ⟨before, start, finish⟩ := merges.split
  have firstPrepared := each first (by simp)
  have earlierEach := fun item mem => each item (List.mem_append_left (first :: rest) mem)
  have restEach := fun item mem =>
    each item (List.mem_append_right earlier (List.mem_cons_of_mem first mem))
  have acyclicTop := acyclic top tops.mem
  have dominated : Dominated edges (together suppliers earlier) before := by
    simpa using Merges.dominated suppliers standing .start
      (fun item mem => (earlierEach item mem).dominated) start
  have firstPart : suppliers first ⊆ together suppliers (earlier ++ first :: rest) :=
    fun id mem => ⟨first, by simp, mem⟩
  have leads := firstPrepared.crowned top (tops.subset firstPart comes)
  cases finish with
  | next adds others =>
      have topsSoFar : Tops edges (together suppliers earlier ∪ suppliers first) top := by
        refine tops.subset (Set.union_subset ?_ firstPart) (.inr comes)
        exact fun id ⟨item, mem, supplies⟩ => ⟨item, List.mem_append_left _ mem, supplies⟩
      have notEarlier : top ∉ together suppliers earlier :=
        fun ⟨item, mem, supplies⟩ => fresh item mem supplies
      obtain ⟨rivals, rfl, left⟩ := Adds.topped acyclicTop dominated firstPrepared.dominated
        topsSoFar notEarlier leads adds
      have restCovers : ∀ id ∈ together suppliers rest, Covers edges top id :=
        fun id ⟨item, mem, supplies⟩ => tops.covers id
          ⟨item, List.mem_append_right _ (List.mem_cons_of_mem _ mem), supplies⟩
      rw [others.kept acyclicTop restCovers restEach, left, together_eq_empty_iff]

/-- The end of a contest in which a newcomer that covers all rivals ends the rivalry. -/
theorem Merges.rivals_nonempty_iff
    (acyclic : ∀ id ∈ together suppliers items, ¬ Reaches edges id id)
    (each : ∀ item ∈ items, Prepared suppliers standing edges item)
    (merges : Merges edges true .start (items.map standing) after) :
    after.rivals.Nonempty ↔ LeavesRivals suppliers standing edges items := by
  have dominated : Dominated edges (together suppliers items) after := by
    simpa using Merges.dominated suppliers standing .start
      (fun item mem => (each item mem).dominated) merges
  constructor
  · intro rivals
    by_cases topped : ∃ top, Tops edges (together suppliers items) top
    · obtain ⟨top, tops⟩ := topped
      obtain ⟨earlier, first, rest, split, comes, fresh⟩ := exists_first_supplier tops.mem
      rcases (merges.topped acyclic each tops split comes fresh).mp rivals with
        ⟨nobody, own⟩ | ⟨later, mem, own⟩
      · exact .only tops split comes nobody own
      · exact .late tops split comes fresh mem own
    · exact .siblings (rivals.mono dominated.noted) topped
  · intro leaves
    cases leaves with
    | siblings some nobody =>
        by_contra none
        have settled : after.rivals = ∅ := Set.not_nonempty_iff_eq_empty.mp none
        cases leads : after.leader with
        | none => exact some.ne_empty (dominated.started leads)
        | some leader =>
            exact nobody ⟨leader, dominated.leading leader leads,
              fun id mem => dominated.leader_covers leads settled mem⟩
    | late tops split comes fresh mem own =>
        exact (merges.topped acyclic each tops split comes fresh).mpr (.inr ⟨_, mem, own⟩)
    | only tops split comes nobody own =>
        refine (merges.topped acyclic each tops split comes fun item mem => ?_).mpr
          (.inl ⟨nobody, own⟩)
        rw [nobody item mem]
        exact Set.notMem_empty _

/-! ## Contests in which nobody ends the rivalry -/

/-- Rivals are left after some mixins have been added, when none of them ends a rivalry: one of them
brought rivals along, or the first few were at some time covered by none of them. -/
inductive KeepsRivals (suppliers : ι → Set Nat) (standing : ι → Standing)
    (edges : Nat → List (Nat × Site)) (items : List ι) : Prop where
  | brought {item : ι} (mem : item ∈ items) (rivals : (standing item).rivals.Nonempty)
  | apart {earlier rest : List ι} (split : items = earlier ++ rest)
      (some : (together suppliers earlier).Nonempty)
      (nobody : ¬ ∃ top, Tops edges (together suppliers earlier) top)

/-- Rivals that some items keep are kept by more of them. -/
theorem KeepsRivals.append {more : List ι} (keeps : KeepsRivals suppliers standing edges items) :
    KeepsRivals suppliers standing edges (items ++ more) := by
  cases keeps with
  | brought mem rivals => exact .brought (List.mem_append_left _ mem) rivals
  | apart split some nobody => exact .apart (by rw [split, List.append_assoc]) some nobody

theorem together_concat (suppliers : ι → Set Nat) (items : List ι) (last : ι) :
    together suppliers (items ++ [last]) = together suppliers items ∪ suppliers last := by
  ext id
  simp [together, or_and_right, exists_or]

/-- Nobody ends a rivalry: whoever is noted, or brought along as a rival, stays noted. -/
theorem Adds.keeps_rivals {added : Standing} (adds : Adds edges false added before after) :
    before.rivals ∪ added.rivals ⊆ after.rivals := by
  cases adds with
  | nothing => exact le_rfl
  | joins joined =>
      obtain ⟨leader, earlier⟩ := before
      cases joined with
      | first => exact le_rfl
      | yields => exact le_rfl
      | settles clearing => cases clearing
      | wins => exact le_rfl
      | siblings => exact (Set.subset_insert _ _).trans (Set.subset_insert _ _)

/-- A mixin that comes where there are no rivals becomes one only if nobody covers all that have
come. -/
theorem Adds.unrivalled {more : Set Nat} {added : Standing}
    (dominated : Dominated edges seen before) (crowned : Crowned edges seen before)
    (new : Dominated edges more added) (newCrowned : Crowned edges more added)
    (noRivals : before.rivals = ∅) (noneBrought : added.rivals = ∅)
    (topped : (seen ∪ more).Nonempty → ∃ top, Tops edges (seen ∪ more) top)
    (adds : Adds edges false added before after) : after.rivals = ∅ := by
  have none : before.rivals ∪ added.rivals = ∅ := by
    rw [noRivals, noneBrought, Set.union_empty]
  cases adds with
  | nothing => exact none
  | @joins _ _ incoming rivals joined =>
      have isNew : incoming ∈ more := new.leading incoming rfl
      obtain ⟨leader, earlier⟩ := before
      cases joined with
      | first => exact none
      | yields => exact none
      | settles => rfl
      | wins => exact none
      | @siblings leader _ under above =>
          obtain ⟨top, tops⟩ := topped ⟨incoming, .inr isNew⟩
          rcases tops.mem with early | late
          · have leads := crowned top (tops.subset Set.subset_union_left early)
            obtain rfl := Option.some.inj leads
            exact absurd (tops.covers incoming (.inr isNew)) under
          · have leads := newCrowned top (tops.subset Set.subset_union_right late)
            obtain rfl := Option.some.inj leads
            exact absurd (tops.covers leader (.inl (dominated.leading leader rfl))) above

/-- The end of a contest in which nobody ends the rivalry. -/
theorem Merges.keeps_rivals_iff
    (acyclic : ∀ id ∈ together suppliers items, ¬ Reaches edges id id)
    (each : ∀ item ∈ items, Prepared suppliers standing edges item)
    (merges : Merges edges false .start (items.map standing) after) :
    after.rivals.Nonempty ↔ KeepsRivals suppliers standing edges items := by
  induction items using List.reverseRecOn generalizing after with
  | nil =>
      cases merges
      constructor
      · intro rivals
        exact absurd rivals Set.not_nonempty_empty
      · rintro (⟨mem, -⟩ | ⟨split, some, -⟩)
        · cases mem
        · obtain ⟨rfl, -⟩ := List.append_eq_nil_iff.mp split.symm
          obtain ⟨_, _, absent, -⟩ := some
          cases absent
  | append_singleton items last ih =>
      rw [together_concat] at acyclic
      rw [List.map_append, List.map_singleton] at merges
      obtain ⟨before, start, finish⟩ := merges.split
      have earlierEach := fun item mem => each item (List.mem_append_left [last] mem)
      have lastPrepared := each last (by simp)
      have soFar := ih (fun id mem => acyclic id (.inl mem)) earlierEach start
      have dominated : Dominated edges (together suppliers items) before := by
        simpa using Merges.dominated suppliers standing .start
          (fun item mem => (earlierEach item mem).dominated) start
      have crowned : Crowned edges (together suppliers items) before := by
        simpa using start.crowned (by simpa using fun id mem => acyclic id (.inl mem)) .start .start
          earlierEach
      cases finish with
      | next adds others =>
          cases others
          have kept := adds.keeps_rivals
          constructor
          · intro rivals
            by_contra settled
            have noRivals : before.rivals = ∅ :=
              Set.not_nonempty_iff_eq_empty.mp fun left => settled (soFar.mp left).append
            have noneBrought : (standing last).rivals = ∅ :=
              Set.not_nonempty_iff_eq_empty.mp fun brought => settled (.brought (by simp) brought)
            refine rivals.ne_empty (adds.unrivalled dominated crowned lastPrepared.dominated
              lastPrepared.crowned noRivals noneBrought fun some => ?_)
            by_contra nobody
            rw [← together_concat] at some nobody
            exact settled (.apart (List.append_nil _).symm some nobody)
          · rintro (⟨mem, brought⟩ | ⟨split, some, nobody⟩)
            · rcases List.mem_append.mp mem with early | here
              · exact ((soFar.mpr (.brought early brought)).mono Set.subset_union_left).mono kept
              · obtain rfl := List.mem_singleton.mp here
                exact (brought.mono Set.subset_union_right).mono kept
            · rename_i earlier rest
              rcases List.eq_nil_or_concat rest with rfl | ⟨shorter, final, rfl⟩
              · rw [List.append_nil] at split
                rw [← split, together_concat] at some nobody
                by_contra none
                have settled := Set.not_nonempty_iff_eq_empty.mp none
                have finished := dominated.adds lastPrepared.dominated adds
                cases leads : after.leader with
                | none => exact some.ne_empty (finished.started leads)
                | some leader =>
                    exact nobody ⟨leader, finished.leading leader leads,
                      fun id mem => finished.leader_covers leads settled mem⟩
              · rw [List.concat_eq_append, ← List.append_assoc] at split
                obtain ⟨same, -⟩ := List.append_inj' split rfl
                have early := soFar.mpr (.apart same some nobody)
                exact (early.mono Set.subset_union_left).mono kept

end Merges

end ClassFactory
