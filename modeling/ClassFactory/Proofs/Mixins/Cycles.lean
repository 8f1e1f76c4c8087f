/-
Module: ClassFactory.Proofs.Mixins.Cycles
Purpose: Which mixins the reports of cycles name: those from which inclusions lead back when the walk
  over the mixins comes to them, past what it has finished or is on the way. Along every cycle there
  is an entry that leads back to a mixin not merged yet, and both its ends are named; a mixin that
  gets back onto its cycle only through finished ones is not.
Main exports: NamedInCycle, exists_back_entry, mem_of_problem_eq, namedInCycle_iff_cyclic,
  named_of_back_entry, cycle_named_where_it_closes
-/
import ClassFactory.Proofs.Mixins.Arrivals
import ClassFactory.Proofs.Mixins.Findings
import ClassFactory.Proofs.Mixins.Plain

namespace ClassFactory

/-- Some finding reports a cycle that passes the mixin. -/
def NamedInCycle (registry : Registry) (options : Options) (id : Nat) : Prop :=
  ∃ cycle, ClosesCycle (edges registry options) cycle ∧ id ∈ cycle.map Prod.fst ∧
    cycleProblem registry cycle ∈ (resolve registry options).diagnostics

/-! ## Entries along a cycle -/

section Order

variable {edges : Nat → List (Nat × Site)} {order : List Nat}

/-- What a path passes leads on to what it passes next, or to its target. -/
theorem LeadsTo.exists_next {path : InclusionPath} {target : Nat}
    (way : LeadsTo edges path target) {id : Nat} (mem : id ∈ path.map Prod.fst) :
    ∃ inner, (inner ∈ path.map Prod.fst ∨ inner = target) ∧ Leads edges id inner := by
  induction way with
  | start => cases mem
  | @step path last next site before entry ih =>
      have ids : (path ++ [(last, site)]).map Prod.fst = path.map Prod.fst ++ [last] := by simp
      rw [ids] at mem ⊢
      rcases List.mem_append.mp mem with earlier | here
      · obtain ⟨inner, innerMem, leads⟩ := ih earlier
        refine ⟨inner, .inl ?_, leads⟩
        rcases innerMem with innerMem | rfl
        · exact List.mem_append_left _ innerMem
        · simp
      · obtain rfl := List.mem_singleton.mp here
        exact ⟨next, .inr rfl, site, entry⟩

theorem ClosesCycle.ne_nil {cycle : InclusionPath} (closed : ClosesCycle edges cycle) :
    cycle ≠ [] := by
  obtain ⟨first, head, -⟩ := closed.closes
  rintro rfl
  cases head

/-- What lies on a cycle leads on to something on the cycle. -/
theorem ClosesCycle.exists_next {cycle : InclusionPath} (closed : ClosesCycle edges cycle)
    {id : Nat} (mem : id ∈ cycle.map Prod.fst) :
    ∃ inner ∈ cycle.map Prod.fst, Leads edges id inner := by
  obtain ⟨first, head, way⟩ := closed.closes
  obtain ⟨inner, innerMem, leads⟩ := way.exists_next mem
  refine ⟨inner, ?_, leads⟩
  rcases innerMem with innerMem | rfl
  · exact innerMem
  · exact List.mem_map_of_mem (List.mem_of_mem_head? head)

/-- Along a path everything comes after what follows it, or some entry leads back in the order. -/
theorem LeadsTo.exists_back_entry (distinct : order.Nodup) {path : InclusionPath} {target : Nat}
    (way : LeadsTo edges path target) :
    (∀ id ∈ path.map Prod.fst, Precedes order target id) ∨
      ∃ outer ∈ path.map Prod.fst, ∃ inner, (inner ∈ path.map Prod.fst ∨ inner = target) ∧
        Leads edges outer inner ∧ ¬ Precedes order inner outer := by
  induction way with
  | start id => simp
  | @step path id next site before entry ih =>
      have last : Leads edges id next := ⟨site, entry⟩
      have ids : (path ++ [(id, site)]).map Prod.fst = path.map Prod.fst ++ [id] := by simp
      rw [ids]
      rcases ih with forward | ⟨outer, outerMem, inner, innerMem, leads, back⟩
      · by_cases precedes : Precedes order next id
        · left
          intro other mem
          rcases List.mem_append.mp mem with earlier | here
          · exact precedes.trans distinct (forward other earlier)
          · obtain rfl := List.mem_singleton.mp here
            exact precedes
        · right
          exact ⟨id, by simp, next, .inr rfl, last, precedes⟩
      · right
        refine ⟨outer, List.mem_append_left _ outerMem, inner, .inl ?_, leads, back⟩
        rcases innerMem with earlier | rfl
        · exact List.mem_append_left _ earlier
        · simp

/-- Some entry of every cycle leads from a mixin to one that does not come before it. -/
theorem ClosesCycle.exists_back_entry (distinct : order.Nodup) {cycle : InclusionPath}
    (closed : ClosesCycle edges cycle) :
    ∃ outer ∈ cycle.map Prod.fst, ∃ inner ∈ cycle.map Prod.fst,
      Leads edges outer inner ∧ ¬ Precedes order inner outer := by
  obtain ⟨first, head, way⟩ := closed.closes
  have firstMem : first.1 ∈ cycle.map Prod.fst :=
    List.mem_map_of_mem (List.mem_of_mem_head? head)
  rcases way.exists_back_entry distinct with forward | ⟨outer, outerMem, inner, innerMem, back⟩
  · -- else the first mixin would come before itself
    have before := Precedes.idxOf_lt distinct (forward first.1 firstMem)
    exact absurd before (Nat.lt_irrefl _)
  · refine ⟨outer, outerMem, inner, ?_, back⟩
    rcases innerMem with mem | rfl
    · exact mem
    · exact firstMem

end Order

/-! ## What a finding tells of its cycle -/

section Reports

variable {registry : Registry} {options : Options}

/-- Of joined texts the last two stand at the end. -/
theorem exists_joinWith_pair (separator : String) (texts : List String) :
    ∃ lead, ∀ one other, Text.joinWith separator (texts ++ [one, other]) =
      lead ++ one ++ (separator ++ other) := by
  induction texts with
  | nil => exact ⟨"", by simp [Text.joinWith, String.append_assoc]⟩
  | cons text rest ih =>
      obtain ⟨lead, joined⟩ := ih
      refine ⟨text ++ separator ++ lead, fun one other => ?_⟩
      have more : Text.joinWith separator (text :: (rest ++ [one, other])) =
          text ++ separator ++ Text.joinWith separator (rest ++ [one, other]) := by
        cases rest <;> rfl
      rw [List.cons_append, more, joined]
      simp only [String.append_assoc]

/-- A text on both sides of a separator is told by the whole. -/
theorem eq_of_append_twice (separator : String) {one other : String}
    (same : one ++ (separator ++ one) = other ++ (separator ++ other)) : one = other := by
  have lists := congrArg String.toList same
  simp only [String.toList_append] at lists
  have lengths := congrArg List.length lists
  simp only [List.length_append] at lengths
  exact String.toList_inj.mp (List.append_inj lists (by omega)).1

/-- Behind the same names a closed round of names tells the last one. -/
theorem eq_of_round_eq {leads : List String} {one other : String}
    (same : Text.joinWith " -> " (leads ++ [one] ++ (leads ++ [one]).head?.toList) =
      Text.joinWith " -> " (leads ++ [other] ++ (leads ++ [other]).head?.toList)) :
    one = other := by
  cases leads with
  | nil =>
      refine eq_of_append_twice " -> " ?_
      simpa [Text.joinWith, String.append_assoc] using same
  | cons first rest =>
      obtain ⟨text, joined⟩ := exists_joinWith_pair " -> " (first :: rest)
      have ends : ∀ name : String, first :: rest ++ [name] ++
          (first :: rest ++ [name]).head?.toList = first :: rest ++ [name, first] := by simp
      rw [ends, ends, joined, joined, String.append_left_inj, String.append_right_inj] at same
      exact same

/-- Each of the related places of a cycle tells the name of a mixin. -/
theorem names_eq_of_related_eq {one other : InclusionPath}
    (same : (one.map fun step => (⟨quoted (registry.nameOf step.1) ++
        " includes the next mixin here", step.2⟩ : Related)) =
      other.map fun step => ⟨quoted (registry.nameOf step.1) ++
        " includes the next mixin here", step.2⟩) :
    (one.map fun step => registry.nameOf step.1) =
      other.map fun step => registry.nameOf step.1 := by
  have texts := congrArg (List.map Related.message) same
  rw [List.map_map, List.map_map] at texts
  have told : ∀ path : InclusionPath,
      path.map (Related.message ∘ fun step =>
        ⟨quoted (registry.nameOf step.1) ++ " includes the next mixin here", step.2⟩) =
      (path.map fun step => registry.nameOf step.1).map
        (quoted · ++ " includes the next mixin here") := by
    intro path
    simp
  rw [told, told] at texts
  refine List.map_injective_iff.mpr (fun one other same => ?_) texts
  simpa [quoted, String.append_left_inj, String.append_right_inj] using same

/-- The finding for a cycle tells the names of its mixins: the related places tell all but the last
one, and the message tells that. -/
theorem names_eq_of_problem_eq {one other : InclusionPath} (oneSome : one ≠ [])
    (otherSome : other ≠ []) (same : cycleProblem registry one = cycleProblem registry other) :
    (one.map fun step => registry.nameOf step.1) =
      other.map fun step => registry.nameOf step.1 := by
  obtain rfl | ⟨lead, last, rfl⟩ := List.eq_nil_or_concat one
  · exact absurd rfl oneSome
  obtain rfl | ⟨lead', last', rfl⟩ := List.eq_nil_or_concat other
  · exact absurd rfl otherSome
  rw [List.concat_eq_append, List.concat_eq_append] at same ⊢
  rw [cycleProblem_eq, cycleProblem_eq, Diagnostic.mk.injEq] at same
  obtain ⟨-, -, messages, -, related⟩ := same
  rw [List.dropLast_concat, List.dropLast_concat] at related
  have leads := names_eq_of_related_eq related
  rw [String.append_right_inj] at messages
  simp only [List.map_append, List.map_cons, List.map_nil] at messages ⊢
  rw [leads] at messages ⊢
  rw [eq_of_round_eq messages]

/-- In a well-formed registry mixins that differ have names that differ. -/
theorem nameOf_injective (h : registry.WellFormed) {one other : Nat}
    (oneMem : one ∈ registry.calls.map FactoryCall.id)
    (otherMem : other ∈ registry.calls.map FactoryCall.id)
    (same : registry.nameOf one = registry.nameOf other) : one = other := by
  obtain ⟨call, callMem, rfl⟩ := List.mem_map.mp oneMem
  obtain ⟨call', callMem', rfl⟩ := List.mem_map.mp otherMem
  simp only [Registry.nameOf, h.get?_id callMem, h.get?_id callMem', Option.map_some,
    Option.getD_some] at same
  rw [List.inj_on_of_nodup_map h.named callMem callMem' same]

/-- The mixins on a cycle are calls of the registry. -/
theorem ClosesCycle.ids_subset (h : registry.WellFormed) {cycle : InclusionPath}
    (closed : ClosesCycle (edges registry options) cycle) :
    cycle.map Prod.fst ⊆ registry.calls.map FactoryCall.id := by
  intro id mem
  obtain ⟨_, -, leads⟩ := closed.exists_next mem
  exact List.mem_map.mpr (exists_call_of_leads h.indexed leads)

/-- Cycles that are reported alike pass the same mixins. -/
theorem ClosesCycle.mem_of_problem_eq (h : registry.WellFormed) {one other : InclusionPath}
    (oneClosed : ClosesCycle (edges registry options) one)
    (otherClosed : ClosesCycle (edges registry options) other)
    (same : cycleProblem registry one = cycleProblem registry other) {id : Nat}
    (mem : id ∈ one.map Prod.fst) : id ∈ other.map Prod.fst := by
  have names := names_eq_of_problem_eq oneClosed.ne_nil otherClosed.ne_nil same
  obtain ⟨place, placeMem, rfl⟩ := List.mem_map.mp mem
  have named : registry.nameOf place.1 ∈ other.map fun step => registry.nameOf step.1 :=
    names ▸ List.mem_map_of_mem placeMem
  obtain ⟨place', placeMem', sameName⟩ := List.mem_map.mp named
  have mem' : place'.1 ∈ other.map Prod.fst := List.mem_map_of_mem placeMem'
  have isSame := nameOf_injective h (otherClosed.ids_subset h mem') (oneClosed.ids_subset h mem)
    sameName
  exact isSame ▸ mem'

/-! ## Reports -/

/-- The findings name the mixins that the walk notes as lying on a cycle. -/
theorem namedInCycle_iff_cyclic (options : Options) (h : registry.WellFormed) {id : Nat} :
    NamedInCycle registry options id ↔ id ∈ (mixinWalk registry options).cyclic := by
  obtain ⟨sound, -⟩ := mixinWalk_sound registry options
  constructor
  · rintro ⟨cycle, closed, passes, reported⟩
    obtain ⟨walked, walkedMem, same⟩ :=
      (mem_cyclic_findings_iff options h).mp ⟨reported, by rw [cycleProblem_eq]⟩
    exact sound.listed walked walkedMem id
      (closed.mem_of_problem_eq h (sound.reported walked walkedMem) same.symm passes)
  · intro cyclic
    obtain ⟨cycle, reported, passes⟩ := sound.named id cyclic
    exact ⟨cycle, sound.reported cycle reported, passes,
      ((mem_cyclic_findings_iff options h).mpr ⟨cycle, reported, rfl⟩).1⟩

/-- Named are the mixins from which inclusions lead back when the walk comes to them. -/
theorem namedInCycle_iff (options : Options) (h : registry.WellFormed) {id : Nat} :
    NamedInCycle registry options id ↔
      ∃ path finished,
        ComesAlong (edges registry options) (registry.mixins.map FactoryCall.id) path id finished ∧
          GetsBack (edges registry options) path id finished := by
  rw [namedInCycle_iff_cyclic options h]
  constructor
  · intro cyclic
    obtain ⟨sound, -⟩ := mixinWalk_sound registry options
    have node := (sound.noted id cyclic).elim (sound.known id) (by simp)
    obtain ⟨path, finished, comes⟩ := exists_comesAlong mixins_closed node
    exact ⟨path, finished, comes,
      (comes.cyclic_iff mixins_closed (mixins_length_lt registry)).mp cyclic⟩
  · rintro ⟨path, finished, comes, back⟩
    exact (comes.cyclic_iff mixins_closed (mixins_length_lt registry)).mpr back

/-- What a finding names lies on a cycle. -/
theorem NamedInCycle.reaches {id : Nat} (named : NamedInCycle registry options id) :
    Reaches (edges registry options) id id := by
  obtain ⟨cycle, closed, passes, -⟩ := named
  exact closed.reaches passes passes

/-- Both ends of an entry that leads back along a cycle are named. -/
theorem named_of_back_entry (h : registry.WellFormed) {outer inner : Nat}
    (leads : Leads (edges registry options) outer inner)
    (covers : Covers (edges registry options) inner outer)
    (back : ¬ Precedes (resolve registry options).mixinOrder inner outer) :
    NamedInCycle registry options outer ∧ NamedInCycle registry options inner := by
  obtain ⟨sound, finished⟩ := mixinWalk_sound registry options
  have isMixin : outer ∈ registry.mixins.map FactoryCall.id := by
    have round : Reaches (edges registry options) outer outer :=
      Relation.TransGen.head' leads covers
    obtain ⟨_, -, last⟩ := Relation.TransGen.tail'_iff.mp round
    exact mem_mixin_ids.mpr (exists_mixin_of_leads last)
  rcases sound.settled outer (finished outer isMixin) inner leads with earlier | cyclic
  · exact absurd earlier back
  · exact cyclic.imp (namedInCycle_iff_cyclic options h).mpr (namedInCycle_iff_cyclic options h).mpr

end Reports

/-- A mixin is named just if inclusions lead back to it, or onto the way to it, when the walk comes to
it: past all that the walk has finished by then or is on the way. On every cycle some entry leads
from a mixin to one that is not merged before it, and of every such entry both ends are named. So two
mixins that include each other are named, and a mixin that includes itself. Nothing is named that
lies on no cycle. -/
theorem cycle_named_where_it_closes {registry : Registry} (options : Options)
    (h : registry.WellFormed) :
    (∀ id, NamedInCycle registry options id ↔
      ∃ path finished,
        ComesAlong (edges registry options) (registry.mixins.map FactoryCall.id) path id finished ∧
          GetsBack (edges registry options) path id finished) ∧
    (∀ cycle, ClosesCycle (edges registry options) cycle →
      ∃ outer ∈ cycle.map Prod.fst, ∃ inner ∈ cycle.map Prod.fst,
        Leads (edges registry options) outer inner ∧
        ¬ Precedes (resolve registry options).mixinOrder inner outer) ∧
    (∀ outer inner, Leads (edges registry options) outer inner →
      Covers (edges registry options) inner outer →
      ¬ Precedes (resolve registry options).mixinOrder inner outer →
      NamedInCycle registry options outer ∧ NamedInCycle registry options inner) ∧
    (∀ one other, Leads (edges registry options) one other →
      Leads (edges registry options) other one → NamedInCycle registry options one) ∧
    (∀ id, NamedInCycle registry options id → Reaches (edges registry options) id id) := by
  have distinct : (resolve registry options).mixinOrder.Nodup :=
    (mixinWalk_sound registry options).1.distinct
  refine ⟨fun id => namedInCycle_iff options h, ?_, ?_, ?_, ?_⟩
  · intro cycle closed
    exact closed.exists_back_entry distinct
  · intro outer inner leads covers back
    exact named_of_back_entry h leads covers back
  · intro one other there back
    by_cases before : Precedes (resolve registry options).mixinOrder other one
    · have notBefore : ¬ Precedes (resolve registry options).mixinOrder one other := by
        intro after
        have earlier := Precedes.idxOf_lt distinct before
        have later := Precedes.idxOf_lt distinct after
        omega
      exact (named_of_back_entry h back (.single there) notBefore).2
    · exact (named_of_back_entry h there (.single back) before).1
  · intro id named
    exact named.reaches

/-- Two mixins that include each other, and a third through which the first includes the second
again. -/
def detourRegistry : Registry :=
  plainRegistry [⟨.mixin, "First", ["Second", "Detour"], []⟩, ⟨.mixin, "Second", ["First"], []⟩,
    ⟨.mixin, "Detour", ["Second"], []⟩]

/-- Both mixins that include each other are named. The third one lies on a cycle with them, but when
the walk comes to it the second is finished, and it is not named. -/
theorem cycle_named_where_it_closes_detour :
    detourRegistry.WellFormed ∧
      (NamedInCycle detourRegistry .standard 1 ∧ NamedInCycle detourRegistry .standard 0) ∧
      Reaches (edges detourRegistry .standard) 2 2 ∧
      ¬ NamedInCycle detourRegistry .standard 2 := by
  have sound : detourRegistry.WellFormed := plainRegistry_wellFormed _
  have there : Leads (edges detourRegistry .standard) 0 1 := ⟨default, by decide⟩
  have back : Leads (edges detourRegistry .standard) 1 0 := ⟨default, by decide⟩
  have away : Leads (edges detourRegistry .standard) 0 2 := ⟨default, by decide⟩
  have again : Leads (edges detourRegistry .standard) 2 1 := ⟨default, by decide⟩
  have mutually := (cycle_named_where_it_closes .standard sound).2.2.2.1
  refine ⟨sound, ⟨mutually 1 0 back there, mutually 0 1 there back⟩,
    .tail (.tail (.single again) back) away, ?_⟩
  rw [namedInCycle_iff_cyclic .standard sound]
  decide

end ClassFactory
