/-
Module: ClassFactory.Proofs.Mixins.Paths
Purpose: Ways along inclusions, seen as relations. `Leads` is one entry, `Reaches` is one or more of
  them, and `ClosesCycle` says when a list of entries, as a walk reports it, leads back to its first
  mixin without passing a mixin twice.
Main exports: Leads, Reaches, LeadsTo, ClosesCycle, Precedes, ClosesCycle.reaches
-/
import ClassFactory.Mixins.Dependency
import Mathlib.Logic.Relation

namespace ClassFactory

/-- Some entry of the first mixin names the second. -/
def Leads (edges : Nat → List (Nat × Site)) (outer inner : Nat) : Prop :=
  ∃ site, (inner, site) ∈ edges outer

/-- The first mixin includes the second, directly or through others. -/
abbrev Reaches (edges : Nat → List (Nat × Site)) : Nat → Nat → Prop :=
  Relation.TransGen (Leads edges)

/-- The first mixin is the second or includes it. -/
abbrev Covers (edges : Nat → List (Nat × Site)) : Nat → Nat → Prop :=
  Relation.ReflTransGen (Leads edges)

/-- The entries of a path lead from mixin to mixin, and the last of them to the target. -/
inductive LeadsTo (edges : Nat → List (Nat × Site)) : InclusionPath → Nat → Prop where
  | start (id : Nat) : LeadsTo edges [] id
  | step {path : InclusionPath} {id next : Nat} {site : Site} (before : LeadsTo edges path id)
      (entry : (next, site) ∈ edges id) : LeadsTo edges (path ++ [(id, site)]) next

/-- The entries lead around a cycle whose mixins differ. -/
structure ClosesCycle (edges : Nat → List (Nat × Site)) (cycle : InclusionPath) : Prop where
  distinct : (cycle.map Prod.fst).Nodup
  closes : ∃ first, first ∈ cycle.head? ∧ LeadsTo edges cycle first.1

/-- The first of two items comes before the second. -/
def Precedes {α : Type} (order : List α) (first second : α) : Prop :=
  ∃ before after, order = before ++ second :: after ∧ first ∈ before

section Paths

variable {edges : Nat → List (Nat × Site)}

namespace LeadsTo

/-- A later part of a path leads to the same target. -/
theorem suffix {path tail : InclusionPath} {target : Nat} (way : LeadsTo edges path target)
    (part : tail <:+ path) : LeadsTo edges tail target := by
  induction way generalizing tail with
  | start id =>
      obtain rfl := List.suffix_nil.mp part
      exact .start id
  | step before entry ih =>
      rcases List.suffix_concat_iff.mp part with rfl | ⟨shorter, rfl, shorterPart⟩
      · exact .start _
      · exact .step (ih shorterPart) entry

/-- Every mixin on a path includes the target. -/
theorem reaches {path : InclusionPath} {target : Nat} (way : LeadsTo edges path target)
    {place : Nat × Site} (mem : place ∈ path) : Reaches edges place.1 target := by
  induction way with
  | start id => cases mem
  | @step path id next site before entry ih =>
      have last : Leads edges id next := ⟨site, entry⟩
      rcases List.mem_append.mp mem with earlier | here
      · exact (ih earlier).tail last
      · obtain rfl := List.mem_singleton.mp here
        exact .single last

/-- The mixin at the head of a path includes, or is, every other one on it. -/
theorem covers_of_head {path : InclusionPath} {target : Nat} (way : LeadsTo edges path target)
    {first place : Nat × Site} (head : first ∈ path.head?) (mem : place ∈ path) :
    Covers edges first.1 place.1 := by
  induction way with
  | start id => cases mem
  | @step path id next site before entry ih =>
      cases path with
      | nil =>
          obtain rfl : (id, site) = first := by simpa using head
          obtain rfl : place = (id, site) := by simpa using mem
          exact .refl
      | cons lead rest =>
          obtain rfl : lead = first := by simpa using head
          rcases List.mem_append.mp mem with earlier | here
          · exact ih (by simp) earlier
          · obtain rfl := List.mem_singleton.mp here
            exact (before.reaches List.mem_cons_self).to_reflTransGen

end LeadsTo

/-- The mixins of a cycle include each other. -/
theorem ClosesCycle.reaches {cycle : InclusionPath} (closed : ClosesCycle edges cycle)
    {one other : Nat} (memOne : one ∈ cycle.map Prod.fst) (memOther : other ∈ cycle.map Prod.fst) :
    Reaches edges one other := by
  obtain ⟨first, head, way⟩ := closed.closes
  obtain ⟨place, placeMem, rfl⟩ := List.mem_map.mp memOne
  obtain ⟨target, targetMem, rfl⟩ := List.mem_map.mp memOther
  exact (way.reaches placeMem).trans_left (way.covers_of_head head targetMem)

/-- The part of a path that starts at the first visit of a mixin. -/
theorem exists_dropWhile_eq {path : InclusionPath} {target : Nat}
    (visited : target ∈ path.map Prod.fst) :
    ∃ site rest, path.dropWhile (fun place => place.1 ≠ target) = (target, site) :: rest := by
  induction path with
  | nil => cases visited
  | cons place rest ih =>
      obtain ⟨id, site⟩ := place
      by_cases same : id = target
      · subst same
        exact ⟨site, rest, by simp⟩
      · have later : target ∈ rest.map Prod.fst := by
          simpa [Ne.symm same] using visited
        obtain ⟨site', rest', found⟩ := ih later
        exact ⟨site', rest', by simpa [same] using found⟩

/-- An entry that leads from the end of a path back onto it closes a cycle through that end. -/
theorem closesCycle_dropWhile {path : InclusionPath} {id target : Nat} {site : Site}
    (way : LeadsTo edges (path ++ [(id, site)]) target)
    (distinct : ((path ++ [(id, site)]).map Prod.fst).Nodup)
    (visited : target ∈ (path ++ [(id, site)]).map Prod.fst) :
    ClosesCycle edges ((path ++ [(id, site)]).dropWhile fun place => place.1 ≠ target) ∧
      id ∈ ((path ++ [(id, site)]).dropWhile fun place => place.1 ≠ target).map Prod.fst ∧
      target ∈ ((path ++ [(id, site)]).dropWhile fun place => place.1 ≠ target).map Prod.fst := by
  have part := List.dropWhile_suffix (fun place : Nat × Site => place.1 ≠ target)
    (l := path ++ [(id, site)])
  obtain ⟨entry, rest, found⟩ := exists_dropWhile_eq visited
  rw [found] at part ⊢
  have cycleWay := way.suffix part
  refine ⟨⟨distinct.sublist (part.sublist.map _), ⟨(target, entry), by simp, cycleWay⟩⟩, ?_,
    by simp⟩
  rcases List.suffix_concat_iff.mp part with none | ⟨shorter, same, -⟩
  · cases none
  · rw [same]
    simp

namespace Precedes

variable {α : Type} {order : List α} {first : α}

/-- What comes after an order does not change who precedes whom in it. -/
theorem append {second : α} (h : Precedes order first second) (more : List α) :
    Precedes (order ++ more) first second := by
  obtain ⟨before, after, rfl, mem⟩ := h
  exact ⟨before, after ++ more, by simp, mem⟩

/-- Everything in an order precedes what is put at its end. -/
theorem concat (mem : first ∈ order) (second : α) :
    Precedes (order ++ [second]) first second :=
  ⟨order, [], rfl, mem⟩

end Precedes

end Paths

end ClassFactory
